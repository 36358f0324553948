import Mathlib.Data.List.Basic
import NoteAgent.Tag
import NoteAgent.Text.Cut
/-!
# TagRuns — where the tags of a text stand

A tag is read from its hash sign to the end of the run after it (`scan_some`), and a character that no tag holds parts what
stands before it from what stands after it (`scan_append_break`).  So the hash sign in front of a run always begins a tag,
whatever stands before it, and each tag stands in the text.  A text that looks like a tag occurs in a body if and only if it
occurs in the tags of the body as they are stored beside it (`contains_joined`).
-/
namespace NoteAgent
namespace Tag

/-! ## Reading tags -/

theorem not_isTagChar_hash : isTagChar '#' = false := by decide

theorem not_isTagChar_blank : isTagChar ' ' = false := by decide

theorem scan_hash (cs : List Char) : scan none ('#' :: cs) = scan (some []) cs := rfl

theorem scan_skip {c : Char} (hc : c ≠ '#') (cs : List Char) : scan none (c :: cs) = scan none cs := by
  rw [scan, if_neg (by simpa using hc)]

theorem scan_more {c : Char} (hc : isTagChar c = true) (run cs : List Char) :
    scan (some run) (c :: cs) = scan (some (c :: run)) cs := by
  rw [scan, if_pos hc]

theorem scan_close {c : Char} (hc : isTagChar c = false) (run cs : List Char) :
    scan (some run) (c :: cs) = close run ++ scan none (c :: cs) := by
  exact (scan.eq_4 run c cs).trans (if_neg (by simp [hc]))

/-- Inside a tag, the run goes on to its end, and what stands after it is read anew. -/
theorem scan_some (run cs : List Char) :
    scan (some run) cs = close ((cs.takeWhile isTagChar).reverse ++ run) ++ scan none (cs.dropWhile isTagChar) := by
  induction cs generalizing run with
  | nil => simp [scan]
  | cons c cs ih =>
    cases hc : isTagChar c with
    | true =>
      rw [scan_more hc, ih, List.takeWhile_cons_of_pos hc, List.dropWhile_cons_of_pos hc, List.reverse_cons,
        List.append_assoc, List.singleton_append]
    | false =>
      rw [scan_close hc, List.takeWhile_cons_of_neg (by simp [hc]), List.dropWhile_cons_of_neg (by simp [hc])]
      rfl

/-- **A character that no tag holds parts the tags before it from those after it.** -/
theorem scan_append_break {c : Char} (hc : isTagChar c = false) (x y : List Char) (run : Option (List Char)) :
    scan run (x ++ c :: y) = scan run x ++ scan none (c :: y) := by
  induction x generalizing run with
  | nil =>
    cases run with
    | none => rfl
    | some run => exact scan_close hc run y
  | cons d x ih =>
    have hnone : scan none (d :: x ++ c :: y) = scan none (d :: x) ++ scan none (c :: y) := by
      by_cases hd : d = '#'
      · rw [hd, List.cons_append, scan_hash, scan_hash, ih]
      · rw [List.cons_append, scan_skip hd, scan_skip hd, ih]
    cases run with
    | none => exact hnone
    | some run =>
      cases hd : isTagChar d with
      | true => rw [List.cons_append, scan_more hd, scan_more hd, ih]
      | false =>
        rw [List.cons_append] at hnone ⊢
        rw [scan_close hd, scan_close hd, hnone, List.append_assoc]

/-! ## Where a tag stands -/

/-- What has been read of the tag that is open. -/
def opened : Option (List Char) → List Char
  | none => []
  | some run => '#' :: run.reverse

theorem mem_close {tag run : List Char} (h : tag ∈ close run) : tag = '#' :: run.reverse := by
  unfold close at h
  split at h
  · cases h
  · exact List.mem_singleton.1 h

/-- **Each tag stands in the text** after what is open. -/
theorem infix_of_mem_scan {tag : List Char} {run : Option (List Char)} {cs : List Char} (h : tag ∈ scan run cs) :
    tag <:+: opened run ++ cs := by
  induction cs generalizing run with
  | nil =>
    cases run with
    | none => cases h
    | some run => rw [mem_close h, List.append_nil]; exact List.infix_rfl
  | cons c cs ih =>
    have hnone (h : tag ∈ scan none (c :: cs)) : tag <:+: c :: cs := by
      by_cases hc : c = '#'
      · rw [hc, scan_hash] at h
        rw [hc]
        exact ih h
      · rw [scan_skip hc] at h
        exact List.infix_cons (ih h)
    cases run with
    | none => exact hnone h
    | some run =>
      cases hc : isTagChar c with
      | true =>
        rw [scan_more hc] at h
        simpa [opened] using ih h
      | false =>
        rw [scan_close hc, List.mem_append] at h
        rcases h with h | h
        · rw [mem_close h]
          exact (List.prefix_append _ _).isInfix
        · exact (hnone h).trans (List.suffix_append _ _).isInfix

/-- **A hash sign with a run after it begins a tag**, whatever stands before it. -/
theorem mem_scan_of_run {run : List Char} (hne : run ≠ []) (hrun : ∀ c ∈ run, isTagChar c = true) (x y : List Char) :
    ∃ tag ∈ scan none (x ++ '#' :: (run ++ y)), '#' :: run <+: tag := by
  refine ⟨'#' :: (run ++ y).takeWhile isTagChar, ?_, ?_⟩
  · have hclose : close ((run ++ y).takeWhile isTagChar).reverse = ['#' :: (run ++ y).takeWhile isTagChar] := by
      obtain ⟨c, run, rfl⟩ := List.exists_cons_of_ne_nil hne
      rw [close, List.cons_append, List.takeWhile_cons_of_pos (hrun c List.mem_cons_self)]
      simp
    rw [scan_append_break not_isTagChar_hash, scan_hash, scan_some, List.append_nil, hclose]
    simp
  · rw [List.takeWhile_append_of_pos hrun, List.cons_prefix_cons]
    exact ⟨rfl, List.prefix_append _ _⟩

/-! ## Tags joined by blanks -/

theorem infix_append_cons {α : Type} {sep : α} {needle : List α} (hsep : sep ∉ needle) (x y : List α) :
    needle <:+: x ++ sep :: y ↔ needle <:+: x ∨ needle <:+: y := by
  have hbegins {l : List α} (hl : l <+: sep :: y) (hmem : sep ∉ l) : l = [] := by
    cases l with
    | nil => rfl
    | cons a l => exact absurd (List.cons_prefix_cons.1 hl).1 fun h => hmem (h ▸ List.mem_cons_self)
  constructor
  · intro h
    rcases List.infix_append_iff.1 h with h | h | ⟨first, last, rfl, hfirst, hlast⟩
    · exact .inl h
    · rcases List.infix_cons_iff.1 h with h | h
      · rw [hbegins h hsep]
        exact .inl (List.nil_infix)
      · exact .inr h
    · rw [hbegins hlast fun h => hsep (List.mem_append_right _ h), List.append_nil]
      exact .inl hfirst.isInfix
  · rintro (h | h)
    · exact h.trans (List.prefix_append _ _).isInfix
    · exact h.trans ((List.suffix_cons _ _).trans (List.suffix_append _ _)).isInfix

/-- What does not hold the separator stands in the joined words if and only if it stands in one of them. -/
theorem infix_intercalate {α : Type} {sep : α} {needle : List α} (hne : needle ≠ []) (hsep : sep ∉ needle) :
    ∀ words : List (List α), needle <:+: List.intercalate [sep] words ↔ ∃ word ∈ words, needle <:+: word
  | [] => by simp [hne]
  | [word] => by simp
  | word :: word' :: words => by
    rw [List.intercalate_cons_cons, List.append_assoc, List.singleton_append, infix_append_cons hsep,
      infix_intercalate hne hsep (word' :: words)]
    simp

theorem toList_joined (content : String) : (joined content).toList = List.intercalate [' '] (scan none content.toList) := by
  rw [joined, tags, String.toList_intercalate, List.map_map]
  simp [Function.comp_def]

/-! ## Looking for a tag -/

/-- The text is a hash sign and a run of characters that a tag may hold. -/
def IsTag (text : String) : Prop := ∃ run, text.toList = '#' :: run ∧ run ≠ [] ∧ ∀ c ∈ run, isTagChar c = true

/-- **A tag occurs in a body if and only if it occurs in the tags of the body** as they are stored beside it. -/
theorem contains_joined {tag : String} (h : IsTag tag) (content : String) :
    Text.contains (joined content) tag = Text.contains content tag := by
  obtain ⟨run, htag, hne, hrun⟩ := h
  have hblank : ' ' ∉ '#' :: run := fun hmem => by
    rcases List.mem_cons.1 hmem with h | h
    · cases h
    · exact absurd (hrun _ h) (by simp [not_isTagChar_blank])
  rw [Bool.eq_iff_iff, Text.contains_iff, Text.contains_iff, htag, toList_joined,
    infix_intercalate (List.cons_ne_nil _ _) hblank]
  constructor
  · rintro ⟨word, hword, hinfix⟩
    exact hinfix.trans (infix_of_mem_scan hword)
  · rintro ⟨x, y, hcontent⟩
    obtain ⟨word, hword, hbegins⟩ := mem_scan_of_run hne hrun x y
    refine ⟨word, ?_, hbegins.isInfix⟩
    rwa [← hcontent, List.append_assoc, List.cons_append]

end Tag
end NoteAgent
