import NoteAgent.Proofs.ReplyMembers
import NoteAgent.Proofs.TitleOnce
/-!
# TitleText — what a title keeps of a reply

Blanks are taken off a reply, then quotes, then blanks again, and the rest is cut.  That takes off a layer at each end, blanks
and quotes and blanks in this order (`peel_eq_nil_iff`), and never what stands behind it; and the cut comes last.  So a title
has neither blanks nor quotes at its ends, and a reply of nothing else gives none, exactly for replies that have one layer at
the most before and after, where the cut does not fall on a blank or a quote (`clean_iff_framed`, `stored_clean_iff`).
-/
namespace NoteAgent
namespace Text

/-! ## Trimming -/

variable {p : Char → Bool} {pre cs post : List Char}

/-- A text that does not begin or end with a character of a class. -/
structure Bare (p : Char → Bool) (cs : List Char) : Prop where
  first : ∀ c ∈ cs.head?, p c = false
  last : ∀ c ∈ cs.getLast?, p c = false

theorem Bare.nil : Bare p [] where
  first _ h := by cases h
  last _ h := by cases h

theorem Bare.mono {q : Char → Bool} (h : Bare p cs) (hq : ∀ c, p c = false → q c = false) : Bare q cs :=
  ⟨fun c hc => hq c (h.first c hc), fun c hc => hq c (h.last c hc)⟩

/-- A text that has no character of a class has none at its ends. -/
theorem Bare.of_forall (h : ∀ c ∈ cs, p c = false) : Bare p cs :=
  ⟨fun c hc => h c (List.mem_of_mem_head? hc), fun c hc => h c (List.mem_of_mem_getLast? hc)⟩

/-- A text between two that end it is bare if these are. -/
theorem Bare.enclose (hpre : Bare p pre) (hpost : Bare p post) (hl : pre ≠ []) (hr : post ≠ []) :
    Bare p (pre ++ cs ++ post) := by
  constructor
  · intro c hc
    rw [List.append_assoc, List.head?_append_of_ne_nil _ hl] at hc
    exact hpre.first c hc
  · intro c hc
    rw [List.getLast?_append_of_ne_nil _ hr] at hc
    exact hpost.last c hc

theorem dropWhile_of_first (h : ∀ c ∈ cs.head?, p c = false) : cs.dropWhile p = cs := by
  cases cs with
  | nil => rfl
  | cons c cs => exact List.dropWhile_cons_of_neg (by simp [h c rfl])

theorem first_dropWhile (p : Char → Bool) (cs : List Char) : ∀ c ∈ (cs.dropWhile p).head?, p c = false := by
  intro c hc
  have h := List.head?_dropWhile_not p cs
  rw [Option.mem_def.1 hc] at h
  exact h

theorem trimBy_of_bare (h : Bare p cs) : trimBy p cs = cs := by
  have hlast : ∀ c ∈ cs.reverse.head?, p c = false := by
    rw [List.head?_reverse]
    exact h.last
  rw [trimBy, dropWhile_of_first h.first, dropWhile_of_first hlast, List.reverse_reverse]

theorem trimBy_of_forall (h : ∀ c ∈ cs, p c = true) : trimBy p cs = [] := by
  rw [trimBy, List.dropWhile_eq_nil_iff.2 h]
  rfl

/-- **What is added at the ends of a text is taken off again.** -/
theorem trimBy_pad (hpre : ∀ c ∈ pre, p c = true) (hpost : ∀ c ∈ post, p c = true) :
    trimBy p (pre ++ cs ++ post) = trimBy p cs := by
  rw [trimBy, List.append_assoc, List.dropWhile_append_of_pos hpre, List.dropWhile_append, trimBy]
  split
  · rename_i hnil
    rw [List.dropWhile_eq_nil_iff.2 hpost, List.isEmpty_iff.1 hnil]
  · rw [List.reverse_append, List.dropWhile_append_of_pos fun c hc => hpost c (List.mem_reverse.1 hc)]

/-- **Trimming takes characters of the class off both ends, and leaves none there.** -/
theorem trimBy_spec (p : Char → Bool) (cs : List Char) : ∃ pre post, cs = pre ++ trimBy p cs ++ post ∧
    (∀ c ∈ pre, p c = true) ∧ (∀ c ∈ post, p c = true) ∧ Bare p (trimBy p cs) := by
  let rest := cs.dropWhile p
  have hrest : rest = trimBy p cs ++ (rest.reverse.takeWhile p).reverse := by
    rw [trimBy, ← List.reverse_append, List.takeWhile_append_dropWhile, List.reverse_reverse]
  refine ⟨cs.takeWhile p, (rest.reverse.takeWhile p).reverse, ?_, fun c => List.mem_takeWhile_imp, fun c hc => ?_, ?_, ?_⟩
  · rw [List.append_assoc, ← hrest, List.takeWhile_append_dropWhile]
  · exact List.mem_takeWhile_imp (List.mem_reverse.1 hc)
  · intro c hc
    have hfirst : c ∈ rest.head? := by
      rw [hrest, List.head?_append, Option.mem_def.1 hc]
      rfl
    exact first_dropWhile p cs c hfirst
  · intro c hc
    rw [trimBy, List.getLast?_reverse] at hc
    exact first_dropWhile p _ c hc

/-- A text between what is added, where it has no character of the class at its ends itself. -/
theorem trimBy_around (h : Bare p cs) (hne : cs ≠ []) (pre post : List Char) :
    trimBy p (pre ++ cs ++ post) = pre.dropWhile p ++ cs ++ (post.reverse.dropWhile p).reverse := by
  have hpre : pre.takeWhile p ++ pre.dropWhile p = pre := List.takeWhile_append_dropWhile
  have hpost : (post.reverse.dropWhile p).reverse ++ (post.reverse.takeWhile p).reverse = post := by
    rw [← List.reverse_append, List.takeWhile_append_dropWhile, List.reverse_reverse]
  have hbare : Bare p (pre.dropWhile p ++ cs ++ (post.reverse.dropWhile p).reverse) := by
    constructor
    · intro c hc
      rw [List.append_assoc, List.head?_append, List.head?_append_of_ne_nil _ hne] at hc
      rcases Option.or_eq_some_iff.1 hc with hc | ⟨-, hc⟩
      · exact first_dropWhile p pre c hc
      · exact h.first c hc
    · intro c hc
      rw [List.getLast?_append, List.getLast?_append_of_ne_nil _ hne, List.getLast?_reverse] at hc
      rcases Option.or_eq_some_iff.1 hc with hc | ⟨-, hc⟩
      · exact first_dropWhile p _ c hc
      · exact h.last c hc
  calc trimBy p (pre ++ cs ++ post)
      = trimBy p (pre.takeWhile p ++ (pre.dropWhile p ++ cs ++ (post.reverse.dropWhile p).reverse) ++
          (post.reverse.takeWhile p).reverse) := by
        rw [← List.append_assoc, ← List.append_assoc, hpre, List.append_assoc _ _ (List.reverse _), hpost]
    _ = trimBy p (pre.dropWhile p ++ cs ++ (post.reverse.dropWhile p).reverse) :=
        trimBy_pad (fun c => List.mem_takeWhile_imp) fun c hc => List.mem_takeWhile_imp (List.mem_reverse.1 hc)
    _ = _ := trimBy_of_bare hbare

end Text

namespace Chat
namespace Title

open Text (Bare isBlank trimBy)

/-! ## Layers -/

def isQuote (c : Char) : Bool := c == '"'

/-- A blank or a quote. -/
def isWrap (c : Char) : Bool := isBlank c || isQuote c

theorem isBlank_of_isQuote {c : Char} (h : isQuote c = true) : isBlank c = false := by
  rw [beq_iff_eq.1 h]
  decide

theorem isQuote_of_isBlank {c : Char} (h : isBlank c = true) : isQuote c = false := by
  cases hc : isQuote c with
  | false => rfl
  | true => exact absurd h (by simp [isBlank_of_isQuote hc])

theorem isBlank_of_not_isWrap (c : Char) (h : isWrap c = false) : isBlank c = false := (Bool.or_eq_false_iff.1 h).1

theorem isQuote_of_not_isWrap (c : Char) (h : isWrap c = false) : isQuote c = false := (Bool.or_eq_false_iff.1 h).2

theorem isWrap_of_isBlank {c : Char} (h : isBlank c = true) : isWrap c = true := by rw [isWrap, h, Bool.true_or]

theorem isWrap_of_isQuote {c : Char} (h : isQuote c = true) : isWrap c = true := by rw [isWrap, h, Bool.or_true]

/-- Blanks, then quotes, then blanks; there may be none of each. -/
def Layer (cs : List Char) : Prop := ∃ blanks quotes blanks' : List Char, cs = blanks ++ quotes ++ blanks' ∧
  (∀ c ∈ blanks, isBlank c = true) ∧ (∀ c ∈ quotes, isQuote c = true) ∧ ∀ c ∈ blanks', isBlank c = true

theorem Layer.reverse {cs : List Char} (h : Layer cs) : Layer cs.reverse := by
  obtain ⟨blanks, quotes, blanks', rfl, hblanks, hquotes, hblanks'⟩ := h
  refine ⟨blanks'.reverse, quotes.reverse, blanks.reverse, ?_, ?_, ?_, ?_⟩
  · simp only [List.reverse_append, List.append_assoc]
  · exact fun c hc => hblanks' c (List.mem_reverse.1 hc)
  · exact fun c hc => hquotes c (List.mem_reverse.1 hc)
  · exact fun c hc => hblanks c (List.mem_reverse.1 hc)

theorem Layer.isWrap {cs : List Char} (h : Layer cs) : ∀ c ∈ cs, isWrap c = true := by
  obtain ⟨blanks, quotes, blanks', rfl, hblanks, hquotes, hblanks'⟩ := h
  intro c hc
  simp only [List.mem_append] at hc
  obtain (hc | hc) | hc := hc
  · exact isWrap_of_isBlank (hblanks c hc)
  · exact isWrap_of_isQuote (hquotes c hc)
  · exact isWrap_of_isBlank (hblanks' c hc)

/-- What is left of a text once a layer is taken off its beginning. -/
def peel (cs : List Char) : List Char := ((cs.dropWhile isBlank).dropWhile isQuote).dropWhile isBlank

/-- **What is taken off is a layer, and no more.** -/
theorem peel_eq_nil_iff (cs : List Char) : peel cs = [] ↔ Layer cs := by
  constructor
  · intro h
    refine ⟨cs.takeWhile isBlank, (cs.dropWhile isBlank).takeWhile isQuote, (cs.dropWhile isBlank).dropWhile isQuote, ?_,
      fun c => List.mem_takeWhile_imp, fun c => List.mem_takeWhile_imp, List.dropWhile_eq_nil_iff.1 h⟩
    rw [List.append_assoc, List.takeWhile_append_dropWhile, List.takeWhile_append_dropWhile]
  · rintro ⟨blanks, quotes, blanks', rfl, hblanks, hquotes, hblanks'⟩
    rw [peel, List.append_assoc, List.dropWhile_append_of_pos hblanks, List.dropWhile_eq_nil_iff]
    intro c hc
    refine hblanks' c ?_
    cases quotes with
    | nil =>
      -- the second blanks go with the first, and nothing is left for the quotes
      rw [List.nil_append, List.dropWhile_eq_nil_iff.2 hblanks'] at hc
      cases hc
    | cons q quotes =>
      have hq : isBlank q = false := isBlank_of_isQuote (hquotes q List.mem_cons_self)
      rw [List.cons_append, List.dropWhile_cons_of_neg (by simp [hq]), ← List.cons_append,
        List.dropWhile_append_of_pos hquotes] at hc
      exact (List.dropWhile_suffix isQuote).subset hc

/-! ## What is left of a reply -/

/-- What is left of a reply before it is cut. -/
def core (cs : List Char) : List Char := trimBy isBlank (trimBy isQuote (trimBy isBlank cs))

theorem ofReply?_eq (reply : String) : ofReply? reply =
    if (core reply.toList).isEmpty then none else some (String.ofList ((core reply.toList).take maxLength)) := by
  have hcore : Text.strip (unquote (Text.strip reply)) = String.ofList (core reply.toList) := by
    rw [Text.strip, unquote, Text.strip, String.toList_ofList, String.toList_ofList]
    rfl
  have hempty : (String.ofList (core reply.toList)).isEmpty = (core reply.toList).isEmpty := by
    rw [Bool.eq_iff_iff, String.isEmpty_iff, List.isEmpty_iff, ← String.toList_inj, String.toList_ofList]
    rfl
  simp only [ofReply?, hcore, hempty, Text.cut, String.toList_ofList]

/-- The blanks around a reply do not matter. -/
theorem ofReply?_strip (reply : String) : ofReply? (Text.strip reply) = ofReply? reply := by
  obtain ⟨-, -, -, -, -, hbare⟩ := Text.trimBy_spec isBlank reply.toList
  rw [ofReply?_eq, ofReply?_eq, Text.strip, String.toList_ofList, core, Text.trimBy_of_bare hbare, core]

theorem core_bare (cs : List Char) : Bare isBlank (core cs) := by
  obtain ⟨-, -, -, -, -, hbare⟩ := Text.trimBy_spec isBlank (trimBy isQuote (trimBy isBlank cs))
  exact hbare

/-- **A reply is what is left of it between two layers.** -/
theorem exists_layers (cs : List Char) : ∃ pre post, cs = pre ++ core cs ++ post ∧ Layer pre ∧ Layer post := by
  obtain ⟨a, a', houter, ha, ha', -⟩ := Text.trimBy_spec isBlank cs
  obtain ⟨b, b', hquotes, hb, hb', -⟩ := Text.trimBy_spec isQuote (trimBy isBlank cs)
  obtain ⟨c, c', hinner, hc, hc', -⟩ := Text.trimBy_spec isBlank (trimBy isQuote (trimBy isBlank cs))
  refine ⟨a ++ b ++ c, c' ++ b' ++ a', ?_, ⟨a, b, c, rfl, ha, hb, hc⟩, ⟨c', b', a', rfl, hc', hb', ha'⟩⟩
  calc cs = a ++ (b ++ (c ++ core cs ++ c') ++ b') ++ a' := by rw [core, ← hinner, ← hquotes, ← houter]
    _ = _ := by simp only [List.append_assoc]

/-- What stands before and after a text that is bare of blanks and quotes has its layers taken off. -/
theorem core_around {title : List Char} (h : Bare isWrap title) (hne : title ≠ []) (pre post : List Char) :
    core (pre ++ title ++ post) = peel pre ++ title ++ (peel post.reverse).reverse := by
  have hblank : Bare isBlank title := h.mono isBlank_of_not_isWrap
  have hquote : Bare isQuote title := h.mono isQuote_of_not_isWrap
  simp only [core, Text.trimBy_around hblank hne, Text.trimBy_around hquote hne, List.reverse_reverse, peel]

theorem bare_quotes {quotes : List Char} (h : ∀ c ∈ quotes, isQuote c = true) : Bare isBlank quotes :=
  .of_forall fun c hc => isBlank_of_isQuote (h c hc)

theorem bare_blanks {blanks : List Char} (h : ∀ c ∈ blanks, isBlank c = true) : Bare isQuote blanks :=
  .of_forall fun c hc => isQuote_of_isBlank (h c hc)

/-- Nothing is left of a layer. -/
theorem core_of_layer {cs : List Char} (h : Layer cs) : core cs = [] := by
  obtain ⟨blanks, quotes, blanks', rfl, hblanks, hquotes, hblanks'⟩ := h
  rw [core, Text.trimBy_pad hblanks hblanks', Text.trimBy_of_bare (bare_quotes hquotes), Text.trimBy_of_forall hquotes]
  rfl

/-- **Nothing is left of two layers**, one after the other. -/
theorem core_of_layers {pre post : List Char} (hpre : Layer pre) (hpost : Layer post) : core (pre ++ post) = [] := by
  obtain ⟨a, b, c, rfl, ha, hb, hc⟩ := hpre
  obtain ⟨c', b', a', rfl, hc', hb', ha'⟩ := hpost
  have hinner : ∀ x ∈ c ++ c', isBlank x = true := fun x hx => (List.mem_append.1 hx).elim (hc x) (hc' x)
  -- where one of the layers has no quotes, both together are one
  by_cases hl : b = []
  · subst hl
    refine core_of_layer ⟨a ++ (c ++ c'), b', a', by simp only [List.append_assoc, List.append_nil], fun x hx => ?_, hb', ha'⟩
    exact (List.mem_append.1 hx).elim (ha x) (hinner x)
  by_cases hr : b' = []
  · subst hr
    refine core_of_layer ⟨a, b, c ++ c' ++ a', by simp only [List.append_assoc, List.append_nil], ha, hb, fun x hx => ?_⟩
    exact (List.mem_append.1 hx).elim (hinner x) (ha' x)
  · have hassoc : a ++ b ++ c ++ (c' ++ b' ++ a') = a ++ (b ++ (c ++ c') ++ b') ++ a' := by
      simp only [List.append_assoc]
    rw [hassoc, core, Text.trimBy_pad ha ha',
      Text.trimBy_of_bare ((bare_quotes hb).enclose (bare_quotes hb') hl hr), Text.trimBy_pad hb hb',
      Text.trimBy_of_bare (bare_blanks hinner), Text.trimBy_of_forall hinner]

/-! ## Titles -/

/-- What is sure of a title: it is not blank, is no longer than a title may be, stands in the reply, and begins with no
blank. -/
structure Worthy (reply title : String) : Prop where
  notBlank : ∃ c ∈ title.toList, isBlank c = false
  short : title.length ≤ maxLength
  part : title.toList <:+: reply.toList
  begins : ∀ c ∈ title.toList.head?, isBlank c = false

/-- A title that has neither blanks nor quotes at its ends. -/
structure Clean (reply title : String) : Prop extends Worthy reply title where
  bare : Bare isWrap title.toList

/-- A reply gives clean titles only, and none exactly if it has nothing but blanks and quotes. -/
structure GivesClean (reply : String) (given : Option String) : Prop where
  clean : ∀ title ∈ given, Clean reply title
  none_iff : given = none ↔ ∀ c ∈ reply.toList, isWrap c = true

/-- A reply is a layer, then a title that has neither blanks nor quotes at its ends, and a layer again, or anything after a
title that is as long as it may be. -/
def Framed (reply : String) (title : List Char) : Prop := ∃ pre rest, reply.toList = pre ++ title ++ rest ∧ Layer pre ∧
  Bare isWrap title ∧ (title.length = maxLength ∨ title.length < maxLength ∧ Layer rest)

theorem ofReply?_worthy {reply title : String} (h : ofReply? reply = some title) : Worthy reply title := by
  rw [ofReply?_eq] at h
  split at h
  · cases h
  · rename_i hne
    obtain rfl := Option.some.inj h
    obtain ⟨c, cs, hcore⟩ := List.exists_cons_of_ne_nil fun hnil => hne (List.isEmpty_iff.2 hnil)
    obtain ⟨pre, post, hreply, -, -⟩ := exists_layers reply.toList
    have hc : isBlank c = false := (core_bare reply.toList).first c (by rw [hcore]; rfl)
    have htaken : (core reply.toList).take maxLength = c :: cs.take 79 := by
      rw [hcore, maxLength, List.take_succ_cons]
    refine ⟨⟨c, ?_, hc⟩, ?_, ?_, ?_⟩
    · rw [String.toList_ofList, htaken]
      exact List.mem_cons_self
    · rw [String.length_ofList]
      exact List.length_take_le maxLength _
    · rw [String.toList_ofList]
      exact (List.take_prefix maxLength _).isInfix.trans ⟨pre, post, hreply.symm⟩
    · rw [String.toList_ofList, htaken]
      rintro _ ⟨⟩
      exact hc

theorem isWrap_of_ofReply?_none {reply : String} (h : ofReply? reply = none) : ∃ pre post, reply.toList = pre ++ post ∧
    Layer pre ∧ Layer post := by
  rw [ofReply?_eq] at h
  split at h
  · rename_i hnil
    obtain ⟨pre, post, hreply, hpre, hpost⟩ := exists_layers reply.toList
    rw [List.isEmpty_iff.1 hnil, List.append_nil] at hreply
    exact ⟨pre, post, hreply, hpre, hpost⟩
  · cases h

/-- A reply that is framed gives what is in the frame. -/
theorem Framed.ofReply? {reply : String} {title : List Char} (h : Framed reply title) :
    ofReply? reply = if title.isEmpty then none else some (String.ofList title) := by
  obtain ⟨pre, rest, hreply, hpre, hbare, hrest⟩ := h
  rw [ofReply?_eq, hreply]
  cases title with
  | nil =>
    have hlayer : Layer rest := (hrest.resolve_left (by decide)).2
    rw [List.append_nil, core_of_layers hpre hlayer]
    rfl
  | cons c title =>
    have hcore := core_around hbare (List.cons_ne_nil c title) pre rest
    rw [(peel_eq_nil_iff pre).2 hpre, List.nil_append] at hcore
    have htaken : (core (pre ++ c :: title ++ rest)).take maxLength = c :: title := by
      rw [hcore]
      rcases hrest with hlong | ⟨hshort, hlayer⟩
      · exact List.take_left' hlong
      · rw [(peel_eq_nil_iff _).2 hlayer.reverse, List.reverse_nil, List.append_nil, List.take_of_length_le hshort.le]
    rw [htaken, hcore]
    rfl

/-- **A reply gives clean titles only, and none exactly if there is nothing in it, just if it is framed.** -/
theorem clean_iff_framed (reply : String) : GivesClean reply (ofReply? reply) ↔ ∃ title, Framed reply title := by
  constructor
  · rintro ⟨hclean, -⟩
    cases hgiven : Title.ofReply? reply with
    | none =>
      obtain ⟨pre, post, hreply, hpre, hpost⟩ := isWrap_of_ofReply?_none hgiven
      exact ⟨[], pre, post, by rw [hreply, List.append_nil], hpre, .nil, .inr ⟨by decide, hpost⟩⟩
    | some title =>
      have hbare := (hclean title hgiven).bare
      rw [ofReply?_eq] at hgiven
      split at hgiven
      · cases hgiven
      · obtain rfl := Option.some.inj hgiven
        rw [String.toList_ofList] at hbare
        obtain ⟨pre, post, hreply, hpre, hpost⟩ := exists_layers reply.toList
        refine ⟨_, pre, (core reply.toList).drop maxLength ++ post, ?_, hpre, hbare, ?_⟩
        · rw [List.append_assoc, ← List.append_assoc (List.take _ _), List.take_append_drop, ← List.append_assoc]
          exact hreply
        · rcases Nat.lt_or_ge (core reply.toList).length maxLength with hshort | hlong
          · rw [List.take_of_length_le hshort.le, List.drop_of_length_le hshort.le]
            exact .inr ⟨hshort, hpost⟩
          · exact .inl (List.length_take_of_le hlong)
  · rintro ⟨title, hframed⟩
    have hgiven := hframed.ofReply?
    obtain ⟨pre, rest, hreply, hpre, hbare, hrest⟩ := hframed
    refine ⟨fun given h => ⟨ofReply?_worthy h, ?_⟩, fun hnone => ?_, fun hwrap => ?_⟩
    · rw [Option.mem_def.1 h] at hgiven
      split at hgiven
      · cases hgiven
      · rw [Option.some.inj hgiven, String.toList_ofList]
        exact hbare
    · obtain ⟨pre, post, hreply, hpre, hpost⟩ := isWrap_of_ofReply?_none hnone
      rw [hreply]
      exact fun c hc => (List.mem_append.1 hc).elim (hpre.isWrap c) (hpost.isWrap c)
    · cases title with
      | nil => exact hgiven
      | cons c title =>
        have hc : c ∈ reply.toList := by
          rw [hreply]
          simp
        exact absurd (hwrap c hc) (by simp [hbare.first c rfl])

/-! ## What is stored -/

/-- The text of a reply, which is the empty one if there is none. -/
def HasText (r : Model.Reply) (text : String) : Prop :=
  ∃ m, r.message = .ok m ∧ Model.memberOrEmpty m "content" = .text text

theorem given?_of_text {r : Model.Reply} {text : String} (h : HasText r text) : given? r = ofReply? text := by
  obtain ⟨m, hmessage, htext⟩ := h
  rw [given?, Model.stripped_of_message hmessage htext, Except.toOption, Option.bind_some, ofReply?_strip]

section
variable {w : World}

/-- Whatever strikes the store, the answer is the title that the reply gives, or none. -/
theorem find_answers (uid message : String) (w : World) : (find uid message w).1 = .ok none ∨
    (find uid message w).1 = .ok (given? (w.model.supply .title).next.1) := by
  rw [find, Attempt.bind_run_ok (ask_run message w)]
  cases given? (w.model.supply .title).next.1 with
  | none => exact .inl rfl
  | some title =>
    simp only [Attempt.settle_bind_run]
    generalize World.reviseSession uid (some title) none
      { w with model := (w.model.complete .title (prompt message)).2 } = revised
    obtain ⟨_ | _, _⟩ := revised
    · exact .inl rfl
    · exact .inr rfl

theorem find_gives (hw : w.Steady) (hclock : fitsColumn w.clock = true) (uid message : String) :
    (find uid message w).1 = .ok (given? (w.model.supply .title).next.1) := by
  rw [find, Attempt.bind_run_ok (ask_run message w)]
  cases given? (w.model.supply .title).next.1 with
  | none => rfl
  | some title =>
    let w₁ : World := { w with model := (w.model.complete .title (prompt message)).2 }
    have hw₁ : w₁.Steady := hw
    obtain ⟨-, -, hstored⟩ := World.title?_reviseSession hw₁ hclock uid title
    simp only [Attempt.settle_bind_run]
    rw [hstored]
    rfl

/-- **Which titles are stored.**  Whatever strikes the store, a title is not blank, is no longer than a title may be, stands in
the reply and begins with no blank.  Where nothing strikes it, nothing is stored only for a reply of blanks and quotes.  But
that a title has neither blanks nor quotes at its ends, and that nothing else is stored for such a reply, holds just for the
replies that are framed. -/
theorem stored_clean_iff {reply : String} (hreply : HasText (w.model.supply .title).next.1 reply) (uid message : String) :
    (∀ title, (find uid message w).1 = .ok (some title) → Worthy reply title) ∧
    (w.Steady → fitsColumn w.clock = true → ∃ stored, (find uid message w).1 = .ok stored ∧
      (find uid message w).2.title? uid = (w.title? uid).map stored.getD ∧
      (stored = none → ∀ c ∈ reply.toList, isWrap c = true) ∧
      (GivesClean reply stored ↔ ∃ title, Framed reply title)) := by
  have hgiven : given? (w.model.supply .title).next.1 = ofReply? reply := given?_of_text hreply
  refine ⟨fun title h => ?_, fun hw hclock => ⟨ofReply? reply, ?_, ?_, fun hnone => ?_, clean_iff_framed reply⟩⟩
  · rcases find_answers uid message w with hnone | hsome
    · cases h.symm.trans hnone
    · rw [hgiven, h] at hsome
      exact ofReply?_worthy (Except.ok.inj hsome).symm
  · rw [find_gives hw hclock, hgiven]
  · rw [(find_names hw hclock uid message).title, hgiven]
  · obtain ⟨pre, post, hparts, hpre, hpost⟩ := isWrap_of_ofReply?_none hnone
    rw [hparts]
    exact fun c hc => (List.mem_append.1 hc).elim (hpre.isWrap c) (hpost.isWrap c)

end

/-- A session without messages, and the one reply that a model gives when asked for titles. -/
def titledBy (reply : String) : World := { newSession with model := .fresh (.always "") (.always "") (.always reply) }

def quotedReply : String := "\" Weekly Planning \""

theorem stored_clean_iff_quotedReply :
    HasText ((titledBy quotedReply).model.supply .title).next.1 quotedReply ∧ (titledBy quotedReply).Steady ∧
    fitsColumn (titledBy quotedReply).clock = true ∧
    (find "s" "m" (titledBy quotedReply)).1 = .ok (some "Weekly Planning") ∧
    (find "s" "m" (titledBy quotedReply)).2.title? "s" = some "Weekly Planning" ∧
    GivesClean quotedReply (some "Weekly Planning") := by
  have htext : HasText ((titledBy quotedReply).model.supply .title).next.1 quotedReply := ⟨_, rfl, rfl⟩
  have hsteady : (titledBy quotedReply).Steady := fun _ _ => rfl
  have hfound : (find "s" "m" (titledBy quotedReply)).1 = .ok (some "Weekly Planning") := by decide +kernel
  obtain ⟨stored, hstored, htitle, -, hclean⟩ := (stored_clean_iff htext "s" "m").2 hsteady (by decide)
  obtain rfl := Except.ok.inj (hfound.symm.trans hstored)
  have hquote : ∀ c ∈ ['"'], isQuote c = true := List.forall_mem_singleton.2 (by decide)
  have hblank : ∀ c ∈ [' '], isBlank c = true := List.forall_mem_singleton.2 (by decide)
  have hfirst : "Weekly Planning".toList.head? = some 'W' := by decide +kernel
  have hlast : "Weekly Planning".toList.getLast? = some 'g' := by decide +kernel
  have hbare : Bare isWrap "Weekly Planning".toList := by
    refine ⟨fun c hc => ?_, fun c hc => ?_⟩
    · cases hfirst.symm.trans hc
      decide
    · cases hlast.symm.trans hc
      decide
  have hframed : Framed quotedReply "Weekly Planning".toList :=
    ⟨['"', ' '], [' ', '"'], by decide +kernel, ⟨[], ['"'], [' '], rfl, List.forall_mem_nil _, hquote, hblank⟩, hbare,
      .inr ⟨by decide +kernel, [' '], ['"'], [], rfl, hblank, hquote, List.forall_mem_nil _⟩⟩
  exact ⟨htext, hsteady, by decide, hfound, htitle, hclean.2 ⟨_, hframed⟩⟩

/-- A reply that is cut behind a blank. -/
def longReply : String := String.ofList (List.replicate 79 'a') ++ " word"

/-- **Titles with a blank or with quotes at their ends are stored**, where the cut falls on a blank and where quotes stand
within quotes and blanks; and a reply of quotes and blanks alone gives a title. -/
theorem unclean_titles_are_stored :
    ((find "s" "m" (titledBy longReply)).2.title? "s" = some (String.ofList (List.replicate 79 'a') ++ " ") ∧
      ¬Clean longReply (String.ofList (List.replicate 79 'a') ++ " ")) ∧
    ((find "s" "m" (titledBy "\" \"Weekly Planning\" \"")).2.title? "s" = some "\"Weekly Planning\"" ∧
      ¬Clean "\" \"Weekly Planning\" \"" "\"Weekly Planning\"") ∧
    (find "s" "m" (titledBy "\" \"\" \"")).2.title? "s" = some "\"\"" ∧ ∀ c ∈ "\" \"\" \"".toList, isWrap c = true := by
  have hblank : isWrap ' ' = true := by decide
  have hquote : isWrap '"' = true := by decide
  refine ⟨⟨by decide +kernel, fun h => ?_⟩, ⟨by decide +kernel, fun h => ?_⟩, by decide +kernel,
    List.all_eq_true.1 (by decide +kernel)⟩
  · exact absurd hblank (by simp [h.bare.last ' ' (by decide +kernel)])
  · exact absurd hquote (by simp [h.bare.last '"' (by decide +kernel)])

end Title
end Chat
end NoteAgent
