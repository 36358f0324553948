import NoteAgent.Vector.Service
/-!
# FilterMeaning — a filter asks for the very text it was made from

A filter is read in two levels: what stands between its quotes is a string literal, and what the literal holds is a
pattern.  A text put into a filter is escaped on both levels, so it can neither end the literal nor stand for anything but
itself, and the filter admits the texts in which it occurs (`containing_exact`).  The service in memory, which takes the
escapes off instead of matching, admits the same rows (`mem_admitted`).
-/
namespace NoteAgent
namespace Vector
namespace Filter

/-! ## Reading a filter -/

/-- The places of the quotes that no backslash escapes, where the text begins at place `n`. -/
def openQuotes (n : Nat) : List Char → List Nat
  | '\\' :: _ :: cs => openQuotes (n + 2) cs
  | c :: cs => if c == '"' then n :: openQuotes (n + 1) cs else openQuotes (n + 1) cs
  | [] => []

/-- The text that a string literal holds.  A backslash in front of a line break stays. -/
def unquote : List Char → List Char
  | '\\' :: c :: cs => if c == '\n' then '\\' :: c :: unquote cs else c :: unquote cs
  | c :: cs => c :: unquote cs
  | [] => []

/-- A part of a pattern. -/
inductive Part
  /-- This character. -/
  | char (c : Char)
  /-- Any one character. -/
  | one
  /-- Any text. -/
  | any
  deriving DecidableEq, Repr

/-- The parts of a pattern; an escaped character stands for itself. -/
def parts : List Char → List Part
  | '\\' :: c :: cs => .char c :: parts cs
  | c :: cs => (if c == '%' then .any else if c == '_' then .one else .char c) :: parts cs
  | [] => []

/-- The text is what the parts stand for, one after the other. -/
def Fits : List Part → List Char → Prop
  | [], text => text = []
  | .char c :: ps, text => ∃ rest, text = c :: rest ∧ Fits ps rest
  | .one :: ps, text => ∃ c rest, text = c :: rest ∧ Fits ps rest
  | .any :: ps, text => ∃ first rest, text = first ++ rest ∧ Fits ps rest

/-- **A filter on a field admits a text**: the filter is the field, the operator and a string literal, and the text fits the
pattern that the literal holds. -/
def Admits (field filter text : String) : Prop :=
  ∃ quoted : List Char, filter.toList = (field ++ " like \"").toList ++ quoted ++ ['"'] ∧
    Fits (parts (unquote quoted)) text.toList

/-! ## Taking off one level of escapes -/

/-- How a level escapes a character: a backslash is put in front, or it stays as it is, which a backslash does not. -/
def Escapes (escaped : Char → List Char) : Prop := ∀ c, escaped c = ['\\', c] ∨ escaped c = [c] ∧ c ≠ '\\'

theorem escapes_of (special : Char → Bool) (h : special '\\' = true) :
    Escapes fun c => if special c then ['\\', c] else [c] := fun c => by
  by_cases hc : special c = true
  · exact .inl (if_pos hc)
  · exact .inr ⟨if_neg hc, fun heq => hc (heq ▸ h)⟩

theorem escapes_patternChar : Escapes patternChar := escapes_of (fun c => c == '\\' || c == '%' || c == '_') rfl

theorem escapes_literalChar : Escapes literalChar := escapes_of (fun c => c == '\\' || c == '"') rfl

theorem unescape_cons {c : Char} (h : c ≠ '\\') (cs : List Char) : unescape (c :: cs) = c :: unescape cs := by
  rw [unescape]
  simp [h]

theorem unescape_flatMap {escaped : Char → List Char} (he : Escapes escaped) (cs rest : List Char) :
    unescape (cs.flatMap escaped ++ rest) = cs ++ unescape rest := by
  induction cs with
  | nil => rfl
  | cons c cs ih =>
    rw [List.flatMap_cons, List.append_assoc, List.cons_append, ← ih]
    rcases he c with h | ⟨h, hc⟩
    · rw [h]
      rfl
    · rw [h, List.singleton_append, unescape_cons hc]

theorem unescape_escape (cs : List Char) : unescape (unescape (escape cs)) = cs := by
  have hliteral := unescape_flatMap escapes_literalChar (cs.flatMap patternChar) []
  have hpattern := unescape_flatMap escapes_patternChar cs []
  simp only [List.append_nil, unescape] at hliteral hpattern
  rw [escape, hliteral, hpattern]

/-! ## The literal -/

theorem unquote_cons {c : Char} (h : c ≠ '\\') (cs : List Char) : unquote (c :: cs) = c :: unquote cs := by
  rw [unquote]
  simp [h]

theorem openQuotes_cons {c : Char} (h : c ≠ '\\') (n : Nat) (cs : List Char) :
    openQuotes n (c :: cs) = if c == '"' then n :: openQuotes (n + 1) cs else openQuotes (n + 1) cs := by
  rw [openQuotes]
  simp [h]

/-- A character in a literal is escaped, if it is a backslash or a quote, or stands as it is. -/
theorem literalChar_cases (c : Char) :
    (c = '\\' ∨ c = '"') ∧ literalChar c = ['\\', c] ∨ c ≠ '\\' ∧ c ≠ '"' ∧ literalChar c = [c] := by
  by_cases h : c = '\\' ∨ c = '"'
  · exact .inl ⟨h, by rw [literalChar, if_pos (by simpa using h)]⟩
  · obtain ⟨hslash, hquote⟩ := not_or.1 h
    exact .inr ⟨hslash, hquote, by rw [literalChar, if_neg (by simpa using h)]⟩

/-- **A literal holds the text that was escaped for it.** -/
theorem unquote_flatMap_literalChar (cs rest : List Char) :
    unquote (cs.flatMap literalChar ++ rest) = cs ++ unquote rest := by
  induction cs with
  | nil => rfl
  | cons c cs ih =>
    rw [List.flatMap_cons, List.append_assoc, List.cons_append, ← ih]
    rcases literalChar_cases c with ⟨rfl | rfl, h⟩ | ⟨hslash, -, h⟩
    · rw [h]
      rfl
    · rw [h]
      rfl
    · rw [h, List.singleton_append, unquote_cons hslash]

/-- **No quote of an escaped text ends the literal.** -/
theorem openQuotes_flatMap_literalChar (n : Nat) (cs rest : List Char) :
    openQuotes n (cs.flatMap literalChar ++ rest) = openQuotes (n + (cs.flatMap literalChar).length) rest := by
  induction cs generalizing n with
  | nil => rfl
  | cons c cs ih =>
    rw [List.flatMap_cons, List.append_assoc, List.length_append]
    rcases literalChar_cases c with ⟨-, h⟩ | ⟨hslash, hquote, h⟩
    · have hstep : openQuotes n (['\\', c] ++ (cs.flatMap literalChar ++ rest)) =
          openQuotes (n + 2) (cs.flatMap literalChar ++ rest) := rfl
      rw [h, hstep, ih, Nat.add_assoc]
      rfl
    · rw [h, List.singleton_append, openQuotes_cons hslash, if_neg (by simpa using hquote), ih, Nat.add_assoc]
      rfl

/-- A blank parts what stands before it from what stands after it, even if a backslash stands right before it. -/
theorem openQuotes_append_blank (n : Nat) (cs rest : List Char) :
    openQuotes n (cs ++ ' ' :: rest) = openQuotes n cs ++ openQuotes (n + cs.length + 1) rest := by
  fun_induction openQuotes n cs with
  | case1 n c cs ih =>
    rw [List.cons_append, List.cons_append, openQuotes, ih, List.length_cons, List.length_cons]
    congr 2
    omega
  | case2 n c cs hnext hquote ih =>
    have hslash : c ≠ '\\' := fun hc => by simp [hc] at hquote
    rw [List.cons_append, openQuotes_cons hslash, if_pos hquote, ih, List.cons_append, List.length_cons]
    congr 3
    omega
  | case3 n c cs hnext hquote ih =>
    by_cases hslash : c = '\\'
    · -- the backslash stands last, so it takes the blank
      obtain rfl : cs = [] := by
        cases cs with
        | nil => rfl
        | cons d cs => exact absurd rfl (hnext d cs hslash)
      rw [hslash]
      rfl
    · rw [List.cons_append, openQuotes_cons hslash, if_neg hquote, ih, List.length_cons]
      congr 2
      omega
  | case4 => rfl

/-! ## The pattern -/

theorem patternChar_parts (c : Char) (rest : List Char) : parts (patternChar c ++ rest) = .char c :: parts rest := by
  unfold patternChar
  split
  · rfl
  · rename_i h
    simp only [Bool.or_eq_true, beq_iff_eq, not_or] at h
    rw [List.singleton_append, parts]
    · simp [h]
    · simp [h]

theorem parts_flatMap_patternChar (cs rest : List Char) :
    parts (cs.flatMap patternChar ++ rest) = cs.map .char ++ parts rest := by
  induction cs with
  | nil => rfl
  | cons c cs ih => rw [List.flatMap_cons, List.append_assoc, patternChar_parts, ih, List.map_cons, List.cons_append]

theorem fits_chars (cs : List Char) (ps : List Part) (text : List Char) :
    Fits (cs.map .char ++ ps) text ↔ ∃ rest, text = cs ++ rest ∧ Fits ps rest := by
  induction cs generalizing text with
  | nil => simp
  | cons c cs ih =>
    simp only [List.map_cons, List.cons_append, Fits, ih]
    constructor
    · rintro ⟨_, rfl, rest, rfl, hfits⟩
      exact ⟨rest, rfl, hfits⟩
    · rintro ⟨rest, rfl, hfits⟩
      exact ⟨_, rfl, rest, rfl, hfits⟩

/-- A pattern of characters between two parts for any text fits the texts in which the characters occur. -/
theorem fits_between (cs text : List Char) : Fits (.any :: (cs.map .char ++ [.any])) text ↔ cs <:+: text := by
  simp only [Fits, fits_chars, List.IsInfix]
  constructor
  · rintro ⟨first, _, rfl, rest, rfl, last, _, rfl, rfl⟩
    exact ⟨first, last, by simp⟩
  · rintro ⟨first, last, rfl⟩
    exact ⟨first, cs ++ last, by simp, last, rfl, last, [], by simp, rfl⟩

/-! ## What a filter asks for -/

/-- What stands between the quotes of a filter that asks for a text. -/
def inner (value : String) : List Char := '%' :: escape value.toList ++ ['%']

theorem toList_containing (field value : String) :
    (containing field value).toList = (field ++ " like \"").toList ++ inner value ++ ['"'] := by
  simp [containing, opening, closing, inner]

theorem parts_inner (value : String) :
    parts (unquote (inner value)) = .any :: (value.toList.map .char ++ [.any]) := by
  rw [inner, List.cons_append, unquote_cons (by decide), escape, unquote_flatMap_literalChar, parts]
  · rw [parts_flatMap_patternChar]
    rfl
  · simp

/-- **A filter admits the texts in which the text it was made from occurs.** -/
theorem admits_containing (field value text : String) :
    Admits field (containing field value) text ↔ Text.contains text value = true := by
  rw [Text.contains_iff, ← fits_between, ← parts_inner, Admits, toList_containing]
  constructor
  · rintro ⟨quoted, hquoted, hfits⟩
    have : inner value = quoted := by simpa using hquoted
    rwa [this]
  · exact fun hfits => ⟨_, rfl, hfits⟩

theorem openQuotes_containing (field value : String) :
    openQuotes 0 (containing field value).toList =
      openQuotes 0 field.toList ++ [field.length + 6, (containing field value).length - 1] := by
  have hparts : (containing field value).toList = field.toList ++ ' ' :: (['l', 'i', 'k', 'e', ' ', '"', '%'] ++
      (escape value.toList ++ ['%', '"'])) := by simp [toList_containing, inner]
  have hopening (n : Nat) (cs : List Char) :
      openQuotes n (['l', 'i', 'k', 'e', ' ', '"', '%'] ++ cs) = (n + 5) :: openQuotes (n + 7) cs := by
    simp [openQuotes]
  have hclosing (n : Nat) : openQuotes n ['%', '"'] = [n + 1] := by simp [openQuotes]
  have hlength : (containing field value).length - 1 = field.length + 1 + 7 + (escape value.toList).length + 1 := by
    rw [← String.length_toList, hparts]
    simp only [List.length_append, List.length_cons, List.length_nil, String.length_toList]
    omega
  rw [hlength, hparts, openQuotes_append_blank, hopening, escape, openQuotes_flatMap_literalChar, hclosing, Nat.zero_add,
    String.length_toList, Nat.add_assoc]

/-- **A filter is an exact test for a text.**  Of the quotes in it that are not escaped, those beyond the name of the field
are the two that the literal stands between; what stands between the outer percent signs is the text under two levels of
escapes; and the filter admits a text if and only if the one asked for occurs in it. -/
theorem containing_exact (field value : String) :
    openQuotes 0 (containing field value).toList =
      openQuotes 0 field.toList ++ [field.length + 6, (containing field value).length - 1] ∧
    (∃ inside, (containing field value).toList = (field ++ " like \"%").toList ++ inside ++ ['%', '"'] ∧
      unescape (unescape inside) = value.toList) ∧
    ∀ text, Admits field (containing field value) text ↔ Text.contains text value = true :=
  ⟨openQuotes_containing field value, ⟨escape value.toList, by simp [toList_containing, inner], unescape_escape _⟩,
    admits_containing field value⟩

/-! ## The service in memory -/

/-- The service in memory asks for the text that the filter was made from. -/
theorem asked_containing (field value : String) : asked field (containing field value) = value.toList := by
  have hinner : (containing field value).toList.drop (opening field).length = escape value.toList ++ ['%', '"'] := by
    rw [containing, String.toList_append, String.toList_append, List.append_assoc, ← String.length_toList, List.drop_left,
      String.toList_ofList]
    rfl
  have hclosing : closing.length = 2 := rfl
  rw [asked, hinner, hclosing, List.length_append, List.take_left' (by simp), unescape_escape]

theorem isEmpty_containing (field value : String) : (containing field value).isEmpty = false := by
  rw [Bool.eq_false_iff, ne_eq, String.isEmpty_iff, ← String.toList_inj, toList_containing]
  simp

theorem admitted_containing (value : String) (rs : List Row) :
    admitted (containing "tags" value) rs = rs.filter fun r => Text.contains r.tags value := by
  rw [admitted, isEmpty_containing, asked_containing]
  rfl

/-- **The service in memory admits the rows whose tags the filter admits.** -/
theorem mem_admitted (value : String) (rs : List Row) (r : Row) :
    r ∈ admitted (containing "tags" value) rs ↔ r ∈ rs ∧ Admits "tags" (containing "tags" value) r.tags := by
  rw [admitted_containing, List.mem_filter, admits_containing]

end Filter
end Vector
end NoteAgent
