/-!
# Cut — the beginning of a text, its preview, and finding one text in another

Lengths and cuts count code points.
-/
namespace NoteAgent
namespace Text

def cut (n : Nat) (s : String) : String := String.ofList (s.toList.take n)

/-- The characters before position `limit`, a negative limit counting from the end. -/
def before (limit : Int) (s : String) : String :=
  if limit < 0 then cut (s.length - limit.natAbs) s else cut limit.toNat s

/-- The text when it has at most `limit` characters, otherwise its beginning and three dots. -/
def preview (s : String) (limit : Int) : String := if limit < s.length then before limit s ++ "..." else s

/-- The text without a line break at its end. -/
def dropLineBreak (cs : List Char) : List Char := if cs.getLast? == some '\n' then cs.dropLast else cs

/-- Whether `needle` stands somewhere in the text. -/
def occursIn (needle : List Char) : List Char → Bool
  | [] => needle.isEmpty
  | c :: cs => needle.isPrefixOf (c :: cs) || occursIn needle cs

/-- Whether `needle` stands somewhere in `s`. -/
def contains (s needle : String) : Bool := occursIn needle.toList s.toList

theorem occursIn_iff {needle cs : List Char} : occursIn needle cs = true ↔ needle <:+: cs := by
  induction cs with
  | nil => cases needle <;> simp [occursIn]
  | cons c cs ih => rw [occursIn, Bool.or_eq_true, List.isPrefixOf_iff_prefix, ih, List.infix_cons_iff]

theorem contains_iff {s needle : String} : contains s needle = true ↔ needle.toList <:+: s.toList := occursIn_iff

def joinByBlankLine (a b : String) : String := a ++ "\n\n" ++ b

theorem contains_join_right (a b : String) : contains (joinByBlankLine a b) b = true := by
  rw [contains_iff, joinByBlankLine, String.toList_append]
  exact (List.suffix_append _ _).isInfix

theorem contains_join_left {a text : String} (h : contains a text = true) (b : String) :
    contains (joinByBlankLine a b) text = true := by
  rw [contains_iff] at h ⊢
  rw [joinByBlankLine, String.toList_append, String.toList_append, List.append_assoc]
  exact h.trans (List.prefix_append _ _).isInfix

end Text
end NoteAgent
