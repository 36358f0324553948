/-!
# Blank — blank characters, trimming and words

The blank characters are the ones Unicode gives the blank, tab, line or separator property, with the four information
separators U+001C to U+001F.  The zero-width space and the byte-order mark are not blank.  A word is a longest run of
characters none of which is blank.
-/
namespace NoteAgent
namespace Text

def isBlank (c : Char) : Bool :=
  let n := c.toNat
  (9 ≤ n && n ≤ 13) || (28 ≤ n && n ≤ 32) || n == 0x85 || n == 0xA0 || n == 0x1680 ||
    (0x2000 ≤ n && n ≤ 0x200A) || n == 0x2028 || n == 0x2029 || n == 0x202F || n == 0x205F || n == 0x3000

/-- The blanks a numeral may stand between: tab, the four line movements, and the space. -/
def isPlainBlank (c : Char) : Bool := (9 ≤ c.toNat && c.toNat ≤ 13) || c == ' '

theorem isBlank_of_isPlainBlank {c : Char} (h : isPlainBlank c = true) : isBlank c = true := by
  simp only [isPlainBlank, Bool.or_eq_true, Bool.and_eq_true, decide_eq_true_eq, beq_iff_eq] at h
  rcases h with h | rfl
  · simp [isBlank, h.1, h.2]
  · decide

/-! ## Trimming -/

/-- A list without the items of a class at either end. -/
def trimBy {α : Type} (p : α → Bool) (xs : List α) : List α := ((xs.dropWhile p).reverse.dropWhile p).reverse

/-- The text without the blanks at either end. -/
def strip (s : String) : String := String.ofList (trimBy isBlank s.toList)

/-! ## Words -/

/-- The words of a text that follows the open word `word`, which is held last character first. -/
def wordsFrom (word : List Char) : List Char → List (List Char)
  | [] => if word.isEmpty then [] else [word.reverse]
  | c :: cs =>
    if isBlank c then
      if word.isEmpty then wordsFrom [] cs else word.reverse :: wordsFrom [] cs
    else wordsFrom (c :: word) cs

def words (s : String) : List String := (wordsFrom [] s.toList).map String.ofList

end Text
end NoteAgent
