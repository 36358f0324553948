/-!
# Utf8 — text out of bytes

A character of more than one byte begins with a byte that says how many follow and in which range the first of these
lies.  Bytes that do not fit are read as replacement characters: one for each longest run that begins a character, and
one for each byte that begins none.
-/
namespace NoteAgent
namespace Text

/-- The character that stands for bytes that are none. -/
def replacement : Char := Char.ofNat 0xFFFD

def bytesOf (c : Char) : List UInt8 := (String.singleton c).toUTF8.toList

/-- The ranges in which the bytes after a first byte above 0x7F must lie; a byte that begins no character has none. -/
def followers (first : Nat) : List (Nat × Nat) :=
  let any := (0x80, 0xBF)
  if 0xC2 ≤ first && first ≤ 0xDF then [any]
  else if first == 0xE0 then [(0xA0, 0xBF), any]
  else if first == 0xED then [(0x80, 0x9F), any]
  else if 0xE1 ≤ first && first ≤ 0xEF then [any, any]
  else if first == 0xF0 then [(0x90, 0xBF), any, any]
  else if 0xF1 ≤ first && first ≤ 0xF3 then [any, any, any]
  else if first == 0xF4 then [(0x80, 0x8F), any, any]
  else []

/-- The bytes in front that lie in the ranges, one in each, until one does not. -/
def fitting : List (Nat × Nat) → List UInt8 → List UInt8
  | (low, high) :: rs, b :: bs => if low ≤ b.toNat && b.toNat ≤ high then b :: fitting rs bs else []
  | _, _ => []

/-- The character that a first byte makes with those that follow it. -/
def charOf (first : Nat) (rest : List UInt8) : Char :=
  let lead := first % Nat.pow 2 (6 - rest.length)
  Char.ofNat (rest.foldl (fun n b => n * 64 + b.toNat % 64) lead)

def decodeUtf8 : List UInt8 → List Char
  | [] => []
  | b :: bs =>
    if b.toNat < 0x80 then Char.ofNat b.toNat :: decodeUtf8 bs
    else
      let ranges := followers b.toNat
      let rest := fitting ranges bs
      let c := if !ranges.isEmpty && rest.length == ranges.length then charOf b.toNat rest else replacement
      c :: decodeUtf8 (bs.drop rest.length)
termination_by bs => bs.length
decreasing_by
  all_goals simp only [List.length_cons, List.length_drop]; omega

end Text
end NoteAgent
