/-!
# Digit — the decimal digits of every script, and hexadecimal ones

Each script that has decimal digits has ten of them in a row, zero first; a digit is known by the zero of its row.
Hexadecimal digits are written in lower case and read in either.
-/
namespace NoteAgent
namespace Text

/-! ## Decimal digits -/

/-- The zeros of the rows of decimal digits, in increasing order. -/
def zeros : List Nat := [
  0x30, 0x660, 0x6F0, 0x7C0, 0x966, 0x9E6, 0xA66, 0xAE6, 0xB66, 0xBE6, 0xC66, 0xCE6, 0xD66, 0xDE6, 0xE50, 0xED0,
  0xF20, 0x1040, 0x1090, 0x17E0, 0x1810, 0x1946, 0x19D0, 0x1A80, 0x1A90, 0x1B50, 0x1BB0, 0x1C40, 0x1C50, 0xA620,
  0xA8D0, 0xA900, 0xA9D0, 0xA9F0, 0xAA50, 0xABF0, 0xFF10, 0x104A0, 0x10D30, 0x11066, 0x110F0, 0x11136, 0x111D0,
  0x112F0, 0x11450, 0x114D0, 0x11650, 0x116C0, 0x11730, 0x118E0, 0x11950, 0x11C50, 0x11D50, 0x11DA0, 0x16A60, 0x16AC0,
  0x16B50, 0x1D7CE, 0x1D7D8, 0x1D7E2, 0x1D7EC, 0x1D7F6, 0x1E140, 0x1E2F0, 0x1E950, 0x1FBF0]

/-- The value of a decimal digit of any script. -/
def digit? (c : Char) : Option Nat :=
  (zeros.find? fun z => z ≤ c.toNat && c.toNat < z + 10).map fun z => c.toNat - z

theorem digit?_lt {c : Char} {d : Nat} (h : digit? c = some d) : d < 10 := by
  obtain ⟨z, hz, rfl⟩ := Option.map_eq_some_iff.1 h
  have := List.find?_some hz
  simp only [Bool.and_eq_true, decide_eq_true_eq] at this
  omega

/-- The digit of a value below ten, as plain digits write it. -/
def digitChar (d : Nat) : Char := Char.ofNat (0x30 + d)

/-- A character in the plain form numerals are read in: a digit of any script as the plain digit, a blank as the
space, a plain character as itself, and any other as a question mark, which no numeral holds. -/
def plainOf (isBlank : Char → Bool) (c : Char) : Char :=
  if c.toNat < 127 then c
  else if isBlank c then ' '
  else ((digit? c).map digitChar).getD '?'

/-! ## Hexadecimal digits -/

/-- The hexadecimal digit of a value below sixteen, in lower case. -/
def hexDigit (d : Nat) : Char := if d < 10 then Char.ofNat (0x30 + d) else Char.ofNat (0x57 + d)

/-- `n` in exactly `width` hexadecimal digits, the high ones dropped. -/
def hex : Nat → Nat → List Char
  | 0, _ => []
  | width + 1, n => hexDigit (n / Nat.pow 16 width % 16) :: hex width n

def hexValue? (c : Char) : Option Nat :=
  let n := c.toNat
  if 0x30 ≤ n && n ≤ 0x39 then some (n - 0x30)
  else if 0x61 ≤ n && n ≤ 0x66 then some (n - 0x57)
  else if 0x41 ≤ n && n ≤ 0x46 then some (n - 0x37)
  else none

theorem hexValue?_hexDigit {d : Nat} (h : d < 16) : hexValue? (hexDigit d) = some d := by
  have all : ∀ e ∈ List.range 16, hexValue? (hexDigit e) = some e := by decide
  exact all d (List.mem_range.mpr h)

end Text
end NoteAgent
