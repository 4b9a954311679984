/-!
# Decimal numerals

Writing natural numbers and integers in base ten, and reading them back.

* `intChars`, `ofInt`: an integer, with a minus sign when it is negative.
* `signed`: an integer that always shows its sign.
* `padded`: a natural number with zeros on the left up to a width.
* `readNat?`: a non-empty run of ASCII digits.
-/

namespace Annals.Text

/-! ## Writing -/

/-- The digits of an integer, with `-` in front of a negative one. -/
def intChars : Int → List Char
  | .ofNat n => Nat.toDigits 10 n
  | .negSucc n => '-' :: Nat.toDigits 10 (n + 1)

/-- A natural number in base ten. -/
def ofNat (n : Nat) : String := String.ofList (Nat.toDigits 10 n)

/-- An integer in base ten. -/
def ofInt (n : Int) : String := String.ofList (intChars n)

/-- An integer that shows its sign even when it is not negative. -/
def signed (n : Int) : String :=
  if 0 ≤ n then String.ofList ('+' :: intChars n) else ofInt n

/-- A natural number written with at least `width` digits. -/
def padded (width n : Nat) : String :=
  let digits := Nat.toDigits 10 n
  String.ofList (List.replicate (width - digits.length) '0' ++ digits)

/-! ## Reading -/

/-- The ten ASCII digits; no other digit is part of a numeral. -/
def isDigit (c : Char) : Bool := '0' ≤ c && c ≤ '9'

/-- Reads a non-empty run of digits; leading zeros are allowed. -/
def readNat? (cs : List Char) : Option Nat :=
  if !cs.isEmpty && cs.all isDigit then some (Nat.ofDigitChars 10 cs 0) else none

/-- A natural number is written in digits. -/
theorem all_isDigit_toDigits (n : Nat) : (Nat.toDigits 10 n).all isDigit = true := by
  rw [List.all_eq_true]
  intro c hc
  have h := Nat.isDigit_of_mem_toDigits (by decide) (by decide) hc
  simpa [Char.isDigit, isDigit, Char.le_def] using h

/-- A written natural number reads back. -/
theorem readNat?_toDigits (n : Nat) : readNat? (Nat.toDigits 10 n) = some n := by
  have hne : (Nat.toDigits 10 n).isEmpty = false := by
    simp [List.isEmpty_eq_false_iff, Nat.toDigits_ne_nil]
  simp [readNat?, hne, all_isDigit_toDigits n, Nat.ofDigitChars_ten_toDigits]

end Annals.Text
