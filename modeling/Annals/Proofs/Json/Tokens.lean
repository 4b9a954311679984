import Annals.Json.Parser
import Annals.Json.Printer
/-!
# Strings and integers read back

What is written for a string or an integer is read again as that string or integer, whatever the
text goes on with: a string ends at its quote, and an integer ends because the text behind it is
`Closed`.

* `string?_strChars`: a string.
* `number?_intChars`: an integer of 64 bits.
* `newline_not_mem_strChars`, `newline_not_mem_intChars`: neither has a line break.
-/

namespace Annals.Json

/-- Blanks between tokens. -/
def Blank (cs : List Char) : Prop := ∀ c ∈ cs, isBlank c = true

/-- Blanks are passed over. -/
theorem skipBlanks_append {blanks : List Char} (h : Blank blanks) (cs : List Char) :
    skipBlanks (blanks ++ cs) = skipBlanks cs := by
  induction blanks with
  | nil => rfl
  | cons c blanks ih =>
    obtain ⟨hc, hblanks⟩ := List.forall_mem_cons.1 h
    rw [List.cons_append, skipBlanks, if_pos hc, ih hblanks]

/-- What may follow a value: anything that is no part of a numeral. -/
def Closed (rest : List Char) : Prop :=
  ∀ c ∈ rest.head?, Text.isDigit c = false ∧ c ≠ '.' ∧ c ≠ 'e' ∧ c ≠ 'E'

theorem closed_nil : Closed [] := nofun

theorem closed_cons {c : Char} (h : Text.isDigit c = false ∧ c ≠ '.' ∧ c ≠ 'e' ∧ c ≠ 'E')
    (cs : List Char) : Closed (c :: cs) := by
  intro k hk
  cases hk
  exact h

theorem closed_comma (cs : List Char) : Closed (',' :: cs) := closed_cons (by decide) cs

theorem closed_bracket (cs : List Char) : Closed (']' :: cs) := closed_cons (by decide) cs

theorem closed_brace (cs : List Char) : Closed ('}' :: cs) := closed_cons (by decide) cs

/-- Blanks close a value, and so does what they stand in front of. -/
theorem Closed.blanks {blanks rest : List Char} (h : Closed rest) (hblanks : Blank blanks) :
    Closed (blanks ++ rest) := by
  cases blanks with
  | nil => exact h
  | cons c blanks =>
    have hc := hblanks c List.mem_cons_self
    simp only [isBlank, Bool.or_eq_true, decide_eq_true_eq] at hc
    rcases hc with ((rfl | rfl) | rfl) | rfl <;> exact closed_cons (by decide) _

/-- A word is passed as a whole. -/
theorem afterWord?_append (word rest : List Char) : afterWord? word (word ++ rest) = some rest := by
  induction word with
  | nil => rfl
  | cons c word ih => simp [afterWord?, ih]

/-! ## Strings -/

theorem hexValue?_hexDigit (n : Nat) : hexValue? (hexDigit n) = some (n % 16) := by
  have hdigits : ∀ d < 16, hexValue? ((Nat.toDigits 16 d).headD '0') = some d := by decide
  exact hdigits (n % 16) (Nat.mod_lt n (by decide))

theorem hexDigit_ne_newline (n : Nat) : hexDigit n ≠ '\n' := by
  have hdigits : ∀ d < 16, (Nat.toDigits 16 d).headD '0' ≠ '\n' := by decide
  exact hdigits (n % 16) (Nat.mod_lt n (by decide))

/-- The escape of a control character. -/
theorem unicodeEscape?_control {c : Char} (hc : c.toNat < 32) (cs : List Char) :
    unicodeEscape? ('0' :: '0' :: hexDigit (c.toNat / 16) :: hexDigit c.toNat :: cs) =
      some (c, cs) := by
  have hzero : hexValue? '0' = some 0 := rfl
  have hunit : hexUnit? ('0' :: '0' :: hexDigit (c.toNat / 16) :: hexDigit c.toNat :: cs) =
      some (c.toNat, cs) := by
    simp only [hexUnit?, hzero, hexValue?_hexDigit, Option.bind_eq_bind, Option.bind_some,
      Option.pure_def]
    congr 2
    omega
  -- A control character is far below the surrogates.
  have hhigh : ¬(0xD800 ≤ c.toNat ∧ c.toNat ≤ 0xDBFF) := by omega
  have hlow : ¬(0xDC00 ≤ c.toNat ∧ c.toNat ≤ 0xDFFF) := by omega
  simp only [unicodeEscape?, hunit, Option.bind_eq_bind, Option.bind_some, if_neg hhigh,
    if_neg hlow, Char.ofNat_toNat, Option.pure_def]

/-- A character is written as an escape of one letter, by its code, or as it stands. -/
theorem escape_cases (c : Char) :
    (∃ k, k ≠ 'u' ∧ shortEscape? k = some c ∧ escape c = ['\\', k]) ∨
      (c.toNat < 32 ∧
        escape c = ['\\', 'u', '0', '0', hexDigit (c.toNat / 16), hexDigit c.toNat]) ∨
      (c ≠ '"' ∧ c ≠ '\\' ∧ ¬c.toNat < 32 ∧ escape c = [c]) := by
  unfold escape
  split
  case isTrue h => exact .inl ⟨'"', by decide, by rw [h]; rfl, rfl⟩
  split
  case isTrue h => exact .inl ⟨'\\', by decide, by rw [h]; rfl, rfl⟩
  split
  case isTrue h => exact .inl ⟨'b', by decide, h ▸ rfl, rfl⟩
  split
  case isTrue h => exact .inl ⟨'t', by decide, h ▸ rfl, rfl⟩
  split
  case isTrue h => exact .inl ⟨'n', by decide, h ▸ rfl, rfl⟩
  split
  case isTrue h => exact .inl ⟨'f', by decide, h ▸ rfl, rfl⟩
  split
  case isTrue h => exact .inl ⟨'r', by decide, h ▸ rfl, rfl⟩
  split
  case isTrue h => exact .inr (.inl ⟨h, rfl⟩)
  case isFalse hquote hslash _ _ _ _ _ hc => exact .inr (.inr ⟨hquote, hslash, hc, rfl⟩)

variable {fuel : Nat} {cs s rest : List Char}

/-- A written character is read in one step. -/
theorem stringRest_escape (h : stringRest fuel cs = some (s, rest)) (c : Char) :
    stringRest (fuel + 1) (escape c ++ cs) = some (c :: s, rest) := by
  rcases escape_cases c with ⟨k, hk, hshort, hescape⟩ | ⟨hc, hescape⟩ |
    ⟨hquote, hslash, hc, hescape⟩
  · simp [hescape, stringRest, hshort, h]
  · simp [hescape, stringRest, unicodeEscape?_control hc, h]
  · simp [hescape, stringRest, hslash, hc, h]

theorem one_le_length_escape (c : Char) : 1 ≤ (escape c).length := by
  rcases escape_cases c with ⟨k, -, -, h⟩ | ⟨-, h⟩ | ⟨-, -, -, h⟩ <;> simp [h]

/-- The characters of a string and its closing quote are read as these characters. -/
theorem stringRest_flatMap_escape (s rest : List Char) (h : (s.flatMap escape).length < fuel) :
    stringRest fuel (s.flatMap escape ++ '"' :: rest) = some (s, rest) := by
  induction s generalizing fuel with
  | nil =>
    obtain ⟨fuel, rfl⟩ := Nat.exists_eq_add_one.2 h
    rfl
  | cons c s ih =>
    obtain ⟨fuel, rfl⟩ := Nat.exists_eq_add_one.2 (Nat.zero_lt_of_lt h)
    -- Reading a character takes one unit of fuel, and its escape is at least one character long.
    have hc := one_le_length_escape c
    rw [List.flatMap_cons, List.length_append] at h
    rw [List.flatMap_cons, List.append_assoc]
    exact stringRest_escape (ih (by omega)) c

/-- A written string is read up to its closing quote. -/
theorem string?_strChars (s : String) (rest : List Char) :
    ∃ cs, strChars s ++ rest = '"' :: cs ∧ string? cs = some (s, rest) := by
  refine ⟨s.toList.flatMap escape ++ '"' :: rest, by simp [strChars], ?_⟩
  rw [string?, stringRest_flatMap_escape s.toList rest (by simp only [List.length_append]; omega)]
  simp

theorem newline_not_mem_escape (c : Char) : '\n' ∉ escape c := by
  rcases escape_cases c with ⟨k, -, hshort, h⟩ | ⟨-, h⟩ | ⟨-, -, hc, h⟩
  · rw [h]
    rintro (_ | ⟨_, (_ | ⟨_, ⟨⟩⟩)⟩)
    cases hshort
  · simp [h, (hexDigit_ne_newline _).symm]
  · rw [h]
    rintro (_ | ⟨_, ⟨⟩⟩)
    exact hc (by decide)

theorem newline_not_mem_strChars (s : String) : '\n' ∉ strChars s := by
  simp [strChars, newline_not_mem_escape]

/-! ## Integers -/

theorem ne_of_isDigit {c k : Char} (hc : Text.isDigit c = true) (hk : Text.isDigit k = false) :
    c ≠ k := by
  rintro rfl
  exact Bool.eq_false_iff.1 hk hc

theorem head?_toDigits_ne_zero {n : Nat} (h : 0 < n) : (Nat.toDigits 10 n).head? ≠ some '0' := by
  induction n using Nat.strongRecOn with
  | ind n ih =>
    rw [Nat.toDigits_eq_if (by decide)]
    split
    case isTrue hlt =>
      have hdigits : ∀ d < 10, 0 < d → [Nat.digitChar d].head? ≠ some '0' := by decide
      exact hdigits n hlt h
    case isFalse hle =>
      -- The first digit is that of the tenth part, which is not zero either.
      rw [List.head?_append, Option.or_of_isSome (by simp [Nat.toDigits_ne_nil])]
      exact ih (n / 10) (by omega) (by omega)

/-- Digits are read up to a character that is none. -/
theorem digitRun_append {ds rest : List Char} (hds : ds.all Text.isDigit = true)
    (hrest : Closed rest) : digitRun (ds ++ rest) = (ds, rest) := by
  have hall : ∀ c ∈ ds, Text.isDigit c = true := List.all_eq_true.1 hds
  have hhead : rest.takeWhile Text.isDigit = [] ∧ rest.dropWhile Text.isDigit = rest := by
    cases rest with
    | nil => exact ⟨rfl, rfl⟩
    | cons c cs =>
      have hc : Text.isDigit c = false := (hrest c rfl).1
      simp [hc]
  rw [digitRun, List.takeWhile_append_of_pos hall, List.dropWhile_append_of_pos hall, hhead.1,
    hhead.2, List.append_nil]

theorem scanWhole_toDigits (n : Nat) (hrest : Closed rest) :
    scanWhole (Nat.toDigits 10 n ++ rest) = some (Nat.toDigits 10 n, rest) := by
  have hrun := digitRun_append (Text.all_isDigit_toDigits n) hrest
  rw [scanWhole, hrun]
  -- A leading zero is refused unless it is the only digit, which it is for zero alone.
  by_cases hn : n = 0
  · subst hn
    rfl
  · have hhead := head?_toDigits_ne_zero (Nat.pos_of_ne_zero hn)
    have hne : Nat.toDigits 10 n ≠ [] := Nat.toDigits_ne_nil
    generalize Nat.toDigits 10 n = ds at hhead hne
    split <;> simp_all

theorem scanFraction_closed (h : Closed rest) : scanFraction rest = some ([], rest) := by
  cases rest with
  | nil => rfl
  | cons c cs =>
    obtain ⟨-, hpoint, -⟩ := h c rfl
    simp [scanFraction, hpoint]

theorem scanExponent_closed (h : Closed rest) : scanExponent rest = some (none, rest) := by
  cases rest with
  | nil => rfl
  | cons c cs =>
    obtain ⟨-, -, hsmall, hcapital⟩ := h c rfl
    simp [scanExponent, hsmall, hcapital]

/-- A natural number starts with a digit. -/
theorem exists_toDigits_eq_cons (n : Nat) :
    ∃ c cs, Nat.toDigits 10 n = c :: cs ∧ Text.isDigit c = true := by
  obtain ⟨c, cs, hcs⟩ := List.exists_cons_of_ne_nil (Nat.toDigits_ne_nil : Nat.toDigits 10 n ≠ [])
  have hall := List.all_eq_true.1 (Text.all_isDigit_toDigits n)
  exact ⟨c, cs, hcs, hall c (by simp [hcs])⟩

theorem scanNumeral_toDigits (n : Nat) (hrest : Closed rest) :
    scanNumeral (Nat.toDigits 10 n ++ rest) =
      some ({ negative := false, whole := Nat.toDigits 10 n, fraction := [], exponent := none },
        rest) := by
  obtain ⟨c, cs, hcs, hc⟩ := exists_toDigits_eq_cons n
  have hminus : c ≠ '-' := ne_of_isDigit hc rfl
  have hscan := scanWhole_toDigits n hrest
  rw [hcs, List.cons_append] at hscan ⊢
  simp [scanNumeral, hminus, hscan, scanFraction_closed hrest, scanExponent_closed hrest]

theorem scanNumeral_minus_toDigits (n : Nat) (hrest : Closed rest) :
    scanNumeral ('-' :: (Nat.toDigits 10 n ++ rest)) =
      some ({ negative := true, whole := Nat.toDigits 10 n, fraction := [], exponent := none },
        rest) := by
  simp [scanNumeral, scanWhole_toDigits n hrest, scanFraction_closed hrest,
    scanExponent_closed hrest]

/-- A written integer of 64 bits, with or without sign, is read up to the end of the value. -/
theorem number?_intChars {n : Int} (hlow : Int64.minValue.toInt ≤ n) (hhigh : n < UInt64.size)
    (hrest : Closed rest) : number? (Text.intChars n ++ rest) = some (.int n, rest) := by
  cases n with
  | ofNat n =>
    have hn : n < UInt64.size := Int.ofNat_lt.1 hhigh
    simp [Text.intChars, number?, scanNumeral_toDigits n hrest, Numeral.value?,
      Nat.ofDigitChars_ten_toDigits, hn]
  | negSucc n =>
    -- The least integer has digits that are one above those of the greatest one.
    have hn : n + 1 ≤ Nat.pow 2 63 := by
      change -9223372036854775808 ≤ Int.negSucc n at hlow
      change n + 1 ≤ 9223372036854775808
      omega
    simp [Text.intChars, number?, scanNumeral_minus_toDigits (n + 1) hrest, Numeral.value?,
      Nat.ofDigitChars_ten_toDigits, hn]
    omega

theorem newline_not_mem_intChars (n : Int) : '\n' ∉ Text.intChars n := by
  have hdigits : ∀ n, '\n' ∉ Nat.toDigits 10 n := fun n hmem =>
    absurd (List.all_eq_true.1 (Text.all_isDigit_toDigits n) _ hmem) (by decide)
  cases n with
  | ofNat n => exact hdigits n
  | negSucc n =>
    rintro (_ | ⟨_, hmem⟩)
    exact hdigits _ hmem

end Annals.Json
