import Annals.Dice
import Mathlib.Algebra.Group.Nat.Defs
import Mathlib.Algebra.Group.Int.Defs
/-!
# Operations on words

Most sums of years and ages are plain operations on machine words: a result that does not fit wraps
around. An operation is kept as data here, so that one can ask of a run which operations it performs
and whether each of them has the result that integers would give.

* `Operation`: an operation with its operands; `Operation.exact`: its result on integers.
* `Operation.InRange`: the exact result is a word.
* `Operation.toInt_sub`, `toInt_add`, `toInt_abs`: then the word is the exact result.
* `Dice.between_mem`, `Dice.between_mem_max`: a drawn word lies in its range.
-/

namespace Annals

/-- An operation on words whose result wraps around when it does not fit. Years, ages and health are
signed words of 32 bits, counts are unsigned ones. -/
inductive Operation where
  | add (a b : Int32)
  | sub (a b : Int32)
  | abs (a : Int32)
  | succ (n : UInt32)
  | pred (n : UInt32)
deriving DecidableEq, Repr

namespace Operation

/-- Whether the operands are years, ages or health. -/
def isSigned : Operation → Bool
  | add _ _ | sub _ _ | abs _ => true
  | succ _ | pred _ => false

/-- The result without wrapping around. -/
def exact : Operation → Int
  | add a b => a.toInt + b.toInt
  | sub a b => a.toInt - b.toInt
  | abs a => a.toInt.natAbs
  | succ n => n.toNat + 1
  | pred n => n.toNat - 1

/-- The least word of the kind that the operation returns. -/
def least (o : Operation) : Int := if o.isSigned then Int32.minValue.toInt else 0

/-- The greatest word of the kind that the operation returns. -/
def greatest (o : Operation) : Int := if o.isSigned then Int32.maxValue.toInt else UInt32.size - 1

/-- The exact result is a word. -/
def InRange (o : Operation) : Prop := o.least ≤ o.exact ∧ o.exact ≤ o.greatest

instance (o : Operation) : Decidable o.InRange :=
  inferInstanceAs (Decidable (o.least ≤ o.exact ∧ o.exact ≤ o.greatest))

section Words

variable {a b : Int32} {n : UInt32}

theorem inRange_add :
    (add a b).InRange ↔ -2 ^ 31 ≤ a.toInt + b.toInt ∧ a.toInt + b.toInt < 2 ^ 31 := by
  show Int32.minValue.toInt ≤ _ ∧ _ ≤ Int32.maxValue.toInt ↔ _
  rw [Int32.toInt_minValue, Int32.toInt_maxValue]
  show _ ≤ a.toInt + b.toInt ∧ a.toInt + b.toInt ≤ _ ↔ _
  omega

theorem inRange_sub :
    (sub a b).InRange ↔ -2 ^ 31 ≤ a.toInt - b.toInt ∧ a.toInt - b.toInt < 2 ^ 31 := by
  show Int32.minValue.toInt ≤ _ ∧ _ ≤ Int32.maxValue.toInt ↔ _
  rw [Int32.toInt_minValue, Int32.toInt_maxValue]
  show _ ≤ a.toInt - b.toInt ∧ a.toInt - b.toInt ≤ _ ↔ _
  omega

theorem inRange_abs : (abs a).InRange ↔ a.toInt ≠ -2 ^ 31 := by
  have hlow := Int32.le_toInt a
  have hhigh := Int32.toInt_lt a
  show Int32.minValue.toInt ≤ _ ∧ _ ≤ Int32.maxValue.toInt ↔ _
  rw [Int32.toInt_minValue, Int32.toInt_maxValue]
  show _ ≤ (a.toInt.natAbs : Int) ∧ (a.toInt.natAbs : Int) ≤ _ ↔ _
  omega

theorem inRange_succ : (succ n).InRange ↔ n.toNat + 1 < 2 ^ 32 := by
  show 0 ≤ (n.toNat : Int) + 1 ∧ (n.toNat : Int) + 1 ≤ (UInt32.size : Int) - 1 ↔ _
  rw [show UInt32.size = 2 ^ 32 from rfl]
  omega

theorem inRange_pred : (pred n).InRange ↔ 0 < n.toNat := by
  have hhigh := UInt32.toNat_lt n
  show 0 ≤ (n.toNat : Int) - 1 ∧ (n.toNat : Int) - 1 ≤ (UInt32.size : Int) - 1 ↔ _
  rw [show UInt32.size = 2 ^ 32 from rfl]
  omega

/-- A sum in range is the sum of integers. -/
theorem toInt_add (h : (add a b).InRange) : (a + b).toInt = a.toInt + b.toInt := by
  obtain ⟨hlow, hhigh⟩ := inRange_add.1 h
  rw [Int32.toInt_add]
  exact Int.bmod_eq_of_le (by omega) (by omega)

/-- A difference in range is the difference of integers. -/
theorem toInt_sub (h : (sub a b).InRange) : (a - b).toInt = a.toInt - b.toInt := by
  obtain ⟨hlow, hhigh⟩ := inRange_sub.1 h
  rw [Int32.toInt_sub]
  exact Int.bmod_eq_of_le (by omega) (by omega)

/-- A sum of which one part is not negative is at most the sum of integers. -/
theorem toInt_add_le (h : 0 ≤ b.toInt) : (a + b).toInt ≤ a.toInt + b.toInt := by
  have hlow := Int32.le_toInt a
  by_cases hrange : (add a b).InRange
  · exact Int.le_of_eq (toInt_add hrange)
  · have hword := Int32.toInt_lt (a + b)
    rw [inRange_add] at hrange
    omega

/-- The absolute value of a word in range is that of the integer. -/
theorem toInt_abs (h : (abs a).InRange) : a.abs.toInt = a.toInt.natAbs := by
  have hmin : a.toBitVec ≠ BitVec.intMin 32 := by
    intro hmin
    refine inRange_abs.1 h ?_
    show a.toBitVec.toInt = _
    rw [hmin]
    rfl
  show a.toBitVec.abs.toInt = a.toBitVec.toInt.natAbs
  rw [BitVec.toInt_abs_eq_natAbs, if_neg hmin]

end Words

end Operation

/-! ## Draws -/

/-- Whatever the dice, a drawn word lies in its range. -/
theorem Dice.between_mem {σ : Type} [Dice σ] {low high : Year} (h : low ≤ high) (dice : σ) :
    low.toInt ≤ (between low high dice).1.toInt ∧
      (between low high dice).1.toInt ≤ high.toInt := by
  have hle : low.toInt ≤ high.toInt := Int32.le_iff_toInt_le.1 h
  have hlow := Int32.le_toInt low
  have hhigh := Int32.toInt_lt high
  unfold between
  split
  case isFalse => exact ⟨Int.le_refl _, hle⟩
  case isTrue =>
    rcases short (high.toInt - low.toInt).toNat dice with ⟨n, dice'⟩
    have hn := n.isLt
    dsimp only
    split
    case isTrue hwhole =>
      -- The range has every word, so there is nothing to show of the one that is drawn.
      simp only [isWhole, Bool.and_eq_true, decide_eq_true_eq] at hwhole
      obtain ⟨rfl, rfl⟩ := hwhole
      generalize 0 + Int32.ofNat n.val = drawn
      have hdrawn := Int32.le_toInt drawn
      have hdrawn' := Int32.toInt_lt drawn
      rw [Int32.toInt_minValue, Int32.toInt_maxValue]
      omega
    case isFalse =>
      have hsum : (low + Int32.ofNat n.val).toInt = low.toInt + n.val := by
        have hsize : Int32.size = 2 ^ 32 := rfl
        rw [Int32.toInt_add, Int32.toInt_ofNat', hsize, Int.add_bmod_bmod]
        exact Int.bmod_eq_of_le (by omega) (by omega)
      rw [hsum]
      omega

/-- The same for ranges that may be empty: then the lower word is drawn. -/
theorem Dice.between_mem_max {σ : Type} [Dice σ] (low high : Year) (dice : σ) :
    low.toInt ≤ (between low high dice).1.toInt ∧
      (between low high dice).1.toInt ≤ max low.toInt high.toInt := by
  by_cases hle : low ≤ high
  · obtain ⟨hlow, hhigh⟩ := between_mem hle dice
    omega
  · have hless : ¬ low < high := fun hlt => hle (Int32.le_of_lt hlt)
    unfold between
    rw [if_neg hless]
    show low.toInt ≤ low.toInt ∧ low.toInt ≤ max low.toInt high.toInt
    omega

end Annals
