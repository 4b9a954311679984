import Annals.Dice
/-!
# Chances compared

Two chances are compared by sign, exponent and mantissa, and a chance that is no number compares
with nothing. Turning a comparison around swaps its result.

* `Dice.not_lt_of_le`: a chance is not below another one that is at most as large.
-/

namespace Annals.Dice

open Float.Model (UnpackedFloat)

/-- Comparing the other way round gives the opposite result. -/
theorem compare_swap (a b : UnpackedFloat) : (b.compare a).map Ordering.swap = a.compare b := by
  -- One case for each pair of kinds; only two finite numbers have more to compare than signs.
  cases a with
  | notANumber => cases b <;> rfl
  | infinity s =>
    cases b with
    | notANumber => cases s <;> rfl
    | infinity t => cases s <;> cases t <;> rfl
    | zero t => cases s <;> rfl
    | finite t n k hn => cases s <;> cases t <;> rfl
  | zero s =>
    cases b with
    | notANumber => rfl
    | infinity t => cases t <;> rfl
    | zero t => rfl
    | finite t n k hn => cases t <;> rfl
  | finite s m e hm =>
    cases b with
    | notANumber => cases s <;> rfl
    | infinity t => cases s <;> cases t <;> rfl
    | zero t => cases s <;> rfl
    | finite t n k hn =>
      have hexponent : (compare k e).swap = compare e k := Std.OrientedCmp.eq_swap.symm
      have hmantissa : (compare n m).swap = compare m n := Std.OrientedCmp.eq_swap.symm
      cases s with
      | positive =>
        cases t with
        | positive =>
          show some ((compare k e).then (compare n m)).swap =
            some ((compare e k).then (compare m n))
          rw [Ordering.swap_then, hexponent, hmantissa]
        | negative => rfl
      | negative =>
        cases t with
        | positive => rfl
        | negative =>
          show some ((compare k e).then (compare n m)).swap.swap =
            some ((compare e k).then (compare m n)).swap
          rw [Ordering.swap_then (compare k e), hexponent, hmantissa]

/-- A chance is not below another one that is at most as large. -/
theorem not_lt_of_le {a b : Float} (h : b ≤ a) : ¬ a < b := by
  intro hlt
  have hle : (b.toModel.unpack.compare a.toModel.unpack).any (·.isLE) = true :=
    of_decide_eq_true (p := b.toModel ≤ a.toModel) h
  have hless : (a.toModel.unpack.compare b.toModel.unpack == some .lt) = true :=
    of_decide_eq_true (p := a.toModel < b.toModel) hlt
  rw [← compare_swap] at hless
  cases hcompare : b.toModel.unpack.compare a.toModel.unpack with
  | none => simp [hcompare] at hle
  | some result =>
    rw [hcompare] at hle hless
    cases result with
    | lt => cases hless
    | eq => cases hless
    | gt => cases hle

end Annals.Dice
