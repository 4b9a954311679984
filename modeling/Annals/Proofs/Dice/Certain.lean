import Annals.Dice
/-!
# Chances that leave nothing to the dice

A fraction of one reaches every chance that is not above zero and no chance of at least one. A
chance is weighed by its sign, mantissa and exponent, and compared by its unpacked form, so the two
are compared first.

* `Dice.Unpacks`: what sign, mantissa and exponent say of the unpacked form; `Dice.unpacks`.
* `Dice.Certain`: a chance of nothing or of certainty.
* `Dice.reaches_of_le_zero`, `Dice.not_reaches_of_one_le`: what a roll says of such a chance.
-/

namespace Annals.Dice

open Float.Model (UnpackedFloat Format)
open Decimal (Binary)

/-! ## Sign, mantissa and exponent -/

/-- The lowest 52 bits of a double. -/
def fractionBits (x : Float) : BitVec 52 :=
  @UnpackedFloat.unpackMantissa .binary64 x.toModel.toBits.toBitVec

/-- The eleven bits above the fraction of a double. -/
def fieldBits (x : Float) : BitVec 11 :=
  @UnpackedFloat.unpackExponent .binary64 x.toModel.toBits.toBitVec

/-- The highest bit of a double. -/
def signBit (x : Float) : BitVec 1 :=
  @UnpackedFloat.unpackSign .binary64 x.toModel.toBits.toBitVec

theorem toNat_fractionBits (x : Float) :
    (fractionBits x).toNat = x.toBits.toNat % Nat.pow 2 52 := by
  unfold fractionBits UnpackedFloat.unpackMantissa
  rw [BitVec.toNat_cast, BitVec.extractLsb_toNat]
  rfl

theorem toNat_fieldBits (x : Float) :
    (fieldBits x).toNat = x.toBits.toNat / Nat.pow 2 52 % Nat.pow 2 11 := by
  unfold fieldBits UnpackedFloat.unpackExponent
  rw [BitVec.toNat_cast, BitVec.extractLsb_toNat, Nat.shiftRight_eq_div_pow]
  rfl

theorem toNat_signBit (x : Float) : (signBit x).toNat = x.toBits.toNat / Nat.pow 2 63 := by
  have hbits := UInt64.toNat_lt x.toBits
  have hhalf : x.toBits.toNat / Nat.pow 2 63 < Nat.pow 2 1 := Nat.div_lt_of_lt_mul hbits
  unfold signBit UnpackedFloat.unpackSign
  rw [BitVec.toNat_cast, BitVec.extractLsb_toNat, Nat.shiftRight_eq_div_pow]
  exact Nat.mod_eq_of_lt hhalf

theorem negative_ofFloat (x : Float) :
    (Binary.ofFloat x).negative = true ↔
      UnpackedFloat.Sign.ofBitVec (signBit x) = .negative := by
  have hbit : (Binary.ofFloat x).negative = (x.toBits.toNat / Nat.pow 2 63 == 1) := by
    unfold Binary.ofFloat
    dsimp only
    split <;> rfl
  rw [hbit, beq_iff_eq, ← toNat_signBit]
  rcases BitVec.eq_zero_or_eq_one (signBit x) with h | h <;>
    simp [h, UnpackedFloat.Sign.ofBitVec]

/-- Below the normal doubles the mantissa is the fraction. -/
theorem ofFloat_of_field_eq_zero {x : Float} (h : (fieldBits x).toNat = 0) :
    (Binary.ofFloat x).mantissa = (fractionBits x).toNat ∧
      (Binary.ofFloat x).exponent = -1074 := by
  rw [toNat_fieldBits] at h
  rw [toNat_fractionBits]
  unfold Binary.ofFloat
  dsimp only
  rw [if_pos h]
  exact ⟨rfl, rfl⟩

/-- A normal double has a leading one that its bits do not show. -/
theorem ofFloat_of_field_ne_zero {x : Float} (h : (fieldBits x).toNat ≠ 0) :
    (Binary.ofFloat x).mantissa = (fractionBits x).toNat + Nat.pow 2 52 ∧
      (Binary.ofFloat x).exponent = ((fieldBits x).toNat : Int) - 1075 := by
  rw [toNat_fieldBits] at h ⊢
  rw [toNat_fractionBits]
  unfold Binary.ofFloat
  dsimp only
  rw [if_neg h]
  exact ⟨rfl, rfl⟩

/-- The leading one in front of the fraction. -/
theorem toNat_leading_append (v : BitVec 52) : (1#1 ++ v).toNat = v.toNat + Nat.pow 2 52 := by
  rw [BitVec.toNat_append, Nat.shiftLeft_eq, Nat.mul_comm, ← Nat.two_pow_add_eq_or_of_lt v.isLt,
    Nat.add_comm]
  rfl

/-- What the sign, the mantissa and the exponent of a double say of its unpacked form. -/
inductive Unpacks (b : Binary) : UnpackedFloat → Prop where
  | notANumber : Unpacks b .notANumber
  | infinity (s : UnpackedFloat.Sign) (hsign : b.negative = true ↔ s = .negative)
      (hmantissa : b.mantissa ≠ 0) : Unpacks b (.infinity s)
  | zero (s : UnpackedFloat.Sign) (hmantissa : b.mantissa = 0) : Unpacks b (.zero s)
  | finite (s : UnpackedFloat.Sign) (m : Nat) (e : Int) (hm : 0 < m)
      (hsign : b.negative = true ↔ s = .negative) (hmantissa : b.mantissa = m)
      (hexponent : b.exponent = e) (hnormal : e = -1074 ∨ Nat.pow 2 52 ≤ m) :
      Unpacks b (.finite s m e hm)

theorem unpacks (x : Float) : Unpacks (Binary.ofFloat x) x.toModel.unpack := by
  have hsign := negative_ofFloat x
  unfold Float.Model.unpack UnpackedFloat.unpack
  dsimp only
  change Unpacks _ (ite (fieldBits x = -1#11) (ite (fractionBits x = 0#52) _ _)
    (ite (fieldBits x = 0#11) _ _))
  by_cases hlast : fieldBits x = -1#11
  · have hfield : (fieldBits x).toNat ≠ 0 := by
      rw [hlast]
      decide
    rw [if_pos hlast]
    by_cases hnone : fractionBits x = 0#52
    · rw [if_pos hnone]
      refine .infinity _ hsign ?_
      rw [(ofFloat_of_field_ne_zero hfield).1]
      exact Nat.succ_ne_zero _
    · rw [if_neg hnone]
      exact .notANumber
  · rw [if_neg hlast]
    by_cases hfirst : fieldBits x = 0#11
    · obtain ⟨hmantissa, hexponent⟩ := ofFloat_of_field_eq_zero (congrArg BitVec.toNat hfirst)
      rw [if_pos hfirst]
      by_cases hnone : @UnpackedFloat.unpackMantissa .binary64 x.toModel.toBits.toBitVec = 0#52
      · rw [dif_pos hnone]
        refine .zero _ ?_
        rw [hmantissa, show fractionBits x = 0#52 from hnone]
        rfl
      · have hlow : ((fieldBits x).toNat : Int) -
            ((Format.binary64.exponentBias : Int) + (52 : Nat)) + 1 = -1074 := by
          rw [hfirst]
          rfl
        rw [dif_neg hnone]
        exact .finite _ _ _ _ hsign hmantissa (hexponent.trans hlow.symm) (.inl hlow)
    · have hfield : (fieldBits x).toNat ≠ 0 := fun h => hfirst (BitVec.eq_of_toNat_eq h)
      obtain ⟨hmantissa, hexponent⟩ := ofFloat_of_field_ne_zero hfield
      have hwhole := toNat_leading_append (fractionBits x)
      rw [if_neg hfirst]
      refine .finite _ _ _ _ hsign (hmantissa.trans hwhole.symm) hexponent (.inr ?_)
      exact Nat.le_trans (Nat.le_add_left _ _) (Nat.le_of_eq hwhole.symm)

/-! ## Comparisons with zero and one -/

theorem le_iff {a b : Float} :
    a ≤ b ↔ (a.toModel.unpack.compare b.toModel.unpack).any (·.isLE) = true :=
  ⟨fun h => of_decide_eq_true (p := a.toModel ≤ b.toModel) h,
    fun h => decide_eq_true (p := a.toModel ≤ b.toModel) h⟩

theorem unpack_zero : (0 : Float).toModel.unpack = .zero .positive := rfl

theorem unpack_one :
    (1 : Float).toModel.unpack = .finite .positive (Nat.pow 2 52) (-52) (by decide) := rfl

/-- A chance that is not above zero is below one. -/
theorem lt_one_of_le_zero {c : Float} (h : c ≤ 0) : c < 1 := by
  rw [le_iff, unpack_zero] at h
  have hless : c.toModel.unpack.compare (1 : Float).toModel.unpack = some .lt := by
    rw [unpack_one]
    generalize c.toModel.unpack = u at h ⊢
    -- Only what is positive or no number is not below one, and that is not at most zero.
    cases u with
    | notANumber => cases h
    | zero s => rfl
    | infinity s =>
      cases s with
      | positive => cases h
      | negative => rfl
    | finite s m e hm =>
      cases s with
      | positive => cases h
      | negative => rfl
  exact decide_eq_true (p := c.toModel < (1 : Float).toModel) (beq_iff_eq.2 hless)

/-- Every roll is at least a chance that is not above zero. -/
theorem reaches_of_le_zero {c : Float} (h : c ≤ 0) (r : Roll) : r.reaches c = true := by
  have hview := unpacks c
  rw [le_iff, unpack_zero] at h
  unfold Roll.reaches
  rw [show c.isNaN = c.toModel.unpack.isNaN from rfl]
  generalize Binary.ofFloat c = b, c.toModel.unpack = u at h hview ⊢
  cases hview with
  | notANumber => cases h
  | zero s hmantissa =>
    rw [show (UnpackedFloat.zero s).isNaN = false from rfl]
    simp [hmantissa]
  | infinity s hsign hmantissa =>
    cases s with
    | positive => cases h
    | negative =>
      rw [show (UnpackedFloat.infinity .negative).isNaN = false from rfl]
      simp [hsign]
  | finite s m e hm hsign hmantissa hexponent hnormal =>
    cases s with
    | positive => cases h
    | negative =>
      rw [show (UnpackedFloat.finite .negative m e hm).isNaN = false from rfl]
      simp [hsign]

/-- A normal mantissa with an exponent that makes at least one weighs more than any roll. -/
theorem numerator_lt_of_exponent {m : Nat} {e : Int} (hm : Nat.pow 2 52 ≤ m) (he : -52 ≤ e)
    (r : Roll) :
    r.numerator.val * Nat.pow 2 (-(e + 53)).toNat < m * Nat.pow 2 (e + 53).toNat := by
  have hunit : (-(e + 53)).toNat = 0 := by omega
  have hpow : Nat.pow 2 1 ≤ Nat.pow 2 (e + 53).toNat :=
    Nat.pow_le_pow_right (by decide) (by omega)
  rw [hunit]
  calc r.numerator.val * Nat.pow 2 0 = r.numerator.val := Nat.mul_one _
    _ < Nat.pow 2 53 := r.numerator.isLt
    _ = Nat.pow 2 52 * Nat.pow 2 1 := rfl
    _ ≤ m * Nat.pow 2 (e + 53).toNat := Nat.mul_le_mul hm hpow

/-- No roll is at least a chance of one or more. -/
theorem not_reaches_of_one_le {c : Float} (h : 1 ≤ c) (r : Roll) : r.reaches c = false := by
  have hview := unpacks c
  rw [le_iff, unpack_one] at h
  unfold Roll.reaches
  rw [show c.isNaN = c.toModel.unpack.isNaN from rfl,
    show c.isInf = c.toModel.unpack.isInf from rfl]
  generalize Binary.ofFloat c = b, c.toModel.unpack = u at h hview ⊢
  cases hview with
  | notANumber => cases h
  | zero s hmantissa => cases h
  | infinity s hsign hmantissa =>
    cases s with
    | positive =>
      rw [show (UnpackedFloat.infinity .positive).isNaN = false from rfl,
        show (UnpackedFloat.infinity .positive).isInf = true from rfl]
      simp [hsign, hmantissa]
    | negative => cases h
  | finite s m e hm hsign hmantissa hexponent hnormal =>
    cases s with
    | negative => cases h
    | positive =>
      -- The exponent is not below that of one, so the double is a normal one.
      have he : -52 ≤ e := by
        change (some ((compare (-52 : Int) e).then (compare (Nat.pow 2 52) m))).any _ = true at h
        rcases Int.lt_trichotomy (-52) e with hlt | heq | hgt
        · exact Int.le_of_lt hlt
        · exact Int.le_of_eq heq
        · rw [Int.compare_eq_gt.2 hgt] at h
          cases h
      have hlarge := numerator_lt_of_exponent (hnormal.resolve_left (by omega)) he r
      have hpositive : b.negative = false := by simp [Bool.eq_false_iff, hsign]
      have hsome : m ≠ 0 := Nat.ne_of_gt hm
      rw [show (UnpackedFloat.finite .positive m e hm).isNaN = false from rfl,
        show (UnpackedFloat.finite .positive m e hm).isInf = false from rfl]
      simpa [hpositive, hmantissa, hexponent, hsome] using hlarge

/-! ## Certainty -/

/-- A chance of nothing or of certainty. -/
def Certain (chance : Float) : Prop := chance ≤ 0 ∨ 1 ≤ chance

instance (chance : Float) : Decidable (Certain chance) := inferInstanceAs (Decidable (_ ∨ _))

/-- Of a certain chance all rolls say the same. -/
theorem Certain.reaches_eq {chance : Float} (h : Certain chance) (r r' : Roll) :
    r.reaches chance = r'.reaches chance := by
  rcases h with hnone | hall
  · rw [reaches_of_le_zero hnone, reaches_of_le_zero hnone]
  · rw [not_reaches_of_one_le hall, not_reaches_of_one_le hall]

end Annals.Dice
