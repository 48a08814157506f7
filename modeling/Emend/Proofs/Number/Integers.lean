import Mathlib

/-!
Integers as doubles. Rounding, multiplying by a number that is not zero and packing never make a
NaN, so the double nearest to an integer is a number, and equals itself.
-/

set_option autoImplicit false

namespace Emend.Number

open Float.Model (UnpackedFloat Format)

theorem isNaN_dite {p : Prop} [Decidable p] {u : p → UnpackedFloat} {v : ¬ p → UnpackedFloat}
    (yes : ∀ holds, (u holds).isNaN = false) (no : ∀ fails, (v fails).isNaN = false) :
    (if holds : p then u holds else v holds).isNaN = false := by
  by_cases holds : p
  · rw [dif_pos holds]
    exact yes holds
  · rw [dif_neg holds]
    exact no holds

theorem isNaN_ite {p : Prop} [Decidable p] {u v : UnpackedFloat} (yes : p → u.isNaN = false)
    (no : ¬ p → v.isNaN = false) : (if p then u else v).isNaN = false := by
  by_cases holds : p
  · rw [if_pos holds]
    exact yes holds
  · rw [if_neg holds]
    exact no holds

theorem isNaN_unpack {b : BitVec Format.binary64.numBits}
    (number : UnpackedFloat.unpackExponent b = -BitVec.ofNat Format.binary64.exponentBits 1 →
      UnpackedFloat.unpackMantissa b = BitVec.ofNat Format.binary64.mantissaBitsWithoutImplicit 0) :
    (UnpackedFloat.unpack Format.binary64 b).isNaN = false := by
  unfold UnpackedFloat.unpack
  refine isNaN_ite (fun full => ?_) fun _ => isNaN_ite (fun _ => ?_) fun _ => rfl
  · rw [if_pos (number full)]
    rfl
  · exact isNaN_dite (fun _ => rfl) fun _ => rfl

theorem isNaN_pack {u : UnpackedFloat} (number : u.isNaN = false) :
    (Float.Model.pack u).isNaN = false := by
  apply isNaN_unpack
  intro full
  change UnpackedFloat.unpackMantissa (UnpackedFloat.pack Format.binary64 u) = _
  change UnpackedFloat.unpackExponent (UnpackedFloat.pack Format.binary64 u) = _ at full
  unfold UnpackedFloat.pack at full ⊢
  cases u with
  | notANumber => cases number
  | infinity s | zero s => exact UnpackedFloat.unpackMantissa_packComponents
  | finite s m e positive =>
      dsimp only at full ⊢
      split at full
      · rename_i large
        rw [if_pos large]
        exact UnpackedFloat.unpackMantissa_packComponents
      · rename_i small
        split at full
        · -- The exponent of a number that is not too large stays below the full one.
          rw [UnpackedFloat.unpackExponent_packComponents] at full
          have same := congrArg BitVec.toNat full
          rw [BitVec.toNat_ofNat, Nat.mod_eq_of_lt (by omega)] at same
          simp at same
          omega
        · rw [UnpackedFloat.unpackExponent_packComponents] at full
          exact absurd full (by decide)

theorem isNaN_roundWithAccuracy (spec : Format) (s : UnpackedFloat.Sign) (m : Nat) (e : Int)
    (a : UnpackedFloat.Accuracy) :
    (UnpackedFloat.roundWithAccuracy spec s m e a).isNaN = false := by
  unfold UnpackedFloat.roundWithAccuracy
  exact isNaN_dite (fun _ => rfl) fun _ => rfl

theorem isNaN_ofInt_unpacked (spec : Format) (i : Int) :
    (UnpackedFloat.ofInt spec i).isNaN = false := by
  unfold UnpackedFloat.ofInt UnpackedFloat.normalize
  split
  · unfold UnpackedFloat.round
    exact isNaN_roundWithAccuracy _ _ _ _ _
  · rfl
  · unfold UnpackedFloat.round
    exact isNaN_roundWithAccuracy _ _ _ _ _

theorem isNaN_mul_finite (spec : Format) {u : UnpackedFloat} (number : u.isNaN = false)
    (s : UnpackedFloat.Sign) (m : Nat) (e : Int) (positive : 0 < m) :
    (UnpackedFloat.mul spec u (.finite s m e positive)).isNaN = false := by
  cases u with
  | notANumber => cases number
  | infinity _ => rfl
  | zero _ => rfl
  | finite _ _ _ _ =>
      unfold UnpackedFloat.mul
      exact isNaN_roundWithAccuracy _ _ _ _ _

theorem isNaN_ofScientific (spec : Format) (n : Nat) :
    (UnpackedFloat.ofScientific spec n 0).isNaN = false := by
  unfold UnpackedFloat.ofScientific
  refine isNaN_dite (fun _ => rfl) fun _ => isNaN_ite (fun _ => rfl) fun _ => ?_
  refine isNaN_ite (fun _ => rfl) fun _ => isNaN_ite (fun _ => ?_) fun negative => ?_
  · exact isNaN_mul_finite _ rfl _ _ _ _
  · exact absurd (Int.le_refl 0) negative

theorem isNaN_ofNat (n : Nat) : (Float.ofNat n).isNaN = false := by
  change (Float.ofScientific n false 0).isNaN = false
  unfold Float.ofScientific
  split
  · apply isNaN_pack
    have converted : (Float.Model.ofUInt64 n.toUInt64).isNaN = false :=
      isNaN_pack (isNaN_ofInt_unpacked _ _)
    have one : (Float.exactlyRepresentablePowersOfTen[0]).toModel.unpack =
        .finite .positive 4503599627370496 (-52) (by decide) := by rfl
    rw [one]
    exact isNaN_mul_finite _ converted _ _ _ _
  · exact isNaN_pack (isNaN_ofScientific _ _)

theorem isNaN_neg {x : Float} (number : x.isNaN = false) : x.neg.isNaN = false := by
  apply isNaN_pack
  change x.toModel.unpack.isNaN = false at number
  cases unpacked : x.toModel.unpack with
  | notANumber =>
      rw [unpacked] at number
      cases number
  | _ => rfl

theorem isNaN_ofInt (i : Int) : (Float.ofInt i).isNaN = false := by
  cases i with
  | ofNat n => exact isNaN_ofNat n
  | negSucc n => exact isNaN_neg (isNaN_ofNat n.succ)

theorem ofInt_beq_self (i : Int) : (Float.ofInt i == Float.ofInt i) = true := by
  have number := isNaN_ofInt i
  rw [Float.isNaN_eq_decide_eq_nan, decide_eq_false_iff_not] at number
  exact Float.beq_self_iff.mpr number

end Emend.Number
