import Emend.Proofs.Number.Decimal
import Emend.Proofs.Number.Order

/-!
Whole doubles. A double without a fraction is the double nearest to its integer. Integers of fewer than
fifty-four bits share their doubles with no others: whatever is longer is rounded to a double that is
no smaller than `2 ^ 53`.
-/

set_option autoImplicit false

namespace Emend.Number

open Float.Model (UnpackedFloat Format)
open Float.Model.UnpackedFloat (Sign ExtendedMantissa)

theorem eq_of_unpack {x y : Float} (same : unpack x = unpack y) : x = y := by
  have bits := (UnpackedFloat.unpack_inj_of_valid x.toModel.valid y.toModel.valid).mp same
  exact Float.toBits_inj.mp (UInt64.toBitVec_inj.mp bits)

theorem canonical_of_unpack {x : Float} {s : Sign} {m : Nat} {e : Int} {positive : 0 < m}
    (unpacked : unpack x = .finite s m e positive) : Canonical m e := by
  change UnpackedFloat.unpack .binary64 x.toModel.toBits.toBitVec = _ at unpacked
  obtain ⟨b, stored⟩ : ∃ b : BitVec Format.binary64.numBits, b = x.toModel.toBits.toBitVec := ⟨_, rfl⟩
  rw [← stored] at unpacked
  have mantissa : (UnpackedFloat.unpackMantissa b).toNat < 2 ^ 52 :=
    (UnpackedFloat.unpackMantissa b).isLt
  have exponent : (UnpackedFloat.unpackExponent b).toNat < 2 ^ 11 :=
    (UnpackedFloat.unpackExponent b).isLt
  unfold UnpackedFloat.unpack at unpacked
  dsimp only at unpacked
  split at unpacked
  · split at unpacked <;> cases unpacked
  · rename_i notFull
    have below : (UnpackedFloat.unpackExponent b).toNat ≠ 2047 := fun full =>
      notFull (BitVec.eq_of_toNat_eq full)
    split at unpacked
    · rename_i empty
      split at unpacked
      · cases unpacked
      · injection unpacked with _ same stored
        have least : e = -1074 := by
          rw [← stored, empty]
          rfl
        exact ⟨positive, by omega, by omega, by omega, .inr least⟩
    · rename_i filled
      have above : (UnpackedFloat.unpackExponent b).toNat ≠ 0 := fun empty =>
        filled (BitVec.eq_of_toNat_eq empty)
      injection unpacked with _ same stored
      change (_ : Int) - (((1023 : Nat) : Int) + ((52 : Nat) : Int)) = e at stored
      rw [BitVec.toNat_append, ← Nat.shiftLeft_add_eq_or_of_lt mantissa, Nat.shiftLeft_eq] at same
      change 1 * 2 ^ 52 + _ = m at same
      exact ⟨positive, by omega, by omega, by omega, .inl (by omega)⟩

theorem unpack_pack_infinity (s : Sign) :
    UnpackedFloat.unpack .binary64 (UnpackedFloat.pack .binary64 (.infinity s)) = .infinity s := by
  cases s <;> rfl

theorem unpack_pack_overflow (s : Sign) {m : Nat} {e : Int} (positive : 0 < m) (beyond : 971 < e) :
    UnpackedFloat.unpack .binary64 (UnpackedFloat.pack .binary64 (.finite s m e positive)) =
      .infinity s := by
  have full : 2 ^ Format.binary64.exponentBits ≤ (e + Format.binary64.exponentBias +
      Format.binary64.mantissaBitsWithoutImplicit).toNat + 1 := by
    change 2 ^ 11 ≤ (e + ((1023 : Nat) : Int) + ((52 : Nat) : Int)).toNat + 1
    omega
  have overflow : UnpackedFloat.pack .binary64 (.finite s m e positive) =
      UnpackedFloat.pack .binary64 (.infinity s) := if_pos full
  rw [overflow, unpack_pack_infinity]

theorem unpack_neg {x : Float} {s : Sign} {m : Nat} {e : Int} {positive : 0 < m}
    (unpacked : unpack x = .finite s m e positive) : unpack x.neg = .finite (-s) m e positive := by
  change UnpackedFloat.unpack .binary64 (UnpackedFloat.pack .binary64 (unpack x).neg) = _
  rw [unpacked]
  exact (canonical_of_unpack unpacked).unpack_pack (-s)

theorem unpack_neg_zero {x : Float} {s : Sign} (unpacked : unpack x = .zero s) :
    unpack x.neg = .zero (-s) := by
  change UnpackedFloat.unpack .binary64 (UnpackedFloat.pack .binary64 (unpack x).neg) = _
  rw [unpacked]
  cases s <;> rfl

/-- A double without a fraction is an integer, and it is rounded to that one. -/
theorem integer_of_isIntegral {s : Sign} {m : Nat} {e : Int}
    (whole : 0 ≤ e ∨ m % Nat.pow 2 (-e).toNat = 0) :
    ∃ n : Nat, (n : ℚ) = m * 2 ^ e ∧ Rounding.towardZero.integer s m e = s.apply n := by
  unfold Rounding.integer
  by_cases up : 0 ≤ e
  · refine ⟨m * 2 ^ e.toNat, ?_, by rw [if_pos up]; rfl⟩
    have power : (2 : ℚ) ^ e = 2 ^ e.toNat := by
      rw [← zpow_natCast, Int.toNat_of_nonneg up]
    rw [power]
    push_cast
    rfl
  · have even : m % 2 ^ (-e).toNat = 0 := whole.resolve_left up
    refine ⟨m / 2 ^ (-e).toNat, ?_, ?_⟩
    · rw [zpow_eq_inv 2 (by omega), Nat.cast_div (Nat.dvd_of_mod_eq_zero even) (by positivity), div_eq_mul_inv]
      push_cast
      rfl
    · rw [if_neg up]
      cases s <;> rfl

theorem unpack_ofNat_of_eq {m n : Nat} {e : Int} (canonical : Canonical m e)
    (whole : (n : ℚ) = m * 2 ^ e) :
    unpack (Float.ofNat n) = .finite .positive m e canonical.positive := by
  change unpack (Float.ofScientific n false 0) = _
  refine unpack_ofScientific canonical ?_
  have same : (n : ℚ) * 10 ^ (((0 : Nat) : Int)) = m * 2 ^ e := by
    rw [Int.natCast_zero, zpow_zero, mul_one, whole]
  exact same ▸ roundsTo_self m e

theorem unpack_ofInt_of_eq (s : Sign) {m n : Nat} {e : Int} (canonical : Canonical m e)
    (whole : (n : ℚ) = m * 2 ^ e) :
    unpack (Float.ofInt (s.apply n)) = .finite s m e canonical.positive := by
  have natural := unpack_ofNat_of_eq canonical whole
  cases s with
  | positive => exact natural
  | negative =>
      have positive : (0 : ℚ) < n := by
        have := canonical.positive
        rw [whole]
        positivity
      obtain ⟨k, rfl⟩ := Nat.exists_eq_succ_of_ne_zero (Nat.cast_pos.mp positive).ne'
      exact unpack_neg natural

theorem exists_roundInt? (rounding : Rounding) {x : Float} (whole : isIntegral x) :
    ∃ i, roundInt? rounding x = some i := by
  unfold isIntegral at whole
  unfold roundInt?
  cases unpacked : unpack x with
  | notANumber | infinity s =>
      rw [unpacked] at whole
      cases whole
  | zero s => exact ⟨0, rfl⟩
  | finite s m e => exact ⟨_, rfl⟩

theorem beq_ofInt_of_isIntegral {x : Float} {i : Int} (whole : isIntegral x)
    (rounded : roundInt? .towardZero x = some i) : x == Float.ofInt i := by
  unfold isIntegral at whole
  unfold roundInt? at rounded
  split at rounded
  · rename_i s unpacked
    cases rounded
    have number : x.isNaN = false := by
      change (unpack x).isNaN = false
      rw [unpacked]
      rfl
    rw [beq_iff_place number (isNaN_ofInt 0), place, unpacked]
    rfl
  · rename_i s m e positive unpacked
    rw [unpacked] at whole
    obtain ⟨n, value, integer⟩ := integer_of_isIntegral (s := s) (m := m) (e := e) (by simpa using whole)
    rw [integer] at rounded
    cases rounded
    have same : x = Float.ofInt (s.apply n) :=
      eq_of_unpack (unpacked.trans (unpack_ofInt_of_eq s (canonical_of_unpack unpacked) value).symm)
    rw [same]
    exact ofInt_beq_self _
  · cases rounded

theorem roundedMantissa_bounds (em : ExtendedMantissa) :
    em.mantissa ≤ em.roundedMantissa ∧ em.roundedMantissa ≤ em.mantissa + 1 := by
  obtain ⟨m, half, rest⟩ := em
  cases half <;> cases rest
  · exact ⟨Nat.le_refl m, Nat.le_succ m⟩
  · exact ⟨Nat.le_refl m, Nat.le_succ m⟩
  · change m ≤ m + m % 2 ∧ m + m % 2 ≤ m + 1
    omega
  · exact ⟨Nat.le_succ m, Nat.le_refl (m + 1)⟩

/-- What an integer of more than fifty-three bits is rounded to, by its binary logarithm. -/
def IsLong (bits : Nat) : UnpackedFloat → Prop
  | .infinity _ => 1023 ≤ bits
  | .finite _ m e _ => 2 ^ 52 ≤ m ∧ m < 2 ^ 53 ∧ 0 < e ∧ e + 51 ≤ bits
  | _ => False

theorem IsLong.unpack_pack {bits : Nat} {u : UnpackedFloat} (long : IsLong bits u) :
    IsLong bits (UnpackedFloat.unpack .binary64 (UnpackedFloat.pack .binary64 u)) := by
  cases u with
  | notANumber | zero s => cases long
  | infinity s =>
      rw [unpack_pack_infinity]
      exact long
  | finite s m e positive =>
      obtain ⟨low, high, above, most⟩ := long
      by_cases greatest : e ≤ 971
      · rw [Number.unpack_pack s positive low high (by omega) greatest]
        exact ⟨low, high, above, most⟩
      · rw [unpack_pack_overflow s positive (by omega)]
        change 1023 ≤ bits
        omega

theorem IsLong.neg {bits : Nat} {u : UnpackedFloat} (long : IsLong bits u) : IsLong bits u.neg := by
  cases u <;> exact long

theorem IsLong.le_roundInt? {bits : Nat} {rounding : Rounding} {x : Float} {i : Int}
    (long : IsLong bits (unpack x)) (rounded : roundInt? rounding x = some i) : 2 ^ 53 ≤ i.natAbs := by
  unfold roundInt? at rounded
  cases unpacked : unpack x with
  | notANumber | zero s =>
      rw [unpacked] at long
      cases long
  | infinity s =>
      rw [unpacked] at rounded
      cases rounded
  | finite s m e positive =>
      rw [unpacked] at long rounded
      obtain ⟨low, -, above, -⟩ := long
      cases rounded
      obtain ⟨k, rfl⟩ : ∃ k : Nat, e = (k + 1 : Nat) := ⟨(e - 1).toNat, by omega⟩
      have magnitude : (rounding.integer s m (k + 1 : Nat)).natAbs = m * 2 ^ (k + 1) := by
        unfold Rounding.integer
        rw [if_pos (Int.natCast_nonneg _), Int.toNat_natCast]
        cases s
        · exact Int.natAbs_neg _
        · rfl
      rw [magnitude]
      exact Nat.mul_le_mul low (Nat.pow_le_pow_right two_pos (Nat.succ_le_succ (Nat.zero_le k)))

theorem roundWithAccuracy_long {n k : Nat} (long : 2 ^ 53 ≤ n) :
    IsLong n.log2
      (UnpackedFloat.roundWithAccuracy .binary64 .positive (n * 2 ^ k) (-(k : Int)) .exact) := by
  have whole : 0 < n := Nat.lt_of_lt_of_le (Nat.two_pow_pos 53) long
  have bits : 53 ≤ n.log2 := (Nat.le_log2 whole.ne').mpr long
  have longer := log2_mul_two_pow whole k
  have positive : n * 2 ^ k ≠ 0 := (Nat.mul_pos whole (Nat.two_pow_pos k)).ne'
  generalize n * 2 ^ k = N at positive longer
  obtain ⟨a, length⟩ : ∃ a, N.log2 = 52 + a := ⟨N.log2 - 52, by omega⟩
  have first := shiftToTargetExponent_eq (m := N) (e := -(k : Int)) (f := (a : Int) - k) .exact
    (by omega) (by omega)
  have amount : ((a : Int) - k - -(k : Int)).toNat = a := by omega
  rw [amount] at first
  have stands : StandsFor (.ofMantissaAndAccuracy N .exact) N := rfl
  obtain ⟨least, greatest⟩ := (stands.shiftRight a).bounds
  have short := stands.cut_lt length.le
  have full := stands.le_cut length
  generalize (ExtendedMantissa.ofMantissaAndAccuracy N .exact >>> a) = cut at first least greatest
  have low : 2 ^ 52 ≤ cut.mantissa := by
    have : (2 : ℚ) ^ 52 < cut.mantissa + 1 := lt_of_le_of_lt full greatest
    exact Nat.le_of_lt_succ (by exact_mod_cast this)
  have high : cut.mantissa < 2 ^ 53 := by
    have : (cut.mantissa : ℚ) < 2 ^ 53 := lt_of_le_of_lt least short
    exact_mod_cast this
  obtain ⟨lower, upper⟩ := roundedMantissa_bounds cut
  unfold UnpackedFloat.roundWithAccuracy
  rcases Nat.lt_or_ge cut.roundedMantissa (2 ^ 53) with fits | carries
  · have second := shiftToTargetExponent_of_fits fits (e := (a : Int) - k) (by omega)
    simp only [first, second]
    rw [dif_neg (by omega)]
    exact ⟨by omega, fits, by omega, by omega⟩
  · have carried : cut.roundedMantissa = 2 ^ 53 := by omega
    have second := shiftToTargetExponent_carry (f := (a : Int) - k) (by omega)
    simp only [first, carried, second]
    rw [dif_neg (by decide)]
    exact ⟨Nat.le_refl _, by decide, by omega, by omega⟩

theorem mul_long {m₁ m₂ n k : Nat} {e₁ e₂ : Int} {positive₁ : 0 < m₁} {positive₂ : 0 < m₂}
    (product : m₁ * m₂ = n * 2 ^ k) (exponents : e₁ + e₂ = -(k : Int)) (long : 2 ^ 53 ≤ n) :
    IsLong n.log2 (UnpackedFloat.mul .binary64 (.finite .positive m₁ e₁ positive₁)
      (.finite .positive m₂ e₂ positive₂)) := by
  have rounded := roundWithAccuracy_long (k := k) long
  rw [← product, ← exponents] at rounded
  exact rounded

theorem ofScientific_long {n : Nat} (long : 2 ^ 53 ≤ n) :
    IsLong n.log2 (UnpackedFloat.ofScientific .binary64 n 0) := by
  have positive : n ≠ 0 := (Nat.lt_of_lt_of_le (Nat.two_pow_pos 53) long).ne'
  unfold UnpackedFloat.ofScientific
  rw [dif_neg positive, if_neg (by decide), if_neg (not_lt.mpr ?_), if_pos (Int.le_refl 0)]
  · refine mul_long (n := n) (k := Format.binary64.mantissaBits) ?_ ?_ ?_
    · rw [Nat.shiftLeft_eq]
      exact Nat.mul_one _
    · rfl
    · exact long
  · exact neg_nonpos.mpr (add_nonneg (by positivity) (Int.natCast_nonneg _))

theorem unpack_ofNat_long {n : Nat} (long : 2 ^ 53 ≤ n) : IsLong n.log2 (unpack (Float.ofNat n)) := by
  change IsLong n.log2 (unpack (Float.ofScientific n false 0))
  unfold Float.ofScientific
  rw [dif_neg fun short => absurd short.1 (Nat.not_lt.mpr long)]
  exact (ofScientific_long long).unpack_pack

theorem unpack_ofInt_long {i : Int} (long : 2 ^ 53 ≤ i.natAbs) :
    IsLong i.natAbs.log2 (unpack (Float.ofInt i)) := by
  cases i with
  | ofNat n => exact unpack_ofNat_long long
  | negSucc n => exact (unpack_ofNat_long (n := n + 1) long).neg.unpack_pack

theorem ofInt_beq_comm (i j : Int) :
    (Float.ofInt i == Float.ofInt j) = (Float.ofInt j == Float.ofInt i) := by
  rw [Bool.eq_iff_iff, beq_iff_place (isNaN_ofInt i) (isNaN_ofInt j),
    beq_iff_place (isNaN_ofInt j) (isNaN_ofInt i), eq_comm]

/-- An integer of fewer than fifty-four bits shares its double with no other integer. -/
theorem ofInt_beq_of_short {i j : Int} (short : i.natAbs < 2 ^ 53) :
    (Float.ofInt j == Float.ofInt i) = decide (j = i) := by
  rcases Nat.le_total j.natAbs (2 ^ 53) with within | beyond
  · exact ofInt_beq within (Nat.le_of_lt short)
  · have differ : j ≠ i := by
      rintro rfl
      omega
    rw [decide_eq_false differ, Bool.eq_false_iff]
    intro equal
    have rounded := roundInt?_congr .towardZero equal
    rw [roundInt?_ofInt .towardZero (Nat.le_of_lt short)] at rounded
    exact absurd ((unpack_ofInt_long beyond).le_roundInt? rounded) (Nat.not_le.mpr short)

theorem isIntegral_congr {x y : Float} (equal : x == y) : isIntegral x = isIntegral y := by
  obtain ⟨-, -, rfl | ⟨rfl, rfl⟩ | ⟨rfl, rfl⟩⟩ := Float.beq_iff_ne_nan_and_eq.mp equal
  · rfl
  · rfl
  · rfl

theorem isIntegral_neg {x : Float} (whole : isIntegral x) : isIntegral x.neg := by
  unfold isIntegral at whole ⊢
  cases unpacked : unpack x with
  | notANumber | infinity s =>
      rw [unpacked] at whole
      cases whole
  | zero s => rw [unpack_neg_zero unpacked]
  | finite s m e positive =>
      rw [unpack_neg unpacked]
      rw [unpacked] at whole
      exact whole

theorem isIntegral_ofNat {n : Nat} (within : n < 2 ^ 64) : isIntegral (Float.ofNat n) := by
  rcases Nat.eq_zero_or_pos n with rfl | positive
  · rfl
  · unfold isIntegral
    rcases Nat.lt_or_ge n (2 ^ 53) with short | long
    · rw [unpack_ofNat positive short]
      have shift : (- -(zeros n : Int)).toNat = zeros n := by omega
      change (decide (0 ≤ -(zeros n : Int)) ||
        (n * 2 ^ zeros n) % 2 ^ (- -(zeros n : Int)).toNat == 0) = true
      rw [shift, Nat.mul_mod_left]
      exact Bool.or_true _
    · have bits : n.log2 < 64 := (Nat.log2_lt positive.ne').mpr within
      have stored := unpack_ofNat_long long
      cases unpacked : unpack (Float.ofNat n) with
      | zero s => rfl
      | notANumber =>
          rw [unpacked] at stored
          cases stored
      | infinity s =>
          rw [unpacked] at stored
          change 1023 ≤ n.log2 at stored
          omega
      | finite s m e =>
          rw [unpacked] at stored
          obtain ⟨-, -, above, -⟩ := stored
          exact Bool.or_eq_true_iff.mpr (.inl (decide_eq_true (Int.le_of_lt above)))

theorem isIntegral_ofInt {i : Int} (within : i.natAbs < 2 ^ 64) : isIntegral (Float.ofInt i) := by
  cases i with
  | ofNat n => exact isIntegral_ofNat within
  | negSucc n => exact isIntegral_neg (isIntegral_ofNat (n := n + 1) within)

end Emend.Number
