import Emend.Proofs.Number.Rounding

/-!
Decimals as doubles. A number `n * 10 ^ d` is read as the double that it rounds to, whether it is the
product or the quotient of two short ones or goes the long way.
-/

set_option autoImplicit false

namespace Emend.Number

open Float.Model (UnpackedFloat)

theorem RoundsTo.positive {m : Nat} {e : Int} {q : ℚ} (rounds : RoundsTo m e q)
    (canonical : Canonical m e) : 0 < q := by
  have unit : (0 : ℚ) < 2 ^ e := by positivity
  have least : (1 : ℚ) ≤ m := by exact_mod_cast canonical.positive
  have gap := slack_le m
  have scaled : 0 < q / 2 ^ e := by linarith [rounds.above]
  exact (div_pos_iff_of_pos_right unit).mp scaled

/-- Whether an unpacked double is a power of ten. -/
def isPower (k : Nat) : UnpackedFloat → Bool
  | .finite .positive m e _ => m * 2 ^ e.toNat == 10 ^ k * 2 ^ (-e).toNat
  | _ => false

theorem of_isPower {k : Nat} {u : UnpackedFloat} (power : isPower k u) :
    ∃ m e, ∃ positive : 0 < m, u = .finite .positive m e positive ∧ (m : ℚ) * 2 ^ e = 10 ^ k := by
  unfold isPower at power
  split at power
  · rename_i m e positive
    refine ⟨m, e, positive, rfl, ?_⟩
    have same : m * 2 ^ e.toNat = 10 ^ k * 2 ^ (-e).toNat := beq_iff_eq.mp power
    have sameQ : (m : ℚ) * 2 ^ e.toNat = 10 ^ k * 2 ^ (-e).toNat := by exact_mod_cast same
    rw [zpow_eq_div two_ne_zero, mul_div_assoc', sameQ, mul_div_cancel_right₀ _ (by positivity)]
  · cases power

/-- The powers of ten of the table are exact. -/
theorem powers_exact : ∀ k : Fin 23, isPower k (unpack Float.exactlyRepresentablePowersOfTen[k]) := by
  decide +kernel

section
variable {m : Nat} {e : Int} {q : ℚ}

theorem RoundsTo.lt_limit (rounds : RoundsTo m e q) (canonical : Canonical m e) :
    q < 2 ^ (1024 : Int) := by
  have unit : (0 : ℚ) < 2 ^ e := by positivity
  have high : (m : ℚ) + 1 ≤ 2 ^ 53 := by exact_mod_cast canonical.high
  have scaled : q / 2 ^ e < 2 ^ 53 := by linarith [rounds.below]
  have greatest : (2 : ℚ) ^ e ≤ 2 ^ (971 : Int) :=
    zpow_le_zpow_right₀ one_le_two canonical.greatest
  calc
    q < 2 ^ 53 * 2 ^ e := (div_lt_iff₀ unit).mp scaled
    _ ≤ 2 ^ 53 * 2 ^ (971 : Int) := mul_le_mul_of_nonneg_left greatest (by positivity)
    _ = 2 ^ (1024 : Int) := by
      rw [← zpow_natCast, ← zpow_add₀ two_ne_zero]
      rfl

theorem RoundsTo.least_le (rounds : RoundsTo m e q) (canonical : Canonical m e) :
    (2 : ℚ) ^ (-1075 : Int) ≤ q := by
  have unit : (0 : ℚ) < 2 ^ e := by positivity
  have low : (1 : ℚ) ≤ m := by exact_mod_cast canonical.positive
  have scaled : 1 / 2 ≤ q / 2 ^ e := by linarith [rounds.above, slack_le m]
  have least : (2 : ℚ) ^ (-1074 : Int) ≤ 2 ^ e := zpow_le_zpow_right₀ one_le_two canonical.least
  calc
    (2 : ℚ) ^ (-1075 : Int) = 1 / 2 * 2 ^ (-1074 : Int) := by
      rw [show (-1075 : Int) = -1 + -1074 by norm_num, zpow_add₀ two_ne_zero]
      norm_num
    _ ≤ 1 / 2 * 2 ^ e := mul_le_mul_of_nonneg_left least (by norm_num)
    _ ≤ q := (le_div_iff₀ unit).mp scaled

theorem decimal_lt_least {n : Nat} {d : Int} (small : d < -(2 ^ 11 + (n.log2 : Int))) :
    (n : ℚ) * 10 ^ d < 2 ^ (-1075 : Int) := by
  obtain ⟨k, rfl⟩ : ∃ k : Nat, d = -(k : Int) := ⟨(-d).toNat, by omega⟩
  have long : (n : ℚ) < 2 ^ (n.log2 + 1) := by exact_mod_cast Nat.lt_log2_self
  calc
    (n : ℚ) * 10 ^ (-(k : Int)) < 2 ^ (n.log2 + 1) * 10 ^ (-(k : Int)) :=
      mul_lt_mul_of_pos_right long (by positivity)
    _ ≤ 2 ^ (n.log2 + 1) * 2 ^ (-(k : Int)) := by
      refine mul_le_mul_of_nonneg_left ?_ (by positivity)
      rw [zpow_neg, zpow_neg, zpow_natCast, zpow_natCast]
      exact inv_anti₀ (by positivity) (pow_le_pow_left₀ (by norm_num) (by norm_num) k)
    _ = 2 ^ ((n.log2 : Int) + 1 - k) := by
      rw [← zpow_natCast, ← zpow_add₀ two_ne_zero]
      push_cast
      rfl
    _ ≤ 2 ^ (-1075 : Int) := zpow_le_zpow_right₀ one_le_two (by omega)

/-- Decimals that are doubles have exponents of a moderate size. -/
theorem RoundsTo.decimal_exponent {n : Nat} {d : Int} (rounds : RoundsTo m e (n * 10 ^ d))
    (canonical : Canonical m e) : d ≤ 2 ^ 11 ∧ -(2 ^ 11 + (n.log2 : Int)) ≤ d := by
  have positive : 0 < n := by
    have := rounds.positive canonical
    by_contra zero
    obtain rfl : n = 0 := by omega
    simp at this
  constructor
  · by_contra large
    obtain ⟨k, rfl⟩ := Int.eq_ofNat_of_zero_le (show 0 ≤ d by omega)
    have most := rounds.lt_limit canonical
    have one : (1 : ℚ) ≤ n := by exact_mod_cast positive
    have : (2 : ℚ) ^ (1024 : Int) ≤ n * 10 ^ (k : Int) := calc
      (2 : ℚ) ^ (1024 : Int) ≤ 2 ^ (k : Int) := zpow_le_zpow_right₀ one_le_two (by omega)
      _ = 2 ^ k := zpow_natCast 2 k
      _ ≤ 10 ^ k := pow_le_pow_left₀ (by norm_num) (by norm_num) k
      _ ≤ n * 10 ^ (k : Int) := by
        rw [zpow_natCast]
        exact le_mul_of_one_le_left (by positivity) one
    linarith
  · by_contra small
    exact absurd (rounds.least_le canonical) (not_le.mpr (decimal_lt_least (by omega)))

theorem pos_of_roundsTo {n : Nat} {d : Int} (rounds : RoundsTo m e (n * 10 ^ d))
    (canonical : Canonical m e) : 0 < n := by
  have positive := rounds.positive canonical
  rcases Nat.eq_zero_or_pos n with rfl | some
  · rw [Nat.cast_zero, zero_mul] at positive
    exact absurd positive (lt_irrefl 0)
  · exact some

/-- Decimals of few digits are the product or the quotient of two doubles. -/
theorem ofScientific_short {n k : Nat} (down : Bool) (positive : 0 < n) (small : n < 2 ^ 53)
    (listed : k < 23) :
    ∃ u, IsRounding .positive (n * 10 ^ (if down then -(k : Int) else k)) u ∧
      unpack (Float.ofScientific n down k) =
        UnpackedFloat.unpack .binary64 (UnpackedFloat.pack .binary64 u) := by
  have makes := makes_small positive small
  have whole : ((n * 2 ^ zeros n : Nat) : ℚ) * 2 ^ (-(zeros n : Int)) = n := by
    rw [zpow_neg, zpow_natCast]
    push_cast
    field_simp
  obtain ⟨m₂, e₂, positive₂, power, exact⟩ := of_isPower (powers_exact ⟨k, listed⟩)
  have found : unpack (Float.exactlyRepresentablePowersOfTen[k]) =
      .finite .positive m₂ e₂ positive₂ := power
  have converted := unpack_toFloat positive small
  unfold filled at converted
  unfold Float.ofScientific
  rw [dif_pos ⟨small, by omega⟩]
  cases down with
  | false =>
      have enough : 52 ≤ (n * 2 ^ zeros n * m₂).log2 := by
        have long : 2 ^ 52 ≤ n * 2 ^ zeros n * m₂ :=
          Nat.le_trans makes.low (Nat.le_mul_of_pos_right _ positive₂)
        exact (Nat.le_log2 (by omega)).mpr long
      have product : IsRounding .positive (n * 10 ^ (k : Int)) (UnpackedFloat.mul .binary64
          (.finite .positive (n * 2 ^ zeros n) (-(zeros n : Int)) makes.positive)
          (.finite .positive m₂ e₂ positive₂)) := by
        rw [zpow_natCast, ← whole, ← exact]
        exact isRounding_mul .positive .positive enough
      refine ⟨_, product, ?_⟩
      change UnpackedFloat.unpack .binary64 (UnpackedFloat.pack .binary64
        (UnpackedFloat.mul .binary64 (unpack n.toUInt64.toFloat)
          (unpack (Float.exactlyRepresentablePowersOfTen[k])))) = _
      rw [converted, found]
  | true =>
      have quotient : IsRounding .positive (n * 10 ^ (-(k : Int))) (UnpackedFloat.div .binary64
          (.finite .positive (n * 2 ^ zeros n) (-(zeros n : Int)) makes.positive)
          (.finite .positive m₂ e₂ positive₂)) := by
        rw [zpow_neg, zpow_natCast, ← div_eq_mul_inv, ← whole, ← exact]
        exact isRounding_div .positive .positive
      refine ⟨_, quotient, ?_⟩
      change UnpackedFloat.unpack .binary64 (UnpackedFloat.pack .binary64
        (UnpackedFloat.div .binary64 (unpack n.toUInt64.toFloat)
          (unpack (Float.exactlyRepresentablePowersOfTen[k])))) = _
      rw [converted, found]

theorem isRounding_ofScientific {n : Nat} {d : Int} (positive : 0 < n) (most : d ≤ 2 ^ 11)
    (least : -(2 ^ 11 + (n.log2 : Int)) ≤ d) :
    IsRounding .positive (n * 10 ^ d) (UnpackedFloat.ofScientific .binary64 n d) := by
  unfold UnpackedFloat.ofScientific
  rw [dif_neg positive.ne', if_neg (not_lt.mpr most), if_neg (not_lt.mpr least)]
  split
  · rename_i up
    have long : 2 ^ 52 ≤ n <<< 53 * 10 ^ d.toNat := by
      rw [Nat.shiftLeft_eq]
      calc
        2 ^ 52 ≤ 1 * 2 ^ 53 * 1 := by norm_num
        _ ≤ n * 2 ^ 53 * 10 ^ d.toNat :=
          Nat.mul_le_mul (Nat.mul_le_mul_right _ positive) (Nat.pow_pos (by decide))
    have product : ((n <<< 53 : Nat) : ℚ) * 2 ^ (-(53 : Nat) : Int) *
        ((10 ^ d.toNat : Nat) * 2 ^ (0 : Int)) = n * 10 ^ d := by
      have power : (10 : ℚ) ^ d = 10 ^ d.toNat := by
        rw [← zpow_natCast, Int.toNat_of_nonneg up]
      rw [Nat.shiftLeft_eq, power, zpow_neg, zpow_natCast, zpow_zero]
      push_cast
      field_simp
      norm_num
    rw [← product]
    refine isRounding_mul .positive .positive ?_
    exact (Nat.le_log2 (Nat.lt_of_lt_of_le (Nat.two_pow_pos 52) long).ne').mpr long
  · rename_i down
    have quotient : (n : ℚ) * 2 ^ (0 : Int) / ((10 ^ (-d).toNat : Nat) * 2 ^ (0 : Int)) =
        n * 10 ^ d := by
      rw [zpow_eq_inv 10 (by omega), zpow_zero]
      push_cast
      rw [mul_one, mul_one, div_eq_mul_inv]
    rw [← quotient]
    exact isRounding_div .positive .positive

theorem ofScientific_long_eq {n k : Nat} (down : Bool) (long : ¬ (n < 2 ^ 53 ∧ k ≤ 22)) :
    unpack (Float.ofScientific n down k) = UnpackedFloat.unpack .binary64 (UnpackedFloat.pack .binary64
      (UnpackedFloat.ofScientific .binary64 n (if down then -(k : Int) else k))) := by
  have exponent : (if down then Int.negOfNat k else Int.ofNat k) =
      if down then -(k : Int) else k := by
    cases down with
    | false => rfl
    | true => exact Int.negOfNat_eq
  unfold Float.ofScientific
  rw [dif_neg long]
  change UnpackedFloat.unpack .binary64 (UnpackedFloat.pack .binary64
    (UnpackedFloat.ofScientific .binary64 n _)) = _
  rw [exponent]

/-- A decimal is read as its nearest double. -/
theorem unpack_ofScientific {n k : Nat} {down : Bool} (canonical : Canonical m e)
    (rounds : RoundsTo m e (n * 10 ^ (if down then -(k : Int) else k))) :
    unpack (Float.ofScientific n down k) = .finite .positive m e canonical.positive := by
  have positive := pos_of_roundsTo rounds canonical
  by_cases short : n < 2 ^ 53 ∧ k ≤ 22
  · obtain ⟨u, rounding, read⟩ := ofScientific_short down positive short.1 (k := k) (by omega)
    rw [read, rounding.eq canonical rounds]
    exact canonical.unpack_pack .positive
  · obtain ⟨most, least⟩ := rounds.decimal_exponent canonical
    rw [ofScientific_long_eq down short,
      (isRounding_ofScientific positive most least).eq canonical rounds]
    exact canonical.unpack_pack .positive

end

end Emend.Number
