import Emend.Proofs.Number.Exact

/-!
Rounding to the nearest double. A mantissa with its residual bits stands for a number in units of its
last place, and shifting it loses nothing that rounding needs. So products, quotients and decimals
become the double in whose reach they lie.
-/

set_option autoImplicit false

namespace Emend.Number

open Float.Model (UnpackedFloat Format totalExponent)
open Float.Model.UnpackedFloat (Sign Accuracy ExtendedMantissa)

/-- The numbers that a mantissa with its residual bits stands for, in units of its last place. -/
def StandsFor : ExtendedMantissa → ℚ → Prop
  | ⟨m, false, false⟩, t => t = m
  | ⟨m, false, true⟩, t => m < t ∧ t < m + 1 / 2
  | ⟨m, true, false⟩, t => t = m + 1 / 2
  | ⟨m, true, true⟩, t => m + 1 / 2 < t ∧ t < m + 1

theorem StandsFor.shiftRightOne {em : ExtendedMantissa} {t : ℚ} (stands : StandsFor em t) :
    StandsFor em.shiftRightOne (t / 2) := by
  obtain ⟨m, half, rest⟩ := em
  obtain ⟨n, rfl | rfl⟩ := Nat.even_or_odd' m
  · have whole : 2 * n / 2 = n := by omega
    have even : 2 * n % 2 = 0 := by omega
    cases half <;> cases rest <;>
      simp only [StandsFor, ExtendedMantissa.shiftRightOne, whole, even, bne_self_eq_false,
        Bool.or_false, Bool.or_true, Bool.or_self] at stands ⊢ <;>
      push_cast at stands ⊢ <;> grind
  · have whole : (2 * n + 1) / 2 = n := by omega
    have odd : (2 * n + 1) % 2 = 1 := by omega
    cases half <;> cases rest <;>
      simp only [StandsFor, ExtendedMantissa.shiftRightOne, whole, odd,
        Bool.or_false, Bool.or_true, Bool.or_self] at stands ⊢ <;>
      push_cast at stands ⊢ <;> grind

theorem shiftRight_succ (em : ExtendedMantissa) (k : Nat) :
    em >>> (k + 1) = (em >>> k).shiftRightOne := rfl

theorem StandsFor.shiftRight {em : ExtendedMantissa} {t : ℚ} (stands : StandsFor em t) (k : Nat) :
    StandsFor (em >>> k) (t / 2 ^ k) := by
  induction k with
  | zero =>
      rw [pow_zero, div_one]
      exact stands
  | succ k ih =>
      rw [shiftRight_succ, pow_succ, ← div_div]
      exact ih.shiftRightOne

theorem StandsFor.bounds {em : ExtendedMantissa} {t : ℚ} (stands : StandsFor em t) :
    em.mantissa ≤ t ∧ t < em.mantissa + 1 := by
  obtain ⟨m, half, rest⟩ := em
  cases half <;> cases rest <;> simp only [StandsFor] at stands ⊢ <;> grind

/-- Rounding takes the nearest integer, and the even one of two that are equally near. -/
theorem StandsFor.rounded {em : ExtendedMantissa} {t : ℚ} {n : Nat} (stands : StandsFor em t)
    (near : |t - n| ≤ 1 / 2) (even : |t - n| = 1 / 2 → n % 2 = 0) : em.roundedMantissa = n := by
  obtain ⟨above, below⟩ := abs_le.mp near
  obtain ⟨least, greatest⟩ := stands.bounds
  have reached : em.mantissa < n + 1 := by
    have : (em.mantissa : ℚ) < n + 1 := by linarith
    exact_mod_cast this
  have within : n < em.mantissa + 2 := by
    have : (n : ℚ) < em.mantissa + 2 := by linarith
    exact_mod_cast this
  obtain ⟨m, half, rest⟩ := em
  dsimp only at reached within
  unfold ExtendedMantissa.roundedMantissa
  obtain rfl | rfl : n = m ∨ n = m + 1 := by omega
  · cases half <;> cases rest <;> simp only [StandsFor] at stands
    · rfl
    · rfl
    · have tie : |t - n| = 1 / 2 := by
        rw [stands]
        norm_num
      change n + n % 2 = n
      rw [even tie, Nat.add_zero]
    · linarith
  · push_cast at above below
    cases half <;> cases rest <;> simp only [StandsFor] at stands
    · linarith
    · linarith
    · have tie : |t - (m + 1 : Nat)| = 1 / 2 := by
        rw [stands]
        push_cast
        norm_num
      have odd := even tie
      change m + m % 2 = m + 1
      omega
    · rfl

theorem zpow_eq_div {a : ℚ} (nonzero : a ≠ 0) (k : Int) : a ^ k = a ^ k.toNat / a ^ (-k).toNat := by
  rw [← zpow_natCast, ← zpow_natCast, ← zpow_sub₀ nonzero]
  congr 1
  omega

theorem zpow_eq_inv (a : ℚ) {k : Int} (down : k ≤ 0) : a ^ k = (a ^ (-k).toNat)⁻¹ := by
  rw [← zpow_natCast, ← zpow_neg, Int.toNat_of_nonneg (by omega), neg_neg]

/-- A mantissa and an exponent that make up a double. -/
structure Canonical (m : Nat) (e : Int) : Prop where
  positive : 0 < m
  high : m < 2 ^ 53
  least : -1074 ≤ e
  greatest : e ≤ 971
  full : 2 ^ 52 ≤ m ∨ e = -1074

/-- How far below a mantissa numbers go up to it, in units of its last place. Below a power of two
doubles lie twice as dense. -/
def slack (m : Nat) : ℚ := if m = 2 ^ 52 then 1 / 4 else 1 / 2

/-- A number whose nearest double is `m * 2 ^ e`. From the middle between two doubles it is the one
with the even mantissa. -/
structure RoundsTo (m : Nat) (e : Int) (q : ℚ) : Prop where
  above : m - slack m ≤ q / 2 ^ e
  below : q / 2 ^ e ≤ m + 1 / 2
  inside : m % 2 = 1 → m - slack m < q / 2 ^ e ∧ q / 2 ^ e < m + 1 / 2

theorem slack_le (m : Nat) : slack m ≤ 1 / 2 := by
  unfold slack
  split <;> norm_num

theorem slack_positive (m : Nat) : 0 < slack m := by
  unfold slack
  split <;> norm_num

theorem roundsTo_self (m : Nat) (e : Int) : RoundsTo m e (m * 2 ^ e) := by
  have unit : (0 : ℚ) < 2 ^ e := by positivity
  have scaled : (m : ℚ) * 2 ^ e / 2 ^ e = m := mul_div_cancel_right₀ _ unit.ne'
  have gap := slack_positive m
  constructor
  · rw [scaled]
    linarith
  · rw [scaled]
    linarith
  · intro _
    rw [scaled]
    constructor <;> linarith

section
variable {m : Nat} {e : Int} {q : ℚ}

theorem RoundsTo.near (rounds : RoundsTo m e q) : |q / 2 ^ e - m| ≤ 1 / 2 := by
  have gap := slack_le m
  have above := rounds.above
  have below := rounds.below
  rw [abs_le]
  constructor <;> linarith

theorem RoundsTo.even_of_tie (rounds : RoundsTo m e q) (tie : |q / 2 ^ e - m| = 1 / 2) :
    m % 2 = 0 := by
  by_contra odd
  obtain ⟨above, below⟩ := rounds.inside (by omega)
  have gap := slack_le m
  have inside : |q / 2 ^ e - m| < 1 / 2 := by
    rw [abs_lt]
    constructor <;> linarith
  exact absurd tie inside.ne

/-- A number that is cut to fifty-three bits has the exponent of its double, or it is so close below
a power of two that it goes up to it. -/
theorem RoundsTo.exponent (rounds : RoundsTo m e q) (canonical : Canonical m e) {f : Int}
    (least : -1074 ≤ f) (short : q / 2 ^ f < 2 ^ 53) (full : f = -1074 ∨ 2 ^ 52 ≤ q / 2 ^ f) :
    f = e ∨ e = f + 1 ∧ m = 2 ^ 52 ∧ 2 ^ 53 - 1 / 2 ≤ q / 2 ^ f := by
  have above := rounds.above
  have below := rounds.below
  have gap := slack_le m
  have high : (m : ℚ) ≤ 2 ^ 53 - 1 := by
    have := canonical.high
    have : m + 1 ≤ 2 ^ 53 := by omega
    have : (m : ℚ) + 1 ≤ 2 ^ 53 := by exact_mod_cast this
    linarith
  have unit : (0 : ℚ) < 2 ^ (f - e) := by positivity
  have scaled : q / 2 ^ e = q / 2 ^ f * 2 ^ (f - e) := by
    rw [zpow_sub₀ two_ne_zero]
    field_simp
  rw [scaled] at above below
  rcases lt_trichotomy f e with shorter | same | longer
  · right
    have low : 2 ^ 52 ≤ m := canonical.full.resolve_right (by omega)
    have lowQ : (2 : ℚ) ^ 52 ≤ m := by exact_mod_cast low
    obtain next | further : f = e - 1 ∨ f ≤ e - 2 := by omega
    · have half : (2 : ℚ) ^ (f - e) = 1 / 2 := by
        rw [next, sub_sub_cancel_left]
        norm_num
      rw [half] at above below
      have least : m = 2 ^ 52 := by
        by_contra more
        have : 2 ^ 52 + 1 ≤ m := by omega
        have : (2 : ℚ) ^ 52 + 1 ≤ m := by exact_mod_cast this
        linarith
      refine ⟨by omega, least, ?_⟩
      have quarter : slack m = 1 / 4 := if_pos least
      rw [quarter, least] at above
      push_cast at above
      linarith
    · exfalso
      have quarter : (2 : ℚ) ^ (f - e) ≤ 2 ^ (-2 : Int) :=
        zpow_le_zpow_right₀ one_le_two (by omega)
      have : q / 2 ^ f * 2 ^ (f - e) < 2 ^ 51 := calc
        q / 2 ^ f * 2 ^ (f - e) < 2 ^ 53 * 2 ^ (f - e) := mul_lt_mul_of_pos_right short unit
        _ ≤ 2 ^ 53 * 2 ^ (-2 : Int) := mul_le_mul_of_nonneg_left quarter (by positivity)
        _ = 2 ^ 51 := by norm_num
      linarith
  · exact .inl same
  · exfalso
    have long : 2 ^ 52 ≤ q / 2 ^ f := full.resolve_left (by have := canonical.least; omega)
    have double : (2 : ℚ) ^ (1 : Int) ≤ 2 ^ (f - e) :=
      zpow_le_zpow_right₀ one_le_two (by omega)
    have : 2 ^ 53 ≤ q / 2 ^ f * 2 ^ (f - e) := calc
      (2 : ℚ) ^ 53 = 2 ^ 52 * 2 ^ (1 : Int) := by norm_num
      _ ≤ q / 2 ^ f * 2 ^ (f - e) :=
        mul_le_mul long double (by positivity) (le_trans (by positivity) long)
    linarith

end

theorem targetExponent_eq (m : Nat) (e : Int) :
    Format.binary64.targetExponent (totalExponent m e) = max ((m.log2 : Int) + e - 52) (-1074) := by
  unfold Format.targetExponent totalExponent
  change max (((m.log2 : Int) + 1 + e) - ((53 : Nat) : Int)) (-1074) = _
  omega

theorem shiftToTargetExponent_eq {m : Nat} {e f : Int} (a : Accuracy)
    (target : max ((m.log2 : Int) + e - 52) (-1074) = f) (within : e ≤ f) :
    UnpackedFloat.shiftToTargetExponent .binary64 m e a =
      (ExtendedMantissa.ofMantissaAndAccuracy m a >>> (f - e).toNat, f) := by
  unfold UnpackedFloat.shiftToTargetExponent UnpackedFloat.shiftToExponent
  simp only [targetExponent_eq, target, Prod.mk.injEq, true_and]
  omega

theorem shiftToTargetExponent_of_fits {m : Nat} {e : Int} (high : m < 2 ^ 53) (least : -1074 ≤ e) :
    UnpackedFloat.shiftToTargetExponent .binary64 m e .exact = (⟨m, false, false⟩, e) := by
  have bits : m.log2 ≤ 52 := by
    by_cases zero : m = 0
    · simp [zero]
    · have := (Nat.log2_lt zero).mpr high
      omega
  have amount : (max ((m.log2 : Int) + e - 52) (-1074) - e).toNat = 0 := by omega
  unfold UnpackedFloat.shiftToTargetExponent UnpackedFloat.shiftToExponent
  simp only [targetExponent_eq, amount, Int.natCast_zero, Int.add_zero]
  rfl

theorem shiftToTargetExponent_carry {f : Int} (least : -1074 ≤ f) :
    UnpackedFloat.shiftToTargetExponent .binary64 (2 ^ 53) f .exact =
      (⟨2 ^ 52, false, false⟩, f + 1) := by
  have carried := shiftToTargetExponent_exact (m := 2 ^ 52) (e := f + 1) 1 (le_refl _)
    (by decide) (by omega)
  rwa [← pow_add, Int.natCast_one, Int.add_sub_cancel] at carried

theorem mantissa_ofMantissaAndAccuracy (m : Nat) (a : Accuracy) :
    (ExtendedMantissa.ofMantissaAndAccuracy m a).mantissa = m := by
  rcases a with _ | (_ | _ | _) <;> rfl

section
variable {n k : Nat} {a : Accuracy} {t : ℚ} (stands : StandsFor (.ofMantissaAndAccuracy n a) t)
include stands

theorem StandsFor.cut_lt (bits : n.log2 ≤ 52 + k) : t / 2 ^ k < 2 ^ 53 := by
  have bounds := stands.bounds
  rw [mantissa_ofMantissaAndAccuracy] at bounds
  have : n + 1 ≤ 2 ^ (53 + k) :=
    le_trans Nat.lt_log2_self (Nat.pow_le_pow_right two_pos (by omega))
  have : (n : ℚ) + 1 ≤ 2 ^ (53 + k) := by exact_mod_cast this
  rw [div_lt_iff₀ (by positivity), ← pow_add]
  linarith

theorem StandsFor.le_cut (bits : n.log2 = 52 + k) : 2 ^ 52 ≤ t / 2 ^ k := by
  have bounds := stands.bounds
  rw [mantissa_ofMantissaAndAccuracy] at bounds
  have : 2 ^ (52 + k) ≤ n := by
    rw [← bits]
    refine Nat.log2_self_le fun zero => ?_
    rw [zero] at bits
    simp at bits
    omega
  have : (2 : ℚ) ^ (52 + k) ≤ n := by exact_mod_cast this
  rw [le_div_iff₀ (by positivity), ← pow_add]
  linarith

end

/-- What rounding starts with: the number cut to fifty-three bits, or to as many as the least exponent
leaves. -/
theorem StandsFor.exists_cut {n : Nat} {d : Int} {a : Accuracy} {q : ℚ}
    (stands : StandsFor (.ofMantissaAndAccuracy n a) (q / 2 ^ d)) (enough : 52 ≤ n.log2 ∨ d ≤ -1074) :
    ∃ em f, UnpackedFloat.shiftToTargetExponent .binary64 n d a = (em, f) ∧
      StandsFor em (q / 2 ^ f) ∧ -1074 ≤ f ∧ q / 2 ^ f < 2 ^ 53 ∧
      (f = -1074 ∨ 2 ^ 52 ≤ q / 2 ^ f) := by
  obtain ⟨f, target⟩ : ∃ f, max ((n.log2 : Int) + d - 52) (-1074) = f := ⟨_, rfl⟩
  obtain ⟨k, reached⟩ : ∃ k : Nat, f = d + k := ⟨(f - d).toNat, by omega⟩
  have amount : (f - d).toNat = k := by omega
  have first := shiftToTargetExponent_eq a target (by omega)
  rw [amount] at first
  have scaled : q / 2 ^ d / 2 ^ k = q / 2 ^ f := by
    rw [div_div, ← zpow_natCast, ← zpow_add₀ two_ne_zero, reached]
  have shifted := stands.shiftRight k
  rw [scaled] at shifted
  refine ⟨_, f, first, shifted, by omega, scaled ▸ stands.cut_lt (by omega), ?_⟩
  by_cases least : f = -1074
  · exact .inl least
  · exact .inr (scaled ▸ stands.le_cut (by omega))

/-- Fifty-three bits, or as many as the least exponent leaves, and what lies behind them decide to
which double a number is rounded. -/
theorem roundWithAccuracy_nearest (s : Sign) {n : Nat} {d : Int} {a : Accuracy} {m : Nat} {e : Int}
    {q : ℚ} (stands : StandsFor (.ofMantissaAndAccuracy n a) (q / 2 ^ d))
    (enough : 52 ≤ n.log2 ∨ d ≤ -1074) (canonical : Canonical m e) (rounds : RoundsTo m e q) :
    UnpackedFloat.roundWithAccuracy .binary64 s n d a = .finite s m e canonical.positive := by
  obtain ⟨em, f, first, cut, least, short, full⟩ := stands.exists_cut enough
  unfold UnpackedFloat.roundWithAccuracy
  rcases rounds.exponent canonical least short full with rfl | ⟨rfl, rfl, close⟩
  · have whole := cut.rounded rounds.near rounds.even_of_tie
    have second := shiftToTargetExponent_of_fits canonical.high canonical.least
    simp only [first, whole, second]
    exact dif_neg canonical.positive.ne'
  · have nearest : |q / 2 ^ f - (2 ^ 53 : Nat)| ≤ 1 / 2 := by
      push_cast
      rw [abs_le]
      constructor <;> linarith
    have whole := cut.rounded nearest (fun _ => rfl)
    have second := shiftToTargetExponent_carry least
    simp only [first, whole, second]
    exact dif_neg canonical.positive.ne'

/-- What a number becomes that is rounded once, from fifty-three bits of it, or from as many as the
least exponent leaves, and from what lies behind them. -/
def IsRounding (s : Sign) (q : ℚ) (u : UnpackedFloat) : Prop :=
  ∃ n d a, UnpackedFloat.roundWithAccuracy .binary64 s n d a = u ∧
    StandsFor (.ofMantissaAndAccuracy n a) (q / 2 ^ d) ∧ (52 ≤ n.log2 ∨ d ≤ -1074)

theorem IsRounding.eq {s : Sign} {q : ℚ} {u : UnpackedFloat} {m : Nat} {e : Int}
    (rounding : IsRounding s q u) (canonical : Canonical m e) (rounds : RoundsTo m e q) :
    u = .finite s m e canonical.positive := by
  obtain ⟨n, d, a, rfl, stands, enough⟩ := rounding
  exact roundWithAccuracy_nearest s stands enough canonical rounds

theorem unpack_pack_subnormal (s : Sign) {m : Nat} (positive : 0 < m) (high : m < 2 ^ 52) :
    UnpackedFloat.unpack .binary64 (UnpackedFloat.pack .binary64 (.finite s m (-1074) positive)) =
      .finite s m (-1074) positive := by
  have bits : m.log2 < 52 := (Nat.log2_lt positive.ne').mpr high
  have stored : (BitVec.ofNat 52 m).toNat = m := by
    rw [BitVec.toNat_ofNat, Nat.mod_eq_of_lt high]
  have filled : BitVec.ofNat 52 m ≠ 0#52 := by
    intro empty
    have same := congrArg BitVec.toNat empty
    rw [stored] at same
    exact positive.ne' same
  have short : ¬ m.log2 + 1 = Format.binary64.mantissaBits := by
    change ¬ m.log2 + 1 = 53
    omega
  unfold UnpackedFloat.pack
  dsimp only
  rw [if_neg (by decide), if_neg short]
  unfold UnpackedFloat.unpack
  simp only [UnpackedFloat.unpackMantissa_packComponents,
    UnpackedFloat.unpackExponent_packComponents, UnpackedFloat.unpackSign_packComponents,
    Sign.ofBitVec_toBitVec, filled, ↓reduceDIte, ↓reduceIte]
  rw [if_neg (by decide)]
  congr 1

theorem Canonical.unpack_pack (s : Sign) {m : Nat} {e : Int} (canonical : Canonical m e) :
    UnpackedFloat.unpack .binary64 (UnpackedFloat.pack .binary64
      (.finite s m e canonical.positive)) = .finite s m e canonical.positive := by
  by_cases low : 2 ^ 52 ≤ m
  · exact Number.unpack_pack s canonical.positive low canonical.high canonical.least
      canonical.greatest
  · obtain rfl : e = -1074 := canonical.full.resolve_left low
    exact unpack_pack_subnormal s canonical.positive (by omega)

section
variable {m₁ m₂ : Nat} {e₁ e₂ : Int} {positive₁ : 0 < m₁} {positive₂ : 0 < m₂}

theorem isRounding_mul (s t : Sign) (enough : 52 ≤ (m₁ * m₂).log2) :
    IsRounding (s * t) (m₁ * 2 ^ e₁ * (m₂ * 2 ^ e₂))
      (UnpackedFloat.mul .binary64 (.finite s m₁ e₁ positive₁) (.finite t m₂ e₂ positive₂)) := by
  refine ⟨m₁ * m₂, e₁ + e₂, .exact, rfl, ?_, .inl enough⟩
  change (m₁ : ℚ) * 2 ^ e₁ * (m₂ * 2 ^ e₂) / 2 ^ (e₁ + e₂) = (m₁ * m₂ : Nat)
  rw [zpow_add₀ two_ne_zero]
  push_cast
  field_simp

theorem standsFor_quotient (n : Nat) {d : Nat} (positive : 0 < d) :
    StandsFor (.ofMantissaAndAccuracy (n / d) (UnpackedFloat.accuracyOfFraction (n % d) d))
      (n / d) := by
  have scale : (0 : ℚ) < d := by exact_mod_cast positive
  have split : (n : ℚ) / d = (n / d : Nat) + (n % d : Nat) / d := by
    have := Nat.div_add_mod n d
    have : (d : ℚ) * (n / d : Nat) + (n % d : Nat) = n := by exact_mod_cast this
    field_simp
    linarith
  have less : ((n % d : Nat) : ℚ) < d := by exact_mod_cast Nat.mod_lt n positive
  rw [split]
  unfold UnpackedFloat.accuracyOfFraction
  by_cases exact : n % d = 0
  · rw [if_pos exact, exact]
    simp [StandsFor, ExtendedMantissa.ofMantissaAndAccuracy]
  · have left : (0 : ℚ) < (n % d : Nat) := by exact_mod_cast Nat.pos_of_ne_zero exact
    rw [if_neg exact]
    rcases Nat.lt_trichotomy (2 * (n % d)) d with below | middle | above
    · rw [Nat.compare_eq_lt.mpr below]
      have : 2 * ((n % d : Nat) : ℚ) < d := by exact_mod_cast below
      have : ((n % d : Nat) : ℚ) / d < 1 / 2 := by
        rw [div_lt_div_iff₀ scale two_pos]
        linarith
      exact ⟨lt_add_of_pos_right _ (by positivity), by linarith⟩
    · rw [Nat.compare_eq_eq.mpr middle]
      have : 2 * ((n % d : Nat) : ℚ) = d := by exact_mod_cast middle
      have : ((n % d : Nat) : ℚ) / d = 1 / 2 := by
        rw [div_eq_div_iff scale.ne' two_ne_zero]
        linarith
      change _ = _
      rw [this]
    · rw [Nat.compare_eq_gt.mpr above]
      have : (d : ℚ) < 2 * (n % d : Nat) := by exact_mod_cast above
      have : 1 / 2 < ((n % d : Nat) : ℚ) / d := by
        rw [div_lt_div_iff₀ two_pos scale]
        linarith
      have : ((n % d : Nat) : ℚ) / d < 1 := (div_lt_one scale).mpr less
      constructor <;> linarith

theorem isRounding_div (s t : Sign) :
    IsRounding (s / t) (m₁ * 2 ^ e₁ / (m₂ * 2 ^ e₂))
      (UnpackedFloat.div .binary64 (.finite s m₁ e₁ positive₁) (.finite t m₂ e₂ positive₂)) := by
  obtain ⟨d, target⟩ : ∃ d, min (e₁ - e₂) (Format.binary64.targetExponent
      (totalExponent m₁ e₁ - totalExponent m₂ e₂)) = d := ⟨_, rfl⟩
  have bounds := target
  unfold Format.targetExponent totalExponent at bounds
  change min (e₁ - e₂) (max (((m₁.log2 : Int) + 1 + e₁ - ((m₂.log2 : Int) + 1 + e₂)) -
    ((53 : Nat) : Int)) (-1074)) = d at bounds
  obtain ⟨k, reached⟩ : ∃ k : Nat, e₁ - e₂ = d + k := ⟨(e₁ - e₂ - d).toNat, by omega⟩
  have amount : (e₁ - e₂ - d).toNat = k := by omega
  have scaled : (m₁ : ℚ) * 2 ^ e₁ / (m₂ * 2 ^ e₂) / 2 ^ d = (m₁ * 2 ^ k : Nat) / m₂ := by
    have : (2 : ℚ) ^ e₁ = 2 ^ d * 2 ^ k * 2 ^ e₂ := by
      rw [← zpow_natCast, ← zpow_add₀ two_ne_zero, ← zpow_add₀ two_ne_zero]
      congr 1
      omega
    have : (0 : ℚ) < m₂ := by exact_mod_cast positive₂
    rw [‹(2 : ℚ) ^ e₁ = _›]
    push_cast
    field_simp
  have enough : 52 ≤ (m₁ * 2 ^ k / m₂).log2 ∨ d ≤ -1074 := by
    by_cases least : d ≤ -1074
    · exact .inr least
    · left
      have long : 53 + m₂.log2 ≤ m₁.log2 + k := by omega
      have quotient : 2 ^ 52 ≤ m₁ * 2 ^ k / m₂ := by
        rw [Nat.le_div_iff_mul_le positive₂]
        calc
          2 ^ 52 * m₂ ≤ 2 ^ 52 * 2 ^ (m₂.log2 + 1) :=
            Nat.mul_le_mul_left _ (Nat.le_of_lt Nat.lt_log2_self)
          _ = 2 ^ (53 + m₂.log2) := by
            rw [← Nat.pow_add]
            congr 1
            omega
          _ ≤ 2 ^ (m₁.log2 + k) := Nat.pow_le_pow_right two_pos long
          _ = 2 ^ m₁.log2 * 2 ^ k := Nat.pow_add 2 _ _
          _ ≤ m₁ * 2 ^ k := Nat.mul_le_mul_right _ (Nat.log2_self_le positive₁.ne')
      exact (Nat.le_log2 (by omega)).mpr quotient
  have stands := standsFor_quotient (m₁ * 2 ^ k) positive₂
  rw [← scaled] at stands
  refine ⟨_, d, _, ?_, stands, enough⟩
  unfold UnpackedFloat.div UnpackedFloat.divCore
  simp only [target, amount, Nat.shiftLeft_eq]

end

end Emend.Number
