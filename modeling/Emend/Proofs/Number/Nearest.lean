import Emend.Number.Reading
import Emend.Proofs.Number.Whole

/-!
Every decimal becomes a double that is near to it: one to which it rounds, or among the least doubles
one that is no more than half a unit of the last place away.
-/

set_option autoImplicit false

namespace Emend.Number

open Float.Model (UnpackedFloat)
open Float.Model.UnpackedFloat (Sign ExtendedMantissa)

/-- A mantissa that residual bits are rounded into is as near as an integer can be, and even where two
are. -/
theorem StandsFor.near_roundedMantissa {em : ExtendedMantissa} {t : ℚ} (stands : StandsFor em t) :
    |t - em.roundedMantissa| ≤ 1 / 2 ∧
      (|t - em.roundedMantissa| = 1 / 2 → em.roundedMantissa % 2 = 0) := by
  obtain ⟨m, half, rest⟩ := em
  cases half <;> cases rest <;> simp only [StandsFor] at stands
  · change |t - m| ≤ 1 / 2 ∧ (|t - m| = 1 / 2 → m % 2 = 0)
    rw [stands, sub_self, abs_zero]
    norm_num
  · change |t - m| ≤ 1 / 2 ∧ (|t - m| = 1 / 2 → m % 2 = 0)
    have inside : |t - m| < 1 / 2 := by
      rw [abs_lt]
      constructor <;> linarith
    exact ⟨inside.le, fun tie => absurd tie inside.ne⟩
  · change |t - (m + m % 2 : Nat)| ≤ 1 / 2 ∧ (|t - (m + m % 2 : Nat)| = 1 / 2 → (m + m % 2) % 2 = 0)
    refine ⟨?_, fun _ => by omega⟩
    obtain even | odd := Nat.mod_two_eq_zero_or_one m
    · rw [even, stands]
      norm_num
    · rw [odd, stands]
      push_cast
      norm_num
  · change |t - (m + 1 : Nat)| ≤ 1 / 2 ∧ (|t - (m + 1 : Nat)| = 1 / 2 → (m + 1) % 2 = 0)
    have inside : |t - (m + 1 : Nat)| < 1 / 2 := by
      push_cast
      rw [abs_lt]
      constructor <;> linarith
    exact ⟨inside.le, fun tie => absurd tie inside.ne⟩

/-- A mantissa and an exponent as a number is rounded to them. -/
structure Approximates (m : Nat) (e : Int) (q : ℚ) : Prop where
  high : m < 2 ^ 53
  least : -1074 ≤ e
  full : 2 ^ 52 ≤ m ∨ e = -1074
  near : RoundsTo m e q ∨ e = -1074 ∧ |q / 2 ^ e - m| ≤ 1 / 2

/-- What a positive number may be rounded to. -/
def IsNearest (q : ℚ) : UnpackedFloat → Prop
  | .finite s m e _ => s = .positive ∧ Approximates m e q
  | .zero s => s = .positive ∧ q ≤ 2 ^ (-1075 : Int)
  | .infinity s => s = .positive
  | .notANumber => False

section
variable {q : ℚ} {r : Nat} {f : Int}

theorem roundsTo_of_near (full : 2 ^ 52 ≤ q / 2 ^ f) (near : |q / 2 ^ f - r| ≤ 1 / 2)
    (even : |q / 2 ^ f - r| = 1 / 2 → r % 2 = 0) : RoundsTo r f q := by
  obtain ⟨above, below⟩ := abs_le.mp near
  refine ⟨?_, by linarith, fun odd => ?_⟩
  · unfold slack
    split
    · rename_i least
      rw [least]
      push_cast
      linarith
    · linarith
  · have differ : r ≠ 2 ^ 52 := by
      rintro rfl
      simp at odd
    have half : slack r = 1 / 2 := if_neg differ
    have inside : |q / 2 ^ f - r| < 1 / 2 := lt_of_le_of_ne near fun tie => by
      have := even tie
      omega
    rw [abs_lt] at inside
    rw [half]
    constructor <;> linarith

theorem roundsTo_carry (short : q / 2 ^ f < 2 ^ 53) (close : 2 ^ 53 - 1 / 2 ≤ q / 2 ^ f) :
    RoundsTo (2 ^ 52) (f + 1) q := by
  have halved : q / 2 ^ (f + 1) = q / 2 ^ f / 2 := by
    rw [zpow_add₀ two_ne_zero, zpow_one, div_div]
  have quarter : slack (2 ^ 52) = 1 / 4 := if_pos rfl
  constructor
  · rw [halved, quarter]
    push_cast
    linarith
  · rw [halved]
    push_cast
    linarith
  · intro odd
    simp at odd

end

theorem unit_le : (2 : ℚ) ^ (-1074 : Int) ≤ 1 / 2 ^ 60 := calc
  (2 : ℚ) ^ (-1074 : Int) ≤ 2 ^ (-60 : Int) := zpow_le_zpow_right₀ one_le_two (by decide)
  _ = 1 / 2 ^ 60 := by norm_num

theorem half_unit_le : (2 : ℚ) ^ (-1075 : Int) ≤ 1 / 2 := calc
  (2 : ℚ) ^ (-1075 : Int) ≤ 2 ^ (-1 : Int) := zpow_le_zpow_right₀ one_le_two (by decide)
  _ = 1 / 2 := by norm_num

theorem le_half_unit {q : ℚ} (below : q / 2 ^ (-1074 : Int) ≤ 1 / 2) : q ≤ 2 ^ (-1075 : Int) := by
  have unit : (0 : ℚ) < 2 ^ (-1074 : Int) := by positivity
  have half : (2 : ℚ) ^ (-1075 : Int) = 1 / 2 * 2 ^ (-1074 : Int) := by
    rw [show (-1075 : Int) = -1 + -1074 by norm_num, zpow_add₀ two_ne_zero]
    norm_num
  rw [half]
  exact (div_le_iff₀ unit).mp below

theorem IsRounding.isNearest {q : ℚ} {u : UnpackedFloat} (rounding : IsRounding .positive q u) :
    IsNearest q u := by
  obtain ⟨n, d, a, rfl, stands, enough⟩ := rounding
  obtain ⟨em, f, first, cut, least, short, full⟩ := stands.exists_cut enough
  obtain ⟨near, even⟩ := cut.near_roundedMantissa
  obtain ⟨r, rounded⟩ : ∃ r, em.roundedMantissa = r := ⟨_, rfl⟩
  rw [rounded] at near even
  obtain ⟨above, below⟩ := abs_le.mp near
  unfold UnpackedFloat.roundWithAccuracy
  have within : r ≤ 2 ^ 53 := by
    have : (r : ℚ) < 2 ^ 53 + 1 := by linarith
    exact Nat.le_of_lt_succ (by exact_mod_cast this)
  have filled : f = -1074 ∨ 2 ^ 52 ≤ r := full.imp_right fun full => by
    have : (2 : ℚ) ^ 52 < r + 1 := by linarith
    exact Nat.le_of_lt_succ (by exact_mod_cast this)
  rcases Nat.lt_or_eq_of_le within with fits | rfl
  · have second := shiftToTargetExponent_of_fits fits least
    simp only [first, rounded, second]
    split
    · rename_i none
      obtain rfl : r = 0 := none
      obtain rfl : f = -1074 := filled.resolve_right (by decide)
      rw [Nat.cast_zero, sub_zero] at below
      exact ⟨rfl, le_half_unit below⟩
    · refine ⟨rfl, fits, least, filled.symm, ?_⟩
      rcases full with lowest | full
      · exact .inr ⟨lowest, near⟩
      · exact .inl (roundsTo_of_near full near even)
  · have second := shiftToTargetExponent_carry least
    simp only [first, rounded, second]
    refine ⟨rfl, by decide, by omega, .inl (Nat.le_refl _), .inl (roundsTo_carry short ?_)⟩
    push_cast at above
    linarith

theorem IsNearest.unpack_pack {q : ℚ} {u : UnpackedFloat} (nearest : IsNearest q u) :
    IsNearest q (UnpackedFloat.unpack .binary64 (UnpackedFloat.pack .binary64 u)) := by
  cases u with
  | notANumber => cases nearest
  | zero s =>
      obtain ⟨rfl, small⟩ := nearest
      exact ⟨rfl, small⟩
  | infinity s =>
      rw [unpack_pack_infinity]
      exact nearest
  | finite s m e positive =>
      obtain ⟨rfl, approximates⟩ := nearest
      by_cases greatest : e ≤ 971
      · have canonical : Canonical m e :=
          ⟨positive, approximates.high, approximates.least, greatest, approximates.full⟩
        rw [canonical.unpack_pack]
        exact ⟨rfl, approximates⟩
      · rw [unpack_pack_overflow .positive positive (by omega)]
        rfl

theorem unpack_ofScientific_zero (k : Nat) (down : Bool) :
    unpack (Float.ofScientific 0 down k) = .zero .positive := by
  by_cases short : 0 < 2 ^ 53 ∧ k ≤ 22
  · have listed : k < 23 := by omega
    obtain ⟨m, e, positive, power, -⟩ := of_isPower (powers_exact ⟨k, listed⟩)
    have found : unpack (Float.exactlyRepresentablePowersOfTen[k]) = .finite .positive m e positive :=
      power
    have zero : unpack (0 : Nat).toUInt64.toFloat = .zero .positive := rfl
    have product : UnpackedFloat.mul .binary64 (.zero .positive) (.finite .positive m e positive) =
        .zero .positive := rfl
    have quotient : UnpackedFloat.div .binary64 (.zero .positive) (.finite .positive m e positive) =
        .zero .positive := rfl
    unfold Float.ofScientific
    rw [dif_pos short]
    cases down with
    | false =>
        change UnpackedFloat.unpack .binary64 (UnpackedFloat.pack .binary64
          (UnpackedFloat.mul .binary64 (unpack (0 : Nat).toUInt64.toFloat)
            (unpack (Float.exactlyRepresentablePowersOfTen[k])))) = _
        rw [zero, found, product]
        rfl
    | true =>
        change UnpackedFloat.unpack .binary64 (UnpackedFloat.pack .binary64
          (UnpackedFloat.div .binary64 (unpack (0 : Nat).toUInt64.toFloat)
            (unpack (Float.exactlyRepresentablePowersOfTen[k])))) = _
        rw [zero, found, quotient]
        rfl
  · have nothing (d : Int) : UnpackedFloat.ofScientific .binary64 0 d = .zero .positive := rfl
    rw [ofScientific_long_eq down short, nothing]
    rfl

/-- A decimal is read as a double that is near to it. -/
theorem isNearest_ofScientific (n k : Nat) (down : Bool) :
    IsNearest (n * 10 ^ (if down then -(k : Int) else k)) (unpack (Float.ofScientific n down k)) := by
  rcases Nat.eq_zero_or_pos n with rfl | positive
  · rw [unpack_ofScientific_zero, Nat.cast_zero, zero_mul]
    exact ⟨rfl, by positivity⟩
  · by_cases short : n < 2 ^ 53 ∧ k ≤ 22
    · obtain ⟨u, rounding, read⟩ := ofScientific_short down positive short.1 (k := k) (by omega)
      rw [read]
      exact rounding.isNearest.unpack_pack
    · rw [ofScientific_long_eq down short]
      generalize (if down then -(k : Int) else k) = d
      apply IsNearest.unpack_pack
      by_cases most : d ≤ 2 ^ 11
      · by_cases least : -(2 ^ 11 + (n.log2 : Int)) ≤ d
        · exact (isRounding_ofScientific positive most least).isNearest
        · unfold UnpackedFloat.ofScientific
          rw [dif_neg positive.ne', if_neg (not_lt.mpr most), if_pos (not_le.mp least)]
          exact ⟨rfl, (decimal_lt_least (not_le.mp least)).le⟩
      · unfold UnpackedFloat.ofScientific
        rw [dif_neg positive.ne', if_pos (not_le.mp most)]
        rfl

theorem isNearest_ofDecimal (n : Nat) (d : Int) :
    IsNearest (n * 10 ^ d) (unpack (ofDecimal n d)) := by
  have exponent : (if decide (d < 0) then -(d.natAbs : Int) else d.natAbs) = d := by
    simp only [decide_eq_true_eq]
    split <;> omega
  have nearest := isNearest_ofScientific n d.natAbs (d < 0)
  rwa [exponent] at nearest

section
variable {m : Nat} {e : Int} {q r t : ℚ}

theorem RoundsTo.between (first : RoundsTo m e q) (last : RoundsTo m e t) (above : q ≤ r)
    (below : r ≤ t) : RoundsTo m e r := by
  have unit : (0 : ℚ) ≤ 2 ^ e := by positivity
  have lower := div_le_div_of_nonneg_right above unit
  have upper := div_le_div_of_nonneg_right below unit
  exact ⟨first.above.trans lower, upper.trans last.below,
    fun odd => ⟨(first.inside odd).1.trans_le lower, upper.trans_lt (last.inside odd).2⟩⟩

end

theorem isNearest_ofNat (n : Nat) : IsNearest n (unpack (Float.ofNat n)) := by
  have scientific := isNearest_ofScientific n 0 false
  rwa [if_neg (by decide), Int.natCast_zero, zpow_zero, mul_one] at scientific

theorem roundsTo_of_unpack_ofNat {n m : Nat} {s : Sign} {e : Int} {positive : 0 < m} (some : 0 < n)
    (unpacked : unpack (Float.ofNat n) = .finite s m e positive) :
    s = .positive ∧ RoundsTo m e n := by
  have nearest := isNearest_ofNat n
  rw [unpacked] at nearest
  obtain ⟨rfl, approximates⟩ := nearest
  refine ⟨rfl, approximates.near.resolve_right ?_⟩
  rintro ⟨rfl, near⟩
  -- The least doubles are less than one.
  have one : (1 : ℚ) ≤ n := by exact_mod_cast some
  have unit : (0 : ℚ) < 2 ^ (-1074 : Int) := by positivity
  have short : (m : ℚ) < 2 ^ 53 := by exact_mod_cast approximates.high
  have small : (n : ℚ) / 2 ^ (-1074 : Int) ≤ 2 ^ 54 := by linarith [(abs_le.mp near).2]
  have : (n : ℚ) ≤ 2 ^ 54 * (1 / 2 ^ 60) :=
    ((div_le_iff₀ unit).mp small).trans (mul_le_mul_of_nonneg_left unit_le (by positivity))
  norm_num at this
  linarith

theorem exists_unpack_ofNat {n : Nat} (some : 0 < n) (within : n < 2 ^ 64) :
    ∃ m e, ∃ positive : 0 < m, unpack (Float.ofNat n) = .finite .positive m e positive := by
  have whole := isIntegral_ofNat within
  have nearest := isNearest_ofNat n
  unfold isIntegral at whole
  cases unpacked : unpack (Float.ofNat n) with
  | notANumber | infinity s =>
      rw [unpacked] at whole
      cases whole
  | zero s =>
      rw [unpacked] at nearest
      have one : (1 : ℚ) ≤ n := by exact_mod_cast some
      linarith [nearest.2, half_unit_le]
  | finite s m e positive =>
      obtain ⟨rfl, -⟩ := roundsTo_of_unpack_ofNat some unpacked
      exact ⟨m, e, positive, rfl⟩

theorem unpack_ofNat_between {a b c m : Nat} {s : Sign} {e : Int} {positive : 0 < m} (some : 0 < a)
    (above : a ≤ b) (below : b ≤ c) (first : unpack (Float.ofNat a) = .finite s m e positive)
    (last : unpack (Float.ofNat c) = .finite s m e positive) :
    unpack (Float.ofNat b) = .finite s m e positive := by
  obtain ⟨rfl, rounds⟩ := roundsTo_of_unpack_ofNat some first
  obtain ⟨-, rounds'⟩ := roundsTo_of_unpack_ofNat (show 0 < c by omega) last
  have between : RoundsTo m e (b * 10 ^ (if false then -((0 : Nat) : Int) else (0 : Nat))) := by
    rw [if_neg (by decide), Int.natCast_zero, zpow_zero, mul_one]
    exact rounds.between rounds' (by exact_mod_cast above) (by exact_mod_cast below)
  exact unpack_ofScientific (canonical_of_unpack first) between

theorem unpack_eq_of_beq {x y : Float} (equal : x == y) {s : Sign} {m : Nat} {e : Int}
    {positive : 0 < m} (unpacked : unpack x = .finite s m e positive) : unpack y = unpack x := by
  obtain ⟨-, -, rfl | ⟨rfl, rfl⟩ | ⟨rfl, rfl⟩⟩ := Float.beq_iff_ne_nan_and_eq.mp equal
  · rfl
  · cases unpacked
  · cases unpacked

theorem unpack_neg_infinite {x : Float} {s : Sign} (unpacked : unpack x = .infinity s) :
    unpack x.neg = .infinity (-s) := by
  change UnpackedFloat.unpack .binary64 (UnpackedFloat.pack .binary64 (unpack x).neg) = _
  rw [unpacked]
  exact unpack_pack_infinity (-s)

theorem unpack_neg_notANumber {x : Float} (unpacked : unpack x = .notANumber) :
    unpack x.neg = .notANumber := by
  change UnpackedFloat.unpack .binary64 (UnpackedFloat.pack .binary64 (unpack x).neg) = _
  rw [unpacked]
  rfl

theorem unpack_of_neg {x : Float} {s : Sign} {m : Nat} {e : Int} {positive : 0 < m}
    (negated : unpack x.neg = .finite s m e positive) : unpack x = .finite (-s) m e positive := by
  cases unpacked : unpack x with
  | notANumber =>
      rw [unpack_neg_notANumber unpacked] at negated
      cases negated
  | infinity t =>
      rw [unpack_neg_infinite unpacked] at negated
      cases negated
  | zero t =>
      rw [unpack_neg_zero unpacked] at negated
      cases negated
  | finite t m e =>
      rw [unpack_neg unpacked] at negated
      cases negated
      cases t <;> rfl

/-- If an integer of at most sixty-four bits shares its double with a lower one, it does so with all
between them. -/
theorem ofInt_beq_between {i j n : Int} (above : i ≤ j) (below : j ≤ n) (within : n.natAbs < 2 ^ 64)
    (equal : Float.ofInt i == Float.ofInt n) : Float.ofInt j == Float.ofInt n := by
  have lone (same : i = n) : Float.ofInt j == Float.ofInt n := by
    obtain rfl : j = n := by omega
    exact ofInt_beq_self j
  rcases Nat.lt_or_ge n.natAbs (2 ^ 53) with short | long
  · rw [ofInt_beq_of_short short] at equal
    exact lone (of_decide_eq_true equal)
  rcases Nat.lt_or_ge i.natAbs (2 ^ 53) with short | long'
  · rw [ofInt_beq_comm, ofInt_beq_of_short short] at equal
    exact lone (of_decide_eq_true equal).symm
  rw [ofInt_beq_comm] at equal
  -- Neither is zero, and their doubles have one sign, so they have one sign too.
  rcases le_or_gt 0 n with nonneg | negative
  · obtain ⟨c, rfl⟩ := Int.eq_ofNat_of_zero_le nonneg
    obtain ⟨m, e, positive, last⟩ := exists_unpack_ofNat (show 0 < c by omega) (by omega)
    have first := (unpack_eq_of_beq equal last).trans last
    rcases le_or_gt 0 i with nonneg | negative
    · obtain ⟨a, rfl⟩ := Int.eq_ofNat_of_zero_le nonneg
      obtain ⟨b, rfl⟩ := Int.eq_ofNat_of_zero_le (show 0 ≤ j by omega)
      have middle := unpack_ofNat_between (show 0 < a by omega) (show a ≤ b by omega)
        (show b ≤ c by omega) first last
      have same : Float.ofNat b = Float.ofNat c := eq_of_unpack (middle.trans last.symm)
      change Float.ofNat b == Float.ofNat c
      rw [same]
      exact ofInt_beq_self c
    · obtain ⟨a, rfl⟩ := Int.eq_negSucc_of_lt_zero negative
      cases (roundsTo_of_unpack_ofNat (Nat.succ_pos a) (unpack_of_neg first)).1
  · obtain ⟨c, rfl⟩ := Int.eq_negSucc_of_lt_zero negative
    obtain ⟨b, rfl⟩ := Int.eq_negSucc_of_lt_zero (show j < 0 by omega)
    obtain ⟨a, rfl⟩ := Int.eq_negSucc_of_lt_zero (show i < 0 by omega)
    obtain ⟨m, e, positive, last⟩ := exists_unpack_ofNat (Nat.succ_pos c) (by omega)
    have negated : unpack (Float.ofInt (.negSucc c)) = .finite .negative m e positive :=
      unpack_neg last
    have first : unpack (Float.ofNat (a + 1)) = .finite .positive m e positive :=
      unpack_of_neg ((unpack_eq_of_beq equal negated).trans negated)
    have middle := unpack_ofNat_between (Nat.succ_pos c) (show c + 1 ≤ b + 1 by omega)
      (show b + 1 ≤ a + 1 by omega) last first
    have same : Float.ofNat (b + 1) = Float.ofNat (c + 1) := eq_of_unpack (middle.trans last.symm)
    change (Float.ofNat (b + 1)).neg == (Float.ofNat (c + 1)).neg
    rw [same]
    exact ofInt_beq_self (.negSucc c)

theorem magnitude_eq_floor (s : Sign) (m k : Nat) :
    (Rounding.halfAway.magnitude s m k : Int) = ⌊(m : ℚ) / 2 ^ k + 1 / 2⌋ := by
  have unit : 0 < 2 ^ k := Nat.two_pow_pos k
  have rounded : Rounding.halfAway.magnitude s m k =
      if 2 ^ k ≤ 2 * (m % 2 ^ k) then m / 2 ^ k + 1 else m / 2 ^ k := by
    unfold Rounding.magnitude
    simp
  have quotient : (2 * m + 2 ^ k) / (2 * 2 ^ k) = Rounding.halfAway.magnitude s m k := by
    have parts := Nat.div_add_mod m (2 ^ k)
    have less := Nat.mod_lt m unit
    rw [rounded]
    generalize m / 2 ^ k = whole at *
    generalize m % 2 ^ k = part at *
    generalize 2 ^ k = u at *
    have sum : 2 * m + u = 2 * u * whole + (2 * part + u) := by
      rw [← parts]
      ring
    rw [sum, Nat.mul_add_div (by omega)]
    split
    · rw [Nat.div_eq_of_lt_le (show 1 * (2 * u) ≤ 2 * part + u by omega) (by omega)]
    · rw [Nat.div_eq_of_lt (by omega), Nat.add_zero]
  have sum : (m : ℚ) / 2 ^ k + 1 / 2 = ((2 * m + 2 ^ k : Nat) : ℚ) / ((2 * 2 ^ k : Nat) : ℚ) := by
    push_cast
    field_simp
  rw [← quotient, sum, Rat.floor_natCast_div_natCast, Int.natCast_div]

theorem magnitude_halfAway (s : Sign) (m k : Nat) :
    |(Rounding.halfAway.magnitude s m k : ℚ) - m / 2 ^ k| ≤ 1 / 2 := by
  have least := Int.floor_le ((m : ℚ) / 2 ^ k + 1 / 2)
  have most := Int.lt_floor_add_one ((m : ℚ) / 2 ^ k + 1 / 2)
  rw [← magnitude_eq_floor s, Int.cast_natCast] at least most
  rw [abs_le]
  constructor <;> linarith

/-- An integer that a number is taken for by way of its double: less than one away, and no further than
one half but for what the double is off. -/
structure Neighbours (q : ℚ) (y : Int) : Prop where
  close : |y - q| ≤ 1 / 2 + |q| / 2 ^ 52
  next : |y - q| < 1

section
variable {m : Nat} {e : Int} {q : ℚ}

theorem Approximates.distance (approximates : Approximates m e q) : |q / 2 ^ e - m| ≤ 1 / 2 :=
  approximates.near.elim RoundsTo.near And.right

theorem neighbours_zero (nonneg : 0 ≤ q) (small : q ≤ 1 / 2) : Neighbours q 0 := by
  have distance : |((0 : Int) : ℚ) - q| = q := by
    rw [Int.cast_zero, zero_sub, abs_neg, abs_of_nonneg nonneg]
  constructor
  · rw [distance, abs_of_nonneg nonneg]
    linarith [show 0 ≤ q / 2 ^ 52 by positivity]
  · rw [distance]
    linarith

theorem Approximates.neighbours (approximates : Approximates m e q) (nonneg : 0 ≤ q)
    (fraction : e < 0) (s : Sign) :
    Neighbours q (Rounding.halfAway.magnitude s m (-e).toNat : Nat) := by
  have unit : (0 : ℚ) < 2 ^ e := by positivity
  have power : (2 : ℚ) ^ e = 1 / 2 ^ (-e).toNat := by
    rw [zpow_eq_div two_ne_zero, show e.toNat = 0 by omega, pow_zero]
  have rounded := magnitude_halfAway s m (-e).toNat
  have scaled : (m : ℚ) / 2 ^ (-e).toNat = m * 2 ^ e := by rw [power, mul_one_div]
  rw [scaled] at rounded
  have distance : |q - m * 2 ^ e| ≤ 1 / 2 * 2 ^ e := by
    have := mul_le_mul_of_nonneg_right approximates.distance unit.le
    rwa [← abs_of_pos unit, ← abs_mul, abs_of_pos unit, sub_mul, div_mul_cancel₀ q unit.ne'] at this
  obtain ⟨lower, upper⟩ := abs_le.mp distance
  obtain ⟨least, greatest⟩ := abs_le.mp rounded
  generalize Rounding.halfAway.magnitude s m (-e).toNat = N at least greatest ⊢
  rcases approximates.full with full | rfl
  · have half : (2 : ℚ) ^ e ≤ 2 ^ (-1 : Int) := zpow_le_zpow_right₀ one_le_two (by omega)
    have fullQ : (2 : ℚ) ^ 52 ≤ m := by exact_mod_cast full
    have long : (2 : ℚ) ^ 51 * 2 ^ e ≤ q := by
      rw [← le_div_iff₀ unit]
      linarith [(abs_le.mp approximates.distance).1]
    have within : |(N : ℚ) - q| ≤ 1 / 2 + 1 / 2 * 2 ^ e := by
      rw [abs_le]
      constructor <;> linarith
    rw [show (2 : ℚ) ^ (-1 : Int) = 1 / 2 by norm_num] at half
    constructor
    · rw [Int.cast_natCast, abs_of_nonneg nonneg]
      linarith
    · rw [Int.cast_natCast]
      linarith
  · -- The least doubles are so close to zero that nothing else is near.
    have tiny := unit_le
    have short : (m : ℚ) ≤ 2 ^ 53 := by exact_mod_cast approximates.high.le
    have small : (m : ℚ) * 2 ^ (-1074 : Int) ≤ 2 ^ 53 * (1 / 2 ^ 60) :=
      mul_le_mul short tiny unit.le (by positivity)
    have none : N = 0 := by
      have : (N : ℚ) < 1 := by linarith
      exact Nat.lt_one_iff.mp (by exact_mod_cast this)
    rw [none]
    exact neighbours_zero nonneg (by linarith)

theorem IsNearest.neighbours {x : Float} {y : Int} (nearest : IsNearest q (unpack x)) (nonneg : 0 ≤ q)
    (rounded : roundInt? .halfAway x = some y) (short : y.natAbs < 2 ^ 53) : Neighbours q y := by
  unfold roundInt? at rounded
  split at rounded
  · rename_i s unpacked
    rw [unpacked] at nearest
    cases rounded
    exact neighbours_zero nonneg (nearest.2.trans half_unit_le)
  · rename_i s m e positive unpacked
    rw [unpacked] at nearest
    obtain ⟨rfl, approximates⟩ := nearest
    rcases lt_trichotomy e 0 with fraction | rfl | above
    · unfold Rounding.integer at rounded
      rw [if_neg (by omega)] at rounded
      cases rounded
      exact approximates.neighbours nonneg fraction .positive
    · have whole : y = m := by
        unfold Rounding.integer at rounded
        rw [if_pos (le_refl 0)] at rounded
        cases rounded
        exact congrArg Nat.cast (Nat.mul_one m)
      have distance := approximates.distance
      rw [zpow_zero, div_one, abs_sub_comm] at distance
      rw [whole]
      constructor
      · rw [Int.cast_natCast]
        linarith [show 0 ≤ |q| / 2 ^ 52 by positivity]
      · rw [Int.cast_natCast]
        linarith
    · have long : IsLong (e + 51).toNat (unpack x) := by
        rw [unpacked]
        exact ⟨approximates.full.resolve_right (by omega), approximates.high, above, by omega⟩
      have same : roundInt? .halfAway x = some y := by
        unfold roundInt?
        rw [unpacked]
        exact rounded
      exact absurd (long.le_roundInt? same) (Nat.not_le.mpr short)
  · cases rounded

theorem Neighbours.neg {y : Int} (neighbours : Neighbours q y) : Neighbours (-q) (-y) := by
  have distance : |((-y : Int) : ℚ) - -q| = |(y : ℚ) - q| := by
    rw [← abs_neg]
    congr 1
    push_cast
    ring
  constructor
  · rw [distance, abs_neg]
    exact neighbours.close
  · rw [distance]
    exact neighbours.next

/-- A number that is an integer is taken for no other one. -/
theorem Neighbours.eq {y n : Int} (neighbours : Neighbours n y) : y = n := by
  have next := neighbours.next
  rw [← Int.cast_sub, ← Int.cast_abs] at next
  have : |y - n| < 1 := by exact_mod_cast next
  rw [Int.abs_lt_one_iff] at this
  omega

end

theorem roundInt?_of_neg {x : Float} {y : Int} (rounded : roundInt? .halfAway x.neg = some y) :
    roundInt? .halfAway x = some (-y) := by
  unfold roundInt? at rounded ⊢
  cases unpacked : unpack x with
  | notANumber =>
      rw [unpack_neg_notANumber unpacked] at rounded
      cases rounded
  | infinity s =>
      rw [unpack_neg_infinite unpacked] at rounded
      cases rounded
  | zero s =>
      rw [unpack_neg_zero unpacked] at rounded
      cases rounded
      rfl
  | finite s m e positive =>
      rw [unpack_neg unpacked] at rounded
      cases rounded
      cases s with
      | negative => rfl
      | positive => exact congrArg some (Int.neg_neg _).symm

end Emend.Number
