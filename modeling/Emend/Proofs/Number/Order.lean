import Emend.Comparison
import Emend.Proofs.Number.Exact

/-!
The order of doubles. Every double but NaN has a place in a linear order, in which two doubles compare
as numbers; both zeros have the same place.
-/

set_option autoImplicit false

namespace Emend.Number
open Float.Model (UnpackedFloat)

/-- Sign and magnitude, then the exponent and the mantissa. -/
abbrev Place := ℤ ×ₗ ℤ ×ₗ ℤ

/-- Where a double stands. A mantissa is as long as its exponent lets it be, so the exponents decide
first; NaN has no place of its own. -/
def placeOf : UnpackedFloat → Place
  | .infinity .negative => toLex (-2, toLex (0, 0))
  | .finite .negative m e _ => toLex (-1, toLex (-e, -m))
  | .zero _ | .notANumber => toLex (0, toLex (0, 0))
  | .finite .positive m e _ => toLex (1, toLex (e, m))
  | .infinity .positive => toLex (2, toLex (0, 0))

def place (x : Float) : Place := placeOf (unpack x)

theorem compare_toLex {β : Type} [Ord β] (s t : ℤ) (u v : β) :
    compare (toLex (s, u)) (toLex (t, v)) = (compare s t).then (compare u v) := by
  rw [Prod.Lex.compare_def]
  rfl

theorem compare_natCast (m n : Nat) : compare (m : ℤ) n = compare m n := by
  rw [Int.compare_eq_ite_lt, Nat.compare_eq_ite_lt]
  simp

theorem compare_neg (a b : ℤ) : compare (-a) (-b) = (compare a b).swap := by
  rw [Int.compare_swap, Int.compare_eq_ite_lt, Int.compare_eq_ite_lt]
  simp

/-- Two numbers compare as their places do. -/
theorem compare_placeOf {x y : UnpackedFloat} (first : x.isNaN = false) (second : y.isNaN = false) :
    x.compare y = some (compare (placeOf x) (placeOf y)) := by
  cases x with
  | notANumber => cases first
  | infinity s =>
      cases y with
      | notANumber => cases second
      | infinity t | zero t | finite t => cases s <;> cases t <;> rfl
  | zero s =>
      cases y with
      | notANumber => cases second
      | infinity t | zero t | finite t => cases t <;> rfl
  | finite s m e =>
      cases y with
      | notANumber => cases second
      | infinity t | zero t => cases s <;> cases t <;> rfl
      | finite t n f =>
          cases s <;> cases t
          case negative.positive | positive.negative => rfl
          case positive.positive =>
            simp only [placeOf, compare_toLex, compare_natCast]
            rfl
          case negative.negative =>
            simp only [placeOf, compare_toLex, compare_natCast, compare_neg, ← Ordering.swap_then]
            rfl

section
variable {x y : Float} (first : x.isNaN = false) (second : y.isNaN = false)
include first second

theorem lt_iff_place : x < y ↔ place x < place y := by
  have compared := compare_placeOf (x := unpack x) (y := unpack y) first second
  change decide (x.toModel < y.toModel) = true ↔ _
  rw [decide_eq_true_iff]
  change ((unpack x).compare (unpack y) == some .lt) = true ↔ _
  rw [compared, beq_iff_eq, Option.some_inj]
  exact compare_lt_iff_lt

theorem le_iff_place : x ≤ y ↔ place x ≤ place y := by
  have compared := compare_placeOf (x := unpack x) (y := unpack y) first second
  change decide (x.toModel ≤ y.toModel) = true ↔ _
  rw [decide_eq_true_iff]
  change ((unpack x).compare (unpack y)).any (·.isLE) = true ↔ _
  rw [compared, Option.any_some, Ordering.isLE_iff_ne_gt]
  exact compare_le_iff_le

theorem beq_iff_place : x == y ↔ place x = place y := by
  have compared := compare_placeOf (x := unpack x) (y := unpack y) first second
  change ((unpack x).compare (unpack y) == some .eq) = true ↔ _
  rw [compared, beq_iff_eq, Option.some_inj]
  exact compare_eq_iff_eq

end

theorem compareNumbers_eq_place {x y : Float} (first : x.isNaN = false) (second : y.isNaN = false) :
    Value.compareNumbers x y = some (compare (place x) (place y)) := by
  have less := lt_iff_place first second
  have greater := lt_iff_place second first
  have equal := beq_iff_place first second
  unfold Value.compareNumbers
  simp only [less, greater, equal]
  rcases lt_trichotomy (place x) (place y) with below | same | above
  · rw [if_pos below, compare_lt_iff_lt.mpr below]
  · rw [if_neg same.not_lt, if_neg same.not_gt, if_pos same, compare_eq_iff_eq.mpr same]
  · rw [if_neg above.not_gt, if_pos above, compare_gt_iff_gt.mpr above]

theorem not_lt_of_isNaN {x y : Float} (unordered : x.isNaN ∨ y.isNaN) : ¬ x < y := by
  change ¬ decide (x.toModel < y.toModel) = true
  rw [decide_eq_true_iff]
  change ¬ ((unpack x).compare (unpack y) == some .lt) = true
  change (unpack x).isNaN ∨ (unpack y).isNaN at unordered
  simp only [UnpackedFloat.isNaN_iff] at unordered
  rcases unordered with nan | nan
  · rw [nan]
    exact Bool.false_ne_true
  · rw [nan]
    cases unpack x <;> exact Bool.false_ne_true

theorem compareNumbers_of_isNaN {x y : Float} (unordered : x.isNaN ∨ y.isNaN) :
    Value.compareNumbers x y = none := by
  have unequal : ¬ x == y := by
    simp only [Float.isNaN_eq_decide_eq_nan, decide_eq_true_eq] at unordered
    rcases unordered with rfl | rfl <;> simp
  unfold Value.compareNumbers
  rw [if_neg (not_lt_of_isNaN unordered), if_neg (not_lt_of_isNaN unordered.symm), if_neg unequal]

theorem compareNumbers_swap (x y : Float) :
    Value.compareNumbers y x = (Value.compareNumbers x y).map Ordering.swap := by
  by_cases unordered : x.isNaN ∨ y.isNaN
  · rw [compareNumbers_of_isNaN unordered, compareNumbers_of_isNaN unordered.symm]
    rfl
  · simp only [not_or, Bool.not_eq_true] at unordered
    rw [compareNumbers_eq_place unordered.1 unordered.2,
      compareNumbers_eq_place unordered.2 unordered.1, Option.map_some, Std.OrientedOrd.eq_swap]

theorem isNaN_of_beq {x y : Float} (equal : x == y) : y.isNaN = false := by
  change ((unpack x).compare (unpack y) == some .eq) = true at equal
  change (unpack y).isNaN = false
  cases second : unpack y with
  | notANumber =>
      rw [second] at equal
      cases first : unpack x <;> rw [first] at equal <;> cases equal
  | infinity s | zero s | finite s => rfl

theorem beq_congr {w x y z : Float} (first : w == y) (second : x == z) : (w == x) = (y == z) := by
  have equal {a b : Float} (same : a == b) : a.isNaN = false ∧ b.isNaN = false ∧
      place a = place b := by
    obtain ⟨left, right, -⟩ := Float.beq_iff_ne_nan_and_eq.mp same
    have leftNumber : a.isNaN = false := by
      rw [Float.isNaN_eq_decide_eq_nan, decide_eq_false left]
    have rightNumber : b.isNaN = false := by
      rw [Float.isNaN_eq_decide_eq_nan, decide_eq_false right]
    exact ⟨leftNumber, rightNumber, (beq_iff_place leftNumber rightNumber).mp same⟩
  obtain ⟨numberW, numberY, placed⟩ := equal first
  obtain ⟨numberX, numberZ, placed'⟩ := equal second
  rw [Bool.eq_iff_iff, beq_iff_place numberW numberX, beq_iff_place numberY numberZ,
    placed, placed']

theorem place_ofNat_lt {m n : Nat} (less : m < n) (small : n < 2 ^ 53) :
    place (Float.ofNat m) < place (Float.ofNat n) := by
  have positive : 0 < n := Nat.zero_lt_of_lt less
  have upper := unpack_ofNat positive small
  unfold place
  by_cases zero : m = 0
  · subst zero
    rw [upper]
    exact Prod.Lex.toLex_lt_toLex.mpr (.inl Int.zero_lt_one)
  · have lower := unpack_ofNat (Nat.pos_of_ne_zero zero) (Nat.lt_trans less small)
    rw [lower, upper]
    refine Prod.Lex.toLex_lt_toLex.mpr (.inr ⟨rfl, Prod.Lex.toLex_lt_toLex.mpr ?_⟩)
    have within : n.log2 < 53 := (Nat.log2_lt (Nat.ne_of_gt positive)).mpr small
    have lengths : m.log2 ≤ n.log2 :=
      (Nat.le_log2 (Nat.ne_of_gt positive)).mpr
        (Nat.le_trans (Nat.log2_self_le zero) (Nat.le_of_lt less))
    unfold zeros
    rcases Nat.lt_or_eq_of_le lengths with shorter | same
    · left
      omega
    · right
      rw [same]
      have scaled : m * 2 ^ (52 - n.log2) < n * 2 ^ (52 - n.log2) :=
        Nat.mul_lt_mul_of_pos_right less (Nat.two_pow_pos _)
      exact ⟨rfl, Int.ofNat_lt.mpr scaled⟩

end Emend.Number
