import Emend.Number.Shortest
import Emend.Proofs.Number.Rounding

/-!
The shortest decimal of a double rounds to that double. So does every point of a decimal grid that lies
in the reach of the double, and a grid of seventeen digits has such a point at the latest. Dropping
zeros changes no decimal.
-/

set_option autoImplicit false

namespace Emend.Number

/-- The number that a decimal is. -/
def Decimal.value (d : Decimal) : ℚ := d.digits * 10 ^ d.exponent

namespace Reach

/-- The same interval with a greater denominator. -/
def scaled (r : Reach) (factor : Nat) : Reach :=
  ⟨r.low * factor, r.value * factor, r.high * factor, r.denominator, r.closed⟩

/-- How far the points of a grid stand apart, in the units of the scaled interval. -/
def step (r : Reach) (k : Int) : Nat := 10 ^ k.toNat * r.denominator

/-- What makes the interval's units fine enough for a grid. -/
def growth (k : Int) : Nat := 10 ^ (-k).toNat

section
variable {m : Nat} {e : Int}

theorem denominator_positive (m : Nat) (e : Int) : 0 < (ofDyadic m e).denominator :=
  Nat.two_pow_pos _

theorem growth_positive (k : Int) : 0 < growth k := Nat.pow_pos (by decide)

theorem step_positive (m : Nat) (e k : Int) : 0 < (ofDyadic m e).step k :=
  Nat.mul_pos (Nat.pow_pos (by decide)) (denominator_positive m e)

theorem unit_eq (e : Int) :
    (4 * 2 ^ (e - 2).toNat : ℚ) = 2 ^ e * (2 ^ (2 - e).toNat) := by
  have parts := zpow_eq_div (two_ne_zero (α := ℚ)) (e - 2)
  rw [zpow_sub₀ two_ne_zero, neg_sub] at parts
  field_simp at parts
  linear_combination -parts

theorem holds_closed {r : Reach} {n : Nat} (held : r.holds n) : r.low ≤ n ∧ n ≤ r.high := by
  unfold holds at held
  split at held <;> simp only [Bool.and_eq_true, decide_eq_true_eq] at held <;> omega

theorem holds_open {r : Reach} {n : Nat} (held : r.holds n) (strict : r.closed = false) :
    r.low < n ∧ n < r.high := by
  unfold holds at held
  rw [strict] at held
  simpa using held

theorem holds_of_between {r : Reach} {n : Nat} (above : r.low < n) (below : n < r.high) :
    r.holds n := by
  unfold holds
  split <;> simp only [Bool.and_eq_true, decide_eq_true_eq] <;> omega

theorem ofDyadic_low (positive : 0 < m) :
    ((ofDyadic m e).low : ℚ) = (m - slack m) * (4 * 2 ^ (e - 2).toNat) := by
  change (((4 * m - if m = 2 ^ 52 then 1 else 2) * 2 ^ (e - 2).toNat : Nat) : ℚ) = _
  unfold slack
  split
  · rw [Nat.cast_mul, Nat.cast_sub (by omega)]
    push_cast
    ring
  · rw [Nat.cast_mul, Nat.cast_sub (by omega)]
    push_cast
    ring

theorem ofDyadic_high (m : Nat) (e : Int) :
    ((ofDyadic m e).high : ℚ) = (m + 1 / 2) * (4 * 2 ^ (e - 2).toNat) := by
  change (((4 * m + 2) * 2 ^ (e - 2).toNat : Nat) : ℚ) = _
  push_cast
  ring

theorem roundsTo_of_holds {factor n : Nat} (positive : 0 < m) (refined : 0 < factor)
    (held : ((ofDyadic m e).scaled factor).holds n) :
    RoundsTo m e (n / ((ofDyadic m e).denominator * factor)) := by
  have unit : (0 : ℚ) < 4 * 2 ^ (e - 2).toNat * factor := by positivity
  have scale : (n : ℚ) / ((ofDyadic m e).denominator * factor) / 2 ^ e =
      n / (4 * 2 ^ (e - 2).toNat * factor) := by
    have denominator : ((ofDyadic m e).denominator : ℚ) = 2 ^ (2 - e).toNat := Nat.cast_pow 2 _
    rw [div_div, denominator, unit_eq]
    congr 1
    ring
  have low : (((ofDyadic m e).scaled factor).low : ℚ) =
      (m - slack m) * (4 * 2 ^ (e - 2).toNat * factor) := by
    change (((ofDyadic m e).low * factor : Nat) : ℚ) = _
    rw [Nat.cast_mul, ofDyadic_low positive, mul_assoc]
  have high : (((ofDyadic m e).scaled factor).high : ℚ) =
      (m + 1 / 2) * (4 * 2 ^ (e - 2).toNat * factor) := by
    change (((ofDyadic m e).high * factor : Nat) : ℚ) = _
    rw [Nat.cast_mul, ofDyadic_high, mul_assoc]
  constructor
  · rw [scale, le_div_iff₀ unit, ← low]
    exact_mod_cast (holds_closed held).1
  · rw [scale, div_le_iff₀ unit, ← high]
    exact_mod_cast (holds_closed held).2
  · intro odd
    have strict : ((ofDyadic m e).scaled factor).closed = false := by
      change (m % 2 == 0) = false
      rw [odd]
      rfl
    obtain ⟨above, below⟩ := holds_open held strict
    rw [scale, lt_div_iff₀ unit, div_lt_iff₀ unit, ← low, ← high]
    exact ⟨by exact_mod_cast above, by exact_mod_cast below⟩

theorem holds_of_onGrid? {tie : Tie} {r : Reach} {k : Int} {digits : Nat}
    (hit : r.onGrid? tie k = some digits) : (r.scaled (growth k)).holds (digits * r.step k) := by
  unfold onGrid? at hit
  dsimp only at hit
  split at hit
  · cases hit
  · rename_i first _
    cases hit
    exact first
  · rename_i _ second
    cases hit
    exact second
  · rename_i first second
    split at hit
    · cases hit
      exact first
    · cases hit
      exact second
    · split at hit
      · cases hit
        exact first
      · cases hit
        exact second

theorem roundsTo_of_onGrid? {tie : Tie} {k : Int} {digits : Nat} (positive : 0 < m)
    (hit : (ofDyadic m e).onGrid? tie k = some digits) : RoundsTo m e (digits * 10 ^ k) := by
  have rounds := roundsTo_of_holds positive (growth_positive k) (holds_of_onGrid? hit)
  have denominator : (0 : ℚ) < (ofDyadic m e).denominator := by
    exact_mod_cast denominator_positive m e
  have point : (digits * 10 ^ k : ℚ) = (digits * (ofDyadic m e).step k : Nat) /
      ((ofDyadic m e).denominator * growth k) := by
    unfold step growth
    rw [zpow_eq_div (by norm_num : (10 : ℚ) ≠ 0)]
    push_cast
    field_simp
  rw [point]
  exact rounds

/-- A grid without a point in an interval is no finer than the interval is wide. -/
theorem high_le_of_missed {r : Reach} {s : Nat} (positive : 0 < s) (below : r.low < r.value)
    (above : r.value < r.high) (under : r.holds (r.value / s * s) = false)
    (beyond : r.holds ((r.value / s + 1) * s) = false) : r.high ≤ s + r.low := by
  have reached : r.value / s * s ≤ r.value := Nat.div_mul_le_self _ _
  have passed : r.value < (r.value / s + 1) * s := by
    rw [Nat.add_mul, Nat.one_mul]
    exact Nat.lt_div_mul_add positive
  have left : r.value / s * s ≤ r.low := by
    refine Nat.not_lt.mp fun inside => ?_
    rw [holds_of_between inside (Nat.lt_of_le_of_lt reached above)] at under
    cases under
  have right : r.high ≤ (r.value / s + 1) * s := by
    refine Nat.not_lt.mp fun inside => ?_
    rw [holds_of_between (Nat.lt_trans below passed) inside] at beyond
    cases beyond
  rw [Nat.add_mul, Nat.one_mul] at right
  omega

theorem missed_of_onGrid? {tie : Tie} {r : Reach} {k : Int} (miss : r.onGrid? tie k = none) :
    (r.scaled (growth k)).holds (r.value * growth k / r.step k * r.step k) = false ∧
      (r.scaled (growth k)).holds ((r.value * growth k / r.step k + 1) * r.step k) = false := by
  unfold onGrid? at miss
  dsimp only at miss
  split at miss
  · rename_i under beyond
    exact ⟨under, beyond⟩
  · cases miss
  · cases miss
  · split at miss
    · cases miss
    · cases miss
    · split at miss <;> cases miss

/-- A grid of seventeen digits is fine enough to have a point in the interval. -/
theorem onGrid?_isSome (tie : Tie) {k : Int} (canonical : Canonical m e)
    (fine : 10 ^ 16 * (ofDyadic m e).step k ≤ (ofDyadic m e).value * growth k) :
    ((ofDyadic m e).onGrid? tie k).isSome := by
  by_contra miss
  obtain ⟨under, beyond⟩ := missed_of_onGrid? (Option.not_isSome_iff_eq_none.mp miss)
  have high := canonical.high
  have positive := canonical.positive
  obtain ⟨u, unit⟩ : ∃ u, 2 ^ (e - 2).toNat * growth k = u := ⟨_, rfl⟩
  have least : 0 < u := unit ▸ Nat.mul_pos (Nat.two_pow_pos _) (growth_positive k)
  obtain ⟨gap, narrow⟩ : ∃ gap, (if m = 2 ^ 52 then 1 else 2) = gap := ⟨_, rfl⟩
  have lower : ((ofDyadic m e).scaled (growth k)).low = (4 * m - gap) * u := by
    rw [← unit, ← narrow, ← Nat.mul_assoc]
    rfl
  have middle : ((ofDyadic m e).scaled (growth k)).value = 4 * m * u := by
    rw [← unit, ← Nat.mul_assoc]
    rfl
  have upper : ((ofDyadic m e).scaled (growth k)).high = (4 * m + 2) * u := by
    rw [← unit, ← Nat.mul_assoc]
    rfl
  have near : 1 ≤ gap ∧ gap ≤ 2 := by
    rw [← narrow]
    split <;> omega
  have wide := high_le_of_missed (step_positive m e k)
    (by rw [lower, middle]; exact Nat.mul_lt_mul_of_pos_right (by omega) least)
    (by rw [middle, upper]; exact Nat.mul_lt_mul_of_pos_right (by omega) least) under beyond
  have width : (2 + gap) * u ≤ (ofDyadic m e).step k := by
    have parts : (4 * m + 2) * u = (2 + gap) * u + (4 * m - gap) * u := by
      rw [← Nat.add_mul]
      congr 1
      omega
    rw [upper, lower, parts] at wide
    exact Nat.le_of_add_le_add_right wide
  have few : 10 ^ 16 * (2 + gap) * u ≤ 4 * m * u := calc
    10 ^ 16 * (2 + gap) * u = 10 ^ 16 * ((2 + gap) * u) := Nat.mul_assoc _ _ _
    _ ≤ 10 ^ 16 * (ofDyadic m e).step k := Nat.mul_le_mul_left _ width
    _ ≤ 4 * m * u := middle ▸ fine
  have := Nat.le_of_mul_le_mul_right few least
  rw [← narrow] at this
  split at this <;> omega

theorem pow_pred_length_le {n : Nat} (positive : 0 < n) : 10 ^ ((toString n).length - 1) ≤ n := by
  rcases Nat.eq_zero_or_pos ((toString n).length - 1) with one | more
  · rw [one]
    exact positive
  · by_contra short
    have := (Nat.length_repr_le_iff more).mpr (Nat.not_le.mp short)
    change (toString n).length ≤ _ at this
    omega

theorem lt_pow_length (n : Nat) : n < 10 ^ (toString n).length :=
  (Nat.length_repr_le_iff Nat.length_repr_pos).mp (Nat.le_refl _)

/-- The value has its first digit at the leading exponent. -/
theorem leading_le {r : Reach} (value : 0 < r.value) : r.denominator * (10 : ℚ) ^ r.leading ≤ r.value := by
  have ten : (10 : ℚ) ≠ 0 := by norm_num
  obtain ⟨k, length⟩ : ∃ k : Int, ((toString r.value).length : Int) -
    (toString r.denominator).length = k := ⟨_, rfl⟩
  unfold leading
  simp only [length]
  split
  · have least := pow_pred_length_le value
    have most := lt_pow_length r.denominator
    have digits : 0 < (toString r.value).length := Nat.length_repr_pos
    generalize (toString r.value).length = a at *
    generalize (toString r.denominator).length = b at *
    obtain ⟨c, rfl⟩ := Nat.exists_eq_succ_of_ne_zero digits.ne'
    have leastQ : (10 : ℚ) ^ c ≤ r.value := by exact_mod_cast least
    have mostQ : (r.denominator : ℚ) ≤ 10 ^ b := by exact_mod_cast most.le
    calc
      r.denominator * (10 : ℚ) ^ (k - 1) ≤ 10 ^ b * (10 : ℚ) ^ (k - 1) :=
        mul_le_mul_of_nonneg_right mostQ (by positivity)
      _ = 10 ^ c := by
        rw [← zpow_natCast, ← zpow_natCast, ← zpow_add₀ ten]
        congr 1
        omega
      _ ≤ r.value := leastQ
  · rename_i reached
    have enough : r.denominator * 10 ^ k.toNat ≤ r.value * 10 ^ (-k).toNat := Nat.not_lt.mp reached
    have enoughQ : (r.denominator : ℚ) * 10 ^ k.toNat ≤ r.value * 10 ^ (-k).toNat := by
      exact_mod_cast enough
    rw [zpow_eq_div ten, mul_div_assoc', div_le_iff₀ (by positivity)]
    exact enoughQ

theorem fine_grid (canonical : Canonical m e) :
    10 ^ 16 * (ofDyadic m e).step ((ofDyadic m e).leading - 16) ≤
      (ofDyadic m e).value * growth ((ofDyadic m e).leading - 16) := by
  have ten : (10 : ℚ) ≠ 0 := by norm_num
  have positive : 0 < (ofDyadic m e).value :=
    Nat.mul_pos (Nat.mul_pos (by decide) canonical.positive) (Nat.two_pow_pos _)
  have least := leading_le positive
  obtain ⟨k, grid⟩ : ∃ k, (ofDyadic m e).leading - 16 = k := ⟨_, rfl⟩
  have exponents : (ofDyadic m e).leading = (16 : Nat) + k := by omega
  have powers : (10 : ℚ) ^ (ofDyadic m e).leading = 10 ^ 16 * (10 ^ k.toNat / 10 ^ (-k).toNat) := by
    rw [← zpow_eq_div ten, ← zpow_natCast, ← zpow_add₀ ten, exponents]
  rw [powers, mul_div_assoc', mul_div_assoc', div_le_iff₀ (by positivity)] at least
  have reached : (ofDyadic m e).denominator * (10 ^ 16 * 10 ^ k.toNat) ≤
      (ofDyadic m e).value * 10 ^ (-k).toNat := by exact_mod_cast least
  unfold step growth
  rw [grid]
  calc
    10 ^ 16 * (10 ^ k.toNat * (ofDyadic m e).denominator) =
        (ofDyadic m e).denominator * (10 ^ 16 * 10 ^ k.toNat) := by ring
    _ ≤ _ := reached

theorem onGrid?_firstHit (tie : Tie) (r : Reach) {tries j : Nat} {k : Int} (early : j < tries)
    (hit : (r.onGrid? tie (k - j)).isSome) :
    r.onGrid? tie (r.firstHit tie tries k).exponent = some (r.firstHit tie tries k).digits := by
  induction tries generalizing k j with
  | zero => exact absurd early (Nat.not_lt_zero j)
  | succ tries ih =>
      unfold firstHit
      split
      · rename_i found
        exact found
      · rename_i missed
        cases j with
        | zero =>
            rw [Int.natCast_zero, Int.sub_zero, missed] at hit
            cases hit
        | succ j =>
            refine ih (Nat.lt_of_succ_lt_succ early) ?_
            rw [Int.sub_sub, Int.add_comm]
            exact hit

end

end Reach

theorem pow_trailing_dvd (n : Nat) :
    10 ^ ((toString n).toList.reverse.takeWhile (· == '0')).length ∣ n := by
  obtain ⟨digits, listed⟩ : ∃ digits, (toString n).toList = digits := ⟨_, rfl⟩
  have value : Nat.ofDigitChars 10 digits 0 = n := by
    rw [← listed, show (toString n).toList = Nat.toDigits 10 n from Nat.toList_repr]
    exact Nat.ofDigitChars_ten_toDigits
  rw [listed]
  have zeros : digits.reverse.takeWhile (· == '0') =
      List.replicate (digits.reverse.takeWhile (· == '0')).length '0' :=
    List.eq_replicate_of_mem fun c member => beq_iff_eq.mp (List.mem_takeWhile_imp (p := (· == '0')) member)
  have split : digits = (digits.reverse.dropWhile (· == '0')).reverse ++
      (digits.reverse.takeWhile (· == '0')).reverse := by
    rw [← List.reverse_append, List.takeWhile_append_dropWhile, List.reverse_reverse]
  rw [zeros, List.reverse_replicate] at split
  rw [split, Nat.ofDigitChars_append, Nat.ofDigitChars_replicate_zero] at value
  exact ⟨_, value.symm⟩

theorem Decimal.value_trimmed (d : Decimal) : d.trimmed.value = d.value := by
  unfold trimmed
  split
  · rfl
  · have whole := pow_trailing_dvd d.digits
    generalize ((toString d.digits).toList.reverse.takeWhile (· == '0')).length = zeros at whole
    change ((d.digits / 10 ^ zeros : Nat) : ℚ) * 10 ^ (d.exponent + zeros) = d.digits * 10 ^ d.exponent
    have power : (10 : ℚ) ^ (d.exponent + zeros) = 10 ^ d.exponent * 10 ^ zeros := by
      rw [zpow_add₀ (by norm_num), zpow_natCast]
    rw [Nat.cast_div whole (by positivity), power]
    push_cast
    field_simp

/-- The shortest decimal of a double rounds to it. -/
theorem roundsTo_shortest (tie : Tie) {m : Nat} {e : Int} (canonical : Canonical m e) :
    RoundsTo m e (shortest tie m e).value := by
  have last := Reach.onGrid?_isSome tie canonical (Reach.fine_grid canonical)
  have hit := Reach.onGrid?_firstHit tie (Reach.ofDyadic m e) (show 16 < 17 by decide) last
  unfold shortest
  rw [Decimal.value_trimmed]
  exact Reach.roundsTo_of_onGrid? canonical.positive hit

end Emend.Number
