import Emend.Proofs.Number.Nearest

/-!
The number that a double is. Rounding with halves away from zero takes every finite double to the
integer nearest to its number. The double of an integer is an integer as well, which differs from the
first by no more than its `2 ^ 53`th part, and not at all if the first is a double.
-/

set_option autoImplicit false

namespace Emend.Number

open Float.Model.UnpackedFloat (Sign)

/-- The number that a finite double is. -/
def number? (x : Float) : Option ℚ :=
  match unpack x with
  | .zero _ => some 0
  | .finite s m e _ => some ((s.apply m : Int) * 2 ^ e)
  | _ => none

/-- The integer nearest to a number, or the one away from zero where two are. -/
def halfAway (q : ℚ) : Int := if 0 ≤ q then ⌊q + 1 / 2⌋ else ⌈q - 1 / 2⌉

theorem halfAway_neg {q : ℚ} (positive : 0 < q) : halfAway (-q) = -halfAway q := by
  unfold halfAway
  rw [if_pos positive.le, if_neg (by linarith), ← Int.ceil_neg]
  congr 1
  ring

theorem halfAway_intCast (i : Int) : halfAway i = i := by
  unfold halfAway
  split
  · rw [Int.floor_intCast_add]
    norm_num
  · rw [sub_eq_add_neg, Int.ceil_intCast_add]
    norm_num

theorem halfAway_finite (s : Sign) {m : Nat} (e : Int) (positive : 0 < m) :
    halfAway ((s.apply m : Int) * 2 ^ e) = Rounding.halfAway.integer s m e := by
  have some : (0 : ℚ) < m * 2 ^ e := by positivity
  have magnitude : (if 0 ≤ e then (m : Int) * (Nat.pow 2 e.toNat : Nat)
      else (Rounding.halfAway.magnitude s m (-e).toNat : Nat)) = halfAway (m * 2 ^ e) := by
    split
    · rename_i up
      obtain ⟨k, rfl⟩ := Int.eq_ofNat_of_zero_le up
      have whole : (m : ℚ) * 2 ^ (k : Int) = ((m * 2 ^ k : Nat) : Int) := by
        push_cast
        rw [zpow_natCast]
      rw [whole, halfAway_intCast]
      rfl
    · rename_i down
      rw [magnitude_eq_floor, halfAway, if_pos some.le, zpow_eq_inv 2 (by omega),
        ← div_eq_mul_inv (m : ℚ)]
  unfold Rounding.integer
  rw [magnitude]
  cases s with
  | positive => rfl
  | negative =>
      change halfAway (((-(m : Int) : Int) : ℚ) * 2 ^ e) = -halfAway (m * 2 ^ e)
      rw [Int.cast_neg, neg_mul]
      exact halfAway_neg some

/-- Every finite double is rounded to the integer nearest to its number. -/
theorem roundInt?_halfAway (x : Float) : roundInt? .halfAway x = (number? x).map halfAway := by
  unfold roundInt? number?
  cases unpack x with
  | notANumber | infinity s => rfl
  | zero s => exact congrArg some (halfAway_intCast 0).symm
  | finite s m e positive => exact congrArg some (halfAway_finite s e positive).symm

theorem number?_congr {x y : Float} (equal : x == y) : number? x = number? y := by
  obtain ⟨-, -, rfl | ⟨rfl, rfl⟩ | ⟨rfl, rfl⟩⟩ := Float.beq_iff_ne_nan_and_eq.mp equal
  · rfl
  · rfl
  · rfl

theorem number?_finite {x : Float} {s : Sign} {m : Nat} {e : Int} {positive : 0 < m}
    (unpacked : unpack x = .finite s m e positive) :
    number? x = some (((s.apply m : Int) : ℚ) * 2 ^ e) := by
  unfold number?
  rw [unpacked]

theorem apply_mul (s : Sign) (m : Nat) (e : Int) :
    ((s.apply m : Int) : ℚ) * 2 ^ e = match s with
      | .positive => m * 2 ^ e
      | .negative => -(m * 2 ^ e) := by
  cases s with
  | positive => rfl
  | negative =>
      change ((-(m : Int) : Int) : ℚ) * 2 ^ e = -(m * 2 ^ e)
      rw [Int.cast_neg, Int.cast_natCast, neg_mul]

theorem number?_of_isIntegral {x : Float} {j : Int} (whole : isIntegral x)
    (rounded : roundInt? .towardZero x = some j) : number? x = some (j : ℚ) := by
  unfold isIntegral at whole
  unfold roundInt? at rounded
  cases unpacked : unpack x with
  | notANumber | infinity s =>
      rw [unpacked] at whole
      cases whole
  | zero s =>
      rw [unpacked] at rounded
      cases rounded
      unfold number?
      rw [unpacked, Int.cast_zero]
  | finite s m e positive =>
      rw [unpacked] at whole rounded
      obtain ⟨n, value, integer⟩ := integer_of_isIntegral (s := s) (m := m) (e := e) (by simpa using whole)
      cases rounded
      rw [number?_finite unpacked, integer, apply_mul, ← value]
      cases s with
      | positive => rfl
      | negative =>
          change some (-(n : ℚ)) = some ((-(n : Int) : Int) : ℚ)
          rw [Int.cast_neg, Int.cast_natCast]

theorem exists_number?_of_isIntegral {x : Float} (whole : isIntegral x) :
    ∃ j : Int, number? x = some (j : ℚ) ∧ x == Float.ofInt j := by
  obtain ⟨j, rounded⟩ := exists_roundInt? .towardZero whole
  exact ⟨j, number?_of_isIntegral whole rounded, beq_ofInt_of_isIntegral whole rounded⟩

theorem isIntegral_of_number? {x : Float} {i : Int} (value : number? x = some (i : ℚ)) :
    isIntegral x := by
  unfold isIntegral
  cases unpacked : unpack x with
  | notANumber | infinity s =>
      unfold number? at value
      rw [unpacked] at value
      cases value
  | zero s => rfl
  | finite s m e positive =>
      dsimp only
      rw [Bool.or_eq_true, decide_eq_true_iff, beq_iff_eq]
      by_cases up : 0 ≤ e
      · exact .inl up
      right
      rw [number?_finite unpacked, Option.some_inj, zpow_eq_inv 2 (by omega), ← div_eq_mul_inv,
        div_eq_iff (by positivity)] at value
      have product : s.apply m = i * (2 ^ (-e).toNat : Nat) := by exact_mod_cast value
      have magnitude : m = i.natAbs * 2 ^ (-e).toNat := by
        have := congrArg Int.natAbs product
        rw [Int.natAbs_mul, Int.natAbs_natCast] at this
        cases s with
        | positive => exact this
        | negative => exact (Int.natAbs_neg m).symm.trans this
      rw [magnitude]
      exact Nat.mul_mod_left _ _

theorem zero_le_iff_number? {x : Float} {q : ℚ} (value : number? x = some q) : 0 ≤ x ↔ 0 ≤ q := by
  have real : x.isNaN = false := by
    change (unpack x).isNaN = false
    unfold number? at value
    cases unpacked : unpack x with
    | notANumber =>
        rw [unpacked] at value
        cases value
    | _ => rfl
  have zero : place 0 = placeOf (.zero .positive) := rfl
  rw [le_iff_place rfl real, zero, place]
  cases unpacked : unpack x with
  | notANumber | infinity s =>
      unfold number? at value
      rw [unpacked] at value
      cases value
  | zero s =>
      unfold number? at value
      rw [unpacked] at value
      cases value
      exact iff_of_true (le_refl _) (le_refl _)
  | finite s m e positive =>
      rw [number?_finite unpacked, Option.some_inj, apply_mul] at value
      have magnitude : (0 : ℚ) < m * 2 ^ e := by positivity
      cases s with
      | positive =>
          subst value
          exact iff_of_true (Prod.Lex.toLex_le_toLex.mpr (.inl Int.zero_lt_one)) magnitude.le
      | negative =>
          subst value
          refine iff_of_false (fun above => ?_) (by simpa using magnitude)
          rcases Prod.Lex.toLex_le_toLex.mp above with less | ⟨equal, -⟩
          · exact absurd (show (0 : ℤ) < -1 from less) (by decide)
          · exact absurd (show (0 : ℤ) = -1 from equal) (by decide)

theorem number?_of_long {x : Float} {i : Int} (rounded : roundInt? .halfAway x = some i)
    (long : 2 ^ 53 ≤ i.natAbs) : number? x = some (i : ℚ) := by
  unfold roundInt? at rounded
  cases unpacked : unpack x with
  | notANumber | infinity s =>
      rw [unpacked] at rounded
      cases rounded
  | zero s =>
      rw [unpacked] at rounded
      cases rounded
      exact absurd long (by decide)
  | finite s m e positive =>
      rw [unpacked] at rounded
      by_cases up : 0 ≤ e
      · have whole : isIntegral x := by
          unfold isIntegral
          rw [unpacked]
          exact Bool.or_eq_true_iff.mpr (.inl (decide_eq_true up))
        obtain ⟨j, value, -⟩ := exists_number?_of_isIntegral whole
        have nearest := roundInt?_halfAway x
        unfold roundInt? at nearest
        rw [value, Option.map_some, halfAway_intCast, unpacked, rounded] at nearest
        cases nearest
        exact value
      · -- A double with a fraction is less than half of what fifty-four bits begin with.
        have high := (canonical_of_unpack unpacked).high
        obtain ⟨k, exponent⟩ : ∃ k, (-e).toNat = k + 1 := ⟨(-e).toNat - 1, by omega⟩
        have half : m / 2 ^ (k + 1) ≤ m / 2 := by
          rw [Nat.pow_succ', ← Nat.div_div_eq_div_mul]
          exact Nat.div_le_self _ _
        have least : Rounding.halfAway.magnitude s m (k + 1) ≤ m / 2 ^ (k + 1) + 1 := by
          unfold Rounding.magnitude
          dsimp only
          split
          · exact Nat.le_refl _
          · exact Nat.le_succ _
        have magnitude : i.natAbs = Rounding.halfAway.magnitude s m (k + 1) := by
          cases rounded
          unfold Rounding.integer
          rw [if_neg up, exponent]
          cases s
          · exact Int.natAbs_neg _
          · rfl
        omega

theorem number?_ofInt_of_number? {x : Float} {i : Int} (same : number? x = some (i : ℚ)) :
    number? (Float.ofInt i) = some (i : ℚ) := by
  cases unpacked : unpack x with
  | notANumber | infinity s =>
      unfold number? at same
      rw [unpacked] at same
      cases same
  | zero s =>
      unfold number? at same
      rw [unpacked] at same
      have zero : (0 : ℚ) = i := Option.some.inj same
      rw [← Int.cast_zero, Int.cast_inj] at zero
      rw [← zero]
      rfl
  | finite s m e positive =>
      rw [number?_finite unpacked, apply_mul] at same
      have value : (i.natAbs : ℚ) = m * 2 ^ e ∧ s.apply i.natAbs = i := by
        have some : (0 : ℚ) < m * 2 ^ e := by positivity
        cases s with
        | positive =>
            have equal : (m : ℚ) * 2 ^ e = i := Option.some.inj same
            have nonneg : 0 ≤ i := by
              have : (0 : ℚ) ≤ i := equal ▸ some.le
              exact_mod_cast this
            refine ⟨?_, Int.natAbs_of_nonneg nonneg⟩
            rw [equal, ← Int.cast_natCast, Int.natAbs_of_nonneg nonneg]
        | negative =>
            have equal : -((m : ℚ) * 2 ^ e) = i := Option.some.inj same
            have nonpos : i ≤ 0 := by
              have : (i : ℚ) ≤ 0 := by linarith
              exact_mod_cast this
            have opposite : (i.natAbs : Int) = -i := by omega
            refine ⟨?_, ?_⟩
            · rw [← Int.cast_natCast, opposite, Int.cast_neg]
              linarith
            · change -(i.natAbs : Int) = i
              omega
      obtain ⟨whole, signed⟩ := value
      have stored := unpack_ofInt_of_eq s (canonical_of_unpack unpacked) whole
      rw [signed] at stored
      rw [number?_finite stored, apply_mul]
      exact same

theorem close_of_long {n m : Nat} {s : Sign} {e : Int} {positive : 0 < m} (long : 2 ^ 53 ≤ n)
    (unpacked : unpack (Float.ofNat n) = .finite s m e positive) :
    s = .positive ∧ 2 ^ 53 * |(m : ℚ) * 2 ^ e - n| ≤ n := by
  have stored := unpack_ofNat_long long
  rw [unpacked] at stored
  obtain ⟨rfl, rounds⟩ := roundsTo_of_unpack_ofNat (Nat.lt_of_lt_of_le (by decide) long) unpacked
  refine ⟨rfl, ?_⟩
  have unit : (0 : ℚ) < 2 ^ e := by positivity
  have scaled : 2 ^ 53 * |(m : ℚ) - n / 2 ^ e| ≤ n / 2 ^ e := by
    have above := rounds.above
    have below := rounds.below
    have low : (2 : ℚ) ^ 52 ≤ m := by exact_mod_cast stored.1
    generalize (n : ℚ) / 2 ^ e = t at *
    rcases le_or_gt (m : ℚ) t with less | greater
    · rw [abs_of_nonpos (by linarith)]
      linarith
    · rw [abs_of_pos (by linarith)]
      unfold slack at above
      split at above
      · linarith
      · rename_i differ
        have next : (2 : ℚ) ^ 52 + 1 ≤ m := by
          have : 2 ^ 52 + 1 ≤ m := by have := stored.1; omega
          exact_mod_cast this
        linarith
  have product := mul_le_mul_of_nonneg_right scaled unit.le
  rwa [mul_assoc, ← abs_of_pos unit, ← abs_mul, abs_of_pos unit, sub_mul,
    div_mul_cancel₀ _ unit.ne'] at product

theorem number?_neg (x : Float) : number? x.neg = (number? x).map fun q => -q := by
  cases unpacked : unpack x with
  | notANumber =>
      unfold number?
      rw [unpack_neg_notANumber unpacked, unpacked]
      rfl
  | infinity s =>
      unfold number?
      rw [unpack_neg_infinite unpacked, unpacked]
      rfl
  | zero s =>
      unfold number?
      rw [unpack_neg_zero unpacked, unpacked]
      exact congrArg some neg_zero.symm
  | finite s m e positive =>
      rw [number?_finite (unpack_neg unpacked), number?_finite unpacked, Option.map_some, apply_mul,
        apply_mul]
      cases s with
      | positive => rfl
      | negative => exact congrArg some (neg_neg _).symm

theorem close_ofNat {n : Nat} {q : ℚ} (long : 2 ^ 53 ≤ n) (within : n < 2 ^ 64)
    (rounded : number? (Float.ofNat n) = some q) : 2 ^ 53 * |q - n| ≤ n := by
  obtain ⟨m, e, positive, unpacked⟩ :=
    exists_unpack_ofNat (Nat.lt_of_lt_of_le (by decide) long) within
  rw [number?_finite unpacked] at rounded
  cases rounded
  exact (close_of_long long unpacked).2

/-- The double of an integer of at most sixty-four bits is an integer, and it is off by no more than a
`2 ^ 53`th part. -/
theorem exists_number?_ofInt {i : Int} (within : i.natAbs < 2 ^ 64) :
    ∃ j : Int, number? (Float.ofInt i) = some (j : ℚ) ∧ Float.ofInt i == Float.ofInt j ∧
      2 ^ 53 * (j - i).natAbs ≤ i.natAbs := by
  obtain ⟨j, value, equal⟩ := exists_number?_of_isIntegral (isIntegral_ofInt within)
  refine ⟨j, value, equal, ?_⟩
  rcases Nat.lt_or_ge i.natAbs (2 ^ 53) with short | long
  · rw [ofInt_beq_comm, ofInt_beq_of_short short] at equal
    rw [of_decide_eq_true equal, sub_self]
    exact Nat.zero_le _
  · have close : 2 ^ 53 * |(j : ℚ) - i| ≤ |(i : ℚ)| := by
      cases i with
      | ofNat n =>
          change 2 ^ 53 * |(j : ℚ) - n| ≤ |(n : ℚ)|
          rw [Nat.abs_cast]
          exact close_ofNat long within value
      | negSucc n =>
          change number? (Float.ofNat (n + 1)).neg = some (j : ℚ) at value
          rw [number?_neg] at value
          obtain ⟨q, rounded, opposite⟩ := Option.map_eq_some_iff.mp value
          have nearby := close_ofNat (n := n + 1) long within rounded
          rw [Int.cast_negSucc, abs_neg, Nat.abs_cast, ← opposite, ← abs_neg]
          rwa [show -(-q - -((n + 1 : Nat) : ℚ)) = q - ((n + 1 : Nat) : ℚ) by ring]
    rw [← Int.cast_sub, ← Int.cast_abs, ← Int.cast_abs, Int.abs_eq_natAbs, Int.abs_eq_natAbs] at close
    exact_mod_cast close

section
variable {i j n : Int}

theorem le_of_number?_ofInt (within : j.natAbs < 2 ^ 64) (equal : Float.ofInt i == Float.ofInt j)
    (rounded : number? (Float.ofInt i) = some (j : ℚ))
    (exactly : number? (Float.ofInt n) = some (n : ℚ)) (below : i ≤ n) : j ≤ n := by
  by_contra above
  have between := ofInt_beq_between below (not_le.mp above).le within equal
  rw [number?_congr between, ← number?_congr equal, rounded] at exactly
  have same : (j : ℚ) = n := Option.some.inj exactly
  exact above (by exact_mod_cast same.le)

theorem ge_of_number?_ofInt (within : i.natAbs < 2 ^ 64) (equal : Float.ofInt i == Float.ofInt j)
    (rounded : number? (Float.ofInt i) = some (j : ℚ))
    (exactly : number? (Float.ofInt n) = some (n : ℚ)) (above : n ≤ i) : n ≤ j := by
  by_contra below
  rw [ofInt_beq_comm] at equal
  have between := ofInt_beq_between (not_le.mp below).le above within equal
  rw [number?_congr between, rounded] at exactly
  have same : (j : ℚ) = n := Option.some.inj exactly
  exact below (by exact_mod_cast same.ge)

end

end Emend.Number
