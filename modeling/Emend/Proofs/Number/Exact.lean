import Emend.Number.Binary
import Emend.Proofs.Number.Integers

/-!
Integers that are doubles. Up to `2 ^ 53` in magnitude an integer is its own nearest double: read back
in any rounding it is the same integer, so different ones are different doubles.
-/

set_option autoImplicit false

namespace Emend.Number

open Float.Model (UnpackedFloat Format)
open Float.Model.UnpackedFloat (Sign)

theorem unpack_pack (s : Sign) {m : Nat} {e : Int} (positive : 0 < m) (low : 2 ^ 52 ≤ m)
    (high : m < 2 ^ 53) (least : -1074 ≤ e) (greatest : e ≤ 971) :
    UnpackedFloat.unpack .binary64 (UnpackedFloat.pack .binary64 (.finite s m e positive)) =
      .finite s m e positive := by
  have bits : m.log2 = 52 := (Nat.log2_eq_iff (Nat.ne_of_gt positive)).mpr ⟨low, high⟩
  have biased : (e + Format.binary64.exponentBias +
      Format.binary64.mantissaBitsWithoutImplicit).toNat = (e + 1075).toNat := by
    change (e + ((1023 : Nat) : Int) + ((52 : Nat) : Int)).toNat = _
    omega
  have stored : (BitVec.ofNat 11 (e + 1075).toNat).toNat = (e + 1075).toNat := by
    rw [BitVec.toNat_ofNat, Nat.mod_eq_of_lt (by omega)]
  have notFull : BitVec.ofNat 11 (e + 1075).toNat ≠ -1#11 := by
    intro full
    have same := congrArg BitVec.toNat full
    rw [stored] at same
    change (e + 1075).toNat = 2047 at same
    omega
  have notEmpty : BitVec.ofNat 11 (e + 1075).toNat ≠ 0#11 := by
    intro empty
    have same := congrArg BitVec.toNat empty
    rw [stored] at same
    change (e + 1075).toNat = 0 at same
    omega
  have mantissa : (1#1 ++ BitVec.ofNat 52 m).toNat = m := by
    rw [BitVec.toNat_append, ← Nat.shiftLeft_add_eq_or_of_lt (BitVec.ofNat 52 m).isLt,
      BitVec.toNat_ofNat, Nat.shiftLeft_eq]
    change 1 * 2 ^ 52 + m % 2 ^ 52 = m
    omega
  unfold UnpackedFloat.pack
  dsimp only
  rw [bits, biased, if_neg (by omega), if_pos (by decide)]
  unfold UnpackedFloat.unpack
  simp only [UnpackedFloat.unpackMantissa_packComponents,
    UnpackedFloat.unpackExponent_packComponents, UnpackedFloat.unpackSign_packComponents,
    Sign.ofBitVec_toBitVec, stored, notFull,
    notEmpty, mantissa, ↓reduceIte]
  congr 1
  change ((e + 1075).toNat : Int) - (((1023 : Nat) : Int) + ((52 : Nat) : Int)) = e
  omega

theorem shiftRight_exact (m n : Nat) :
    UnpackedFloat.ExtendedMantissa.ofMantissaAndAccuracy (m * 2 ^ n) .exact >>> n =
      .ofMantissaAndAccuracy m .exact := by
  change n.repeat UnpackedFloat.ExtendedMantissa.shiftRightOne ⟨m * 2 ^ n, false, false⟩ =
    ⟨m, false, false⟩
  induction n generalizing m with
  | zero => simp [Nat.repeat]
  | succ n ih =>
      have split : m * 2 ^ (n + 1) = (m * 2) * 2 ^ n := by
        rw [Nat.pow_succ, Nat.mul_comm (2 ^ n), Nat.mul_assoc]
      rw [Nat.repeat, split, ih]
      simp [UnpackedFloat.ExtendedMantissa.shiftRightOne]

theorem log2_mul_two_pow {m : Nat} (positive : 0 < m) (n : Nat) : (m * 2 ^ n).log2 = m.log2 + n := by
  apply (Nat.log2_eq_iff (Nat.ne_of_gt (Nat.mul_pos positive (Nat.two_pow_pos n)))).mpr
  constructor
  · rw [Nat.pow_add]
    exact Nat.mul_le_mul_right _ (Nat.log2_self_le (Nat.ne_of_gt positive))
  · rw [Nat.add_right_comm, Nat.pow_add]
    exact Nat.mul_lt_mul_of_pos_right Nat.lt_log2_self (Nat.two_pow_pos n)

theorem shiftToTargetExponent_exact {m : Nat} {e : Int} (n : Nat) (low : 2 ^ 52 ≤ m)
    (high : m < 2 ^ 53) (least : -1074 ≤ e) :
    UnpackedFloat.shiftToTargetExponent .binary64 (m * 2 ^ n) (e - n) .exact =
      (.ofMantissaAndAccuracy m .exact, e) := by
  have positive : 0 < m := Nat.lt_of_lt_of_le (Nat.two_pow_pos 52) low
  have length : m.log2 = 52 := (Nat.log2_eq_iff (Nat.ne_of_gt positive)).mpr ⟨low, high⟩
  have longer : (m * 2 ^ n).log2 = 52 + n := by rw [log2_mul_two_pow positive, length]
  have target : Format.binary64.targetExponent (Float.Model.totalExponent (m * 2 ^ n) (e - n)) =
      e := by
    unfold Format.targetExponent Float.Model.totalExponent
    rw [longer]
    change max ((((52 + n : Nat) : Int) + 1 + (e - n)) - ((53 : Nat) : Int)) (-1074) = e
    omega
  have amount : (e - (e - n)).toNat = n := by omega
  unfold UnpackedFloat.shiftToTargetExponent UnpackedFloat.shiftToExponent
  simp only [target, amount, shiftRight_exact, Prod.mk.injEq, true_and]
  omega

/-- Rounding loses nothing of a normal double that is written with more bits. -/
theorem roundWithAccuracy_exact (s : Sign) {m : Nat} {e : Int} (n : Nat) (positive : 0 < m)
    (low : 2 ^ 52 ≤ m) (high : m < 2 ^ 53) (least : -1074 ≤ e) :
    UnpackedFloat.roundWithAccuracy .binary64 s (m * 2 ^ n) (e - n) .exact =
      .finite s m e positive := by
  have first := shiftToTargetExponent_exact n low high least
  have second := shiftToTargetExponent_exact 0 low high least
  rw [Nat.pow_zero, Nat.mul_one, Int.natCast_zero, Int.sub_zero] at second
  have whole : (UnpackedFloat.ExtendedMantissa.ofMantissaAndAccuracy m .exact).roundedMantissa = m :=
    rfl
  unfold UnpackedFloat.roundWithAccuracy
  simp only [first, whole, second]
  exact dif_neg (Nat.ne_of_gt positive)

/-- A normal mantissa and exponent that make up a natural number. -/
structure Makes (n m : Nat) (e : Int) : Prop where
  low : 2 ^ 52 ≤ m
  high : m < 2 ^ 53
  least : -1074 ≤ e
  greatest : e ≤ 971
  whole : ∀ (rounding : Rounding) (s : Sign), rounding.integer s m e = s.apply n

theorem Makes.positive {n m : Nat} {e : Int} (makes : Makes n m e) : 0 < m :=
  Nat.lt_of_lt_of_le (Nat.two_pow_pos 52) makes.low

theorem integer_shifted (rounding : Rounding) (s : Sign) (n k : Nat) :
    rounding.integer s (n * 2 ^ k) (-(k : Int)) = s.apply n := by
  unfold Rounding.integer
  split
  · rename_i whole
    have none : k = 0 := by omega
    subst none
    simp
  · have shift : (- -(k : Int)).toNat = k := by omega
    have unit : 0 < 2 ^ k := Nat.two_pow_pos k
    unfold Rounding.magnitude
    dsimp only
    rw [shift, Nat.pow_eq, Nat.mul_div_cancel _ unit, Nat.mul_mod_left]
    cases rounding <;> cases s <;> simp

/-- The zeros that fill the mantissa of a small number. -/
def zeros (n : Nat) : Nat := 52 - n.log2

theorem makes_small {n : Nat} (positive : 0 < n) (small : n < 2 ^ 53) :
    Makes n (n * 2 ^ zeros n) (-(zeros n : Int)) := by
  unfold zeros
  have nonzero : n ≠ 0 := Nat.ne_of_gt positive
  have within : n.log2 < 53 := (Nat.log2_lt nonzero).mpr small
  have low : 2 ^ n.log2 ≤ n := Nat.log2_self_le nonzero
  have high : n < 2 ^ (n.log2 + 1) := Nat.lt_log2_self
  constructor
  · calc
      2 ^ 52 = 2 ^ n.log2 * 2 ^ (52 - n.log2) := by
        rw [← Nat.pow_add]
        congr 1
        omega
      _ ≤ n * 2 ^ (52 - n.log2) := Nat.mul_le_mul_right _ low
  · calc
      n * 2 ^ (52 - n.log2) < 2 ^ (n.log2 + 1) * 2 ^ (52 - n.log2) :=
        Nat.mul_lt_mul_of_pos_right high (Nat.two_pow_pos _)
      _ = 2 ^ 53 := by
        rw [← Nat.pow_add]
        congr 1
        omega
  · omega
  · omega
  · exact fun rounding s => integer_shifted rounding s n _

/-- A small number with its mantissa filled. -/
def filled {n : Nat} (positive : 0 < n) (small : n < 2 ^ 53) : UnpackedFloat :=
  .finite .positive (n * 2 ^ zeros n) (-(zeros n : Int)) (makes_small positive small).positive

theorem ofInt_natCast {n : Nat} (positive : 0 < n) (small : n < 2 ^ 53) :
    UnpackedFloat.ofInt .binary64 (n : Int) = filled positive small := by
  have makes := makes_small positive small
  have within : n.log2 < 53 := (Nat.log2_lt (Nat.ne_of_gt positive)).mpr small
  have target : Format.binary64.targetExponent (Float.Model.totalExponent n 0) =
      -(zeros n : Int) := by
    unfold Format.targetExponent Float.Model.totalExponent zeros
    change max (((n.log2 : Int) + 1 + 0) - ((53 : Nat) : Int)) (-1074) = _
    omega
  have amount : (- -(zeros n : Int)).toNat = zeros n := by omega
  have order : compare (n : Int) 0 = .gt := by
    rw [Int.compare_eq_gt]
    omega
  unfold UnpackedFloat.ofInt UnpackedFloat.normalize
  rw [order]
  change UnpackedFloat.round .binary64 .positive n 0 = _
  unfold UnpackedFloat.round UnpackedFloat.decreaseExponent
  simp only [target, Nat.shiftLeft_eq, Int.zero_sub, amount]
  have rounded := roundWithAccuracy_exact .positive 0 makes.positive makes.low makes.high makes.least
  rwa [Nat.pow_zero, Nat.mul_one, Int.natCast_zero, Int.sub_zero] at rounded

theorem unpack_toFloat {n : Nat} (positive : 0 < n) (small : n < 2 ^ 53) :
    unpack n.toUInt64.toFloat = filled positive small := by
  have makes := makes_small positive small
  have kept : n.toUInt64.toNat = n := by
    change (UInt64.ofNat n).toNat = n
    exact UInt64.toNat_ofNat_of_lt' (Nat.lt_trans small (by decide))
  change UnpackedFloat.unpack .binary64 (UnpackedFloat.pack .binary64
    (UnpackedFloat.ofInt .binary64 (n.toUInt64.toNat : Int))) = _
  rw [kept, ofInt_natCast positive small]
  exact unpack_pack .positive makes.positive makes.low makes.high makes.least makes.greatest

theorem unpack_ofNat {n : Nat} (positive : 0 < n) (small : n < 2 ^ 53) :
    unpack (Float.ofNat n) = filled positive small := by
  have makes := makes_small positive small
  have converted := unpack_toFloat positive small
  have one : unpack (Float.exactlyRepresentablePowersOfTen[0]) =
      .finite .positive (2 ^ 52) (-52) (by decide) := by rfl
  change unpack (Float.ofScientific n false 0) = _
  unfold Float.ofScientific
  rw [dif_pos ⟨small, by decide⟩]
  change UnpackedFloat.unpack .binary64 (UnpackedFloat.pack .binary64 (UnpackedFloat.mul .binary64
    (unpack n.toUInt64.toFloat) (unpack (Float.exactlyRepresentablePowersOfTen[0])))) = _
  rw [converted, one]
  have rounded := roundWithAccuracy_exact .positive 52 makes.positive makes.low makes.high makes.least
  change UnpackedFloat.unpack .binary64 (UnpackedFloat.pack .binary64
    (UnpackedFloat.roundWithAccuracy .binary64 .positive _ _ .exact)) = _
  refine (congrArg (fun u => UnpackedFloat.unpack .binary64 (UnpackedFloat.pack .binary64 u))
    rounded).trans ?_
  exact unpack_pack .positive makes.positive makes.low makes.high makes.least makes.greatest

/-- The first number with fifty-four bits is even. -/
theorem makes_limit : Makes (2 ^ 53) (2 ^ 52) 1 where
  low := Nat.le_refl _
  high := by decide
  least := by decide
  greatest := by decide
  whole _ _ := rfl

theorem exists_makes {n : Nat} (positive : 0 < n) (within : n ≤ 2 ^ 53) :
    ∃ m e, ∃ makes : Makes n m e,
      unpack (Float.ofNat n) = .finite .positive m e makes.positive := by
  rcases Nat.lt_or_eq_of_le within with small | rfl
  · exact ⟨_, _, makes_small positive small, unpack_ofNat positive small⟩
  · exact ⟨_, _, makes_limit, by rfl⟩

theorem roundInt?_ofInt (rounding : Rounding) {i : Int} (within : i.natAbs ≤ 2 ^ 53) :
    roundInt? rounding (Float.ofInt i) = some i := by
  rcases i with n | n
  · by_cases zero : n = 0
    · subst zero
      rfl
    · obtain ⟨m, e, makes, unpacked⟩ := exists_makes (Nat.pos_of_ne_zero zero) within
      change roundInt? rounding (Float.ofNat n) = _
      unfold roundInt?
      rw [unpacked]
      exact congrArg some (makes.whole rounding .positive)
  · obtain ⟨m, e, makes, unpacked⟩ := exists_makes (Nat.succ_pos n) within
    have negated : unpack (Float.ofInt (.negSucc n)) = .finite .negative m e makes.positive := by
      change UnpackedFloat.unpack .binary64 (UnpackedFloat.pack .binary64
        (unpack (Float.ofNat (n + 1))).neg) = _
      rw [unpacked]
      exact unpack_pack .negative makes.positive makes.low makes.high makes.least makes.greatest
    unfold roundInt?
    rw [negated]
    exact congrArg some (makes.whole rounding .negative)

theorem isFinite_of_roundInt? {rounding : Rounding} {x : Float} {i : Int}
    (rounded : roundInt? rounding x = some i) : x.isFinite := by
  change (unpack x).isFinite = true
  unfold roundInt? at rounded
  split at rounded
  · rename_i zero
    rw [zero]
    rfl
  · rename_i finite
    rw [finite]
    rfl
  · cases rounded

theorem roundInt?_congr (rounding : Rounding) {x y : Float} (equal : x == y) :
    roundInt? rounding x = roundInt? rounding y := by
  obtain ⟨-, -, rfl | ⟨rfl, rfl⟩ | ⟨rfl, rfl⟩⟩ := Float.beq_iff_ne_nan_and_eq.mp equal
  · rfl
  · rfl
  · rfl

/-- Integers in the range are equal as doubles only if they are equal. -/
theorem ofInt_beq {i j : Int} (left : i.natAbs ≤ 2 ^ 53) (right : j.natAbs ≤ 2 ^ 53) :
    (Float.ofInt i == Float.ofInt j) = decide (i = j) := by
  by_cases same : i = j
  · subst same
    rw [ofInt_beq_self, decide_eq_true rfl]
  · rw [decide_eq_false same]
    apply Bool.eq_false_iff.mpr
    intro equal
    have rounded := roundInt?_congr .towardZero equal
    rw [roundInt?_ofInt _ left, roundInt?_ofInt _ right] at rounded
    exact same (Option.some.inj rounded)

end Emend.Number
