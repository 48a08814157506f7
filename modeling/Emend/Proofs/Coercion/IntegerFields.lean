import Emend.Proofs.Number.Numeral
import Emend.Proofs.Number.Valued
import Emend.Proofs.Patch.Stored

/-!
Numbers and the text of integers in fields for integers. A number is rounded, and stored if the field
admits the integer that it is rounded to. The greatest stored integer is no double, so the bound that
the widest fields compare with is `2 ^ 63`, and that number is stored as the integer below it.

Text is read as a double before it is rounded, so an integer is stored as the one that its double is.
-/

set_option autoImplicit false

namespace Emend.ScalarKind

open Number

variable {bits : Nat} {signed : Bool}

instance (i : Int) : Decidable (Admits bits signed i) := by
  unfold Admits
  split <;> infer_instance

theorem asDouble_wide : ∀ signed, asDouble (bounds 64 signed).1 = (bounds 64 signed).1 ∧
    asDouble (bounds 64 signed).2 = 2 ^ 63 := by
  decide

theorem Admits.stored {i : Int} (admitted : Admits bits signed i) (width : bits ∈ [8, 16, 32, 64]) :
    Datum.leastInt ≤ i ∧ i ≤ Datum.greatestInt := by
  obtain ⟨above, below⟩ := (admits_iff_bounds width).mp admitted
  obtain ⟨least, greatest⟩ := bounds_stored bits width signed
  exact ⟨least.trans above, below.trans greatest⟩

/-- The bounds as doubles have them are those of the field, but for `2 ^ 63`. -/
theorem admits_iff_asDouble (width : bits ∈ [8, 16, 32, 64]) {i : Int}
    (apart : ¬ (bits = 64 ∧ i = 2 ^ 63)) :
    Admits bits signed i ↔
      asDouble (bounds bits signed).1 ≤ i ∧ i ≤ asDouble (bounds bits signed).2 := by
  rw [admits_iff_bounds width]
  by_cases wide : bits = 64
  · subst wide
    obtain ⟨least, greatest⟩ := asDouble_wide signed
    have limit : (bounds 64 signed).2 = 2 ^ 63 - 1 := by cases signed <;> rfl
    rw [least, greatest, limit]
    omega
  · have narrow : bits ∈ [8, 16, 32] := by simp_all
    obtain ⟨least, greatest⟩ := asDouble_bounds bits narrow signed
    rw [least, greatest]

theorem toInteger_of_apart (width : bits ∈ [8, 16, 32, 64]) {x : Float} {i : Int}
    (rounded : roundInt? .halfAway x = some i) (apart : ¬ (bits = 64 ∧ i = 2 ^ 63)) :
    toInteger bits signed x =
      if Admits bits signed i then .ok i
      else .error (.outOfRange x (integer bits signed).name) := by
  rw [toInteger_of_rounded rounded]
  by_cases admitted : Admits bits signed i
  · obtain ⟨least, greatest⟩ := admitted.stored width
    rw [if_pos admitted, if_pos ((admits_iff_asDouble width apart).mp admitted),
      clamp_of_mem least greatest]
  · rw [if_neg admitted, if_neg (mt (admits_iff_asDouble width apart).mpr admitted)]

/-- The bound of the widest fields is stored as the greatest integer that they admit. -/
theorem toInteger_bound (signed : Bool) {x : Float} (rounded : roundInt? .halfAway x = some (2 ^ 63)) :
    toInteger 64 signed x = .ok Datum.greatestInt := by
  obtain ⟨least, greatest⟩ := asDouble_wide signed
  rw [toInteger_of_rounded rounded, least, greatest, if_pos]
  · rfl
  · refine ⟨?_, le_refl _⟩
    cases signed <;> decide

/-- A field stores what the number is rounded to, halves going away from zero, if it admits that
integer, and else the number is out of range. Only `2 ^ 63` is stored though no field admits it. -/
theorem store_number_rounded (width : bits ∈ [8, 16, 32, 64]) (signed : Bool) (x : Float) :
    (integer bits signed).store (.number x) =
      if bits = 64 ∧ number? x = some (2 ^ 63) then .ok (.int Datum.greatestInt)
      else match ((number? x).map halfAway).filter (Admits bits signed ·) with
        | some i => .ok (.int i)
        | none => .error (.outOfRange x (integer bits signed).name) := by
  rw [store_number]
  split
  · rename_i bound
    obtain ⟨rfl, value⟩ := bound
    have rounded : roundInt? .halfAway x = some (2 ^ 63) := by
      rw [roundInt?_halfAway, value]
      exact congrArg some (halfAway_intCast (2 ^ 63))
    rw [toInteger_bound signed rounded]
    rfl
  · rename_i apart
    rw [← roundInt?_halfAway]
    cases rounded : roundInt? .halfAway x with
    | none =>
        unfold toInteger
        rw [rounded]
        rfl
    | some i =>
        have differ : ¬ (bits = 64 ∧ i = 2 ^ 63) := by
          rintro ⟨wide, rfl⟩
          exact apart ⟨wide, number?_of_long rounded (by decide)⟩
        rw [toInteger_of_apart width rounded differ, Option.filter_some]
        by_cases admitted : Admits bits signed i
        · rw [if_pos admitted, if_pos (decide_eq_true admitted)]
          rfl
        · rw [if_neg admitted, if_neg (by simpa using admitted)]
          rfl

theorem store_number_rounded_tide :
    (integer 8 true).store (.number (-128.5)) = .error (.outOfRange (-128.5) "sbyte") := by
  have rounded : roundInt? .halfAway (-128.5) = some (-129) := by decide
  have stored := store_number_rounded (show 8 ∈ [8, 16, 32, 64] by decide) true (-128.5)
  rw [if_neg (by decide), ← roundInt?_halfAway, rounded] at stored
  exact stored

/-- The double next to the greatest stored integer is not out of range. -/
theorem store_number_beyond :
    number? 9223372036854775808 = some (2 ^ 63) ∧ ¬ Admits 64 true (halfAway (2 ^ 63)) ∧
      (integer 64 true).store (.number 9223372036854775808) = .ok (.int (2 ^ 63 - 1)) := by
  have rounded : roundInt? .halfAway 9223372036854775808 = some (2 ^ 63) := by decide
  have whole : halfAway (2 ^ 63) = 2 ^ 63 := halfAway_intCast (2 ^ 63)
  refine ⟨number?_of_long rounded (by decide), by rw [whole]; decide, ?_⟩
  rw [store_number, toInteger_bound true rounded]
  rfl

theorem parseNumber?_toString_of_wide {i : Int} (within : i.natAbs < 2 ^ 64) :
    Value.parseNumber? (toString i) = some (Float.ofInt i) := by
  obtain ⟨j, rounded⟩ := exists_roundInt? .towardZero (isIntegral_ofInt within)
  rw [Value.parseNumber?_numeral (Text.isNumeral_toString i), ofText?_toString, Option.filter_some,
    isFinite_of_roundInt? rounded, if_pos rfl]

theorem Admits.short {i : Int} (admitted : Admits bits signed i) (narrow : bits ∈ [8, 16, 32]) :
    i.natAbs < 2 ^ 53 := by
  have short : ∀ bits ∈ [8, 16, 32], ∀ signed,
      -2 ^ 53 < (bounds bits signed).1 ∧ (bounds bits signed).2 < 2 ^ 53 := by
    decide
  have within := (admits_iff_bounds (List.mem_append_left [64] narrow)).mp admitted
  have := short bits narrow signed
  omega

theorem number?_ends : ∀ n : Int, n ∈ [-2 ^ 63, 0, 2 ^ 63] → number? (Float.ofInt n) = some (n : ℚ) := by
  intro n member
  simp only [List.mem_cons, List.not_mem_nil, or_false] at member
  rcases member with rfl | rfl | rfl
  · exact number?_of_long (by decide) (by decide)
  · exact congrArg some Int.cast_zero.symm
  · exact number?_of_long (by decide) (by decide)

section
variable {i j : Int}

theorem Admits.nearest (width : bits ∈ [8, 16, 32, 64]) (admitted : Admits bits signed i)
    (value : number? (Float.ofInt i) = some (j : ℚ)) (equal : Float.ofInt i == Float.ofInt j)
    (close : 2 ^ 53 * (j - i).natAbs ≤ i.natAbs) :
    asDouble (bounds bits signed).1 ≤ j ∧ j ≤ asDouble (bounds bits signed).2 := by
  by_cases wide : bits = 64
  · subst wide
    obtain ⟨least, greatest⟩ := asDouble_wide signed
    obtain ⟨above, below⟩ := admitted.stored width
    unfold Datum.leastInt at above
    unfold Datum.greatestInt at below
    have within : i.natAbs < 2 ^ 64 := by omega
    have within' : j.natAbs < 2 ^ 64 := by omega
    rw [least, greatest]
    refine ⟨?_, le_of_number?_ofInt within' equal value (number?_ends _ (by decide)) (by omega)⟩
    cases signed with
    | true => exact ge_of_number?_ofInt within equal value (number?_ends _ (by decide)) above
    | false => exact ge_of_number?_ofInt within equal value (number?_ends _ (by decide)) admitted.1
  · have short := admitted.short (by simp_all)
    obtain rfl : j = i := by omega
    exact (admits_iff_asDouble width fun bound => wide bound.1).mp admitted

theorem clamp_closer (above : Datum.leastInt ≤ i) (below : i ≤ Datum.greatestInt) :
    (Datum.clamp j - i).natAbs ≤ (j - i).natAbs := by
  unfold Datum.clamp Datum.leastInt Datum.greatestInt at *
  omega

/-- An integer that the field admits is stored from its text, off by no more than its `2 ^ 53`th part,
and exactly if it is a double or the greatest stored integer. -/
theorem read_integer_text (width : bits ∈ [8, 16, 32, 64]) (admitted : Admits bits signed i) :
    ∃ j, (integer bits signed).read (toString i) = .ok (.int j) ∧
      2 ^ 53 * (j - i).natAbs ≤ i.natAbs ∧
      (j = i ↔ (∃ x, number? x = some (i : ℚ)) ∨ i = Datum.greatestInt) := by
  obtain ⟨above, below⟩ := admitted.stored width
  have within : i.natAbs < 2 ^ 64 := by
    unfold Datum.leastInt at above
    unfold Datum.greatestInt at below
    omega
  obtain ⟨j, value, equal, close⟩ := exists_number?_ofInt within
  have rounded : roundInt? .halfAway (Float.ofInt i) = some j := by
    rw [roundInt?_halfAway, value]
    exact congrArg some (halfAway_intCast j)
  have bounded := admitted.nearest width value equal close
  have stored : (integer bits signed).read (toString i) = .ok (.int (Datum.clamp j)) := by
    rw [read_of_parseNumber? (parseNumber?_toString_of_wide within), store_number,
      toInteger_of_rounded rounded, if_pos bounded]
    rfl
  refine ⟨Datum.clamp j, stored, ?_, fun exactly => ?_, ?_⟩
  · exact (Nat.mul_le_mul_left _ (clamp_closer above below)).trans close
  · by_cases same : j = i
    · exact .inl ⟨Float.ofInt i, same ▸ value⟩
    · have ends : i = -2 ^ 63 ∨ i = Datum.greatestInt := by
        unfold Datum.clamp Datum.leastInt Datum.greatestInt at exactly
        unfold Datum.greatestInt
        omega
      rcases ends with rfl | greatest
      · exact .inl ⟨_, number?_ends (-2 ^ 63) (by decide)⟩
      · exact .inr greatest
  · rintro (⟨x, double⟩ | rfl)
    · have same := number?_ofInt_of_number? double
      rw [value] at same
      obtain rfl : j = i := by exact_mod_cast Option.some.inj same
      exact clamp_of_mem above below
    · have limit : roundInt? .halfAway (Float.ofInt Datum.greatestInt) = some (2 ^ 63) := by decide
      rw [rounded] at limit
      rw [Option.some.inj limit]
      rfl

end

theorem read_integer_text_tonnage :
    Admits 64 false Datum.greatestInt ∧
      (integer 64 false).read (toString Datum.greatestInt) = .ok (.int Datum.greatestInt) := by
  have admitted : Admits 64 false Datum.greatestInt := by decide
  obtain ⟨j, read, -, exactly⟩ := read_integer_text (by decide) admitted
  obtain rfl : j = Datum.greatestInt := exactly.mpr (.inr rfl)
  exact ⟨admitted, read⟩

/-- The first integer that is no double is stored as the one before it. -/
theorem read_integer_text_rounded :
    Admits 64 true 9007199254740993 ∧
      (integer 64 true).read (toString (9007199254740993 : Int)) = .ok (.int 9007199254740992) := by
  have rounded : roundInt? .halfAway (Float.ofInt 9007199254740993) = some 9007199254740992 := by decide
  refine ⟨by decide, ?_⟩
  rw [read_of_parseNumber? (parseNumber?_toString_of_wide (by decide)), store_number,
    toInteger_of_rounded rounded, if_pos (by decide)]
  rfl

end Emend.ScalarKind
