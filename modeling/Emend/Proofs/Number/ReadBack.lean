import Emend.Proofs.Number.Numeral
import Emend.Proofs.Number.Shortest
import Emend.Proofs.Number.Whole

/-!
Numbers written as text and read again. The written form of every double is read as that double, and
digits that are read as an integer are read as the double nearest to it.
-/

set_option autoImplicit false

namespace Emend.Number

theorem digitsValue_zeros_append (zeros : Nat) (ds : List Char) :
    digitsValue (List.replicate zeros '0' ++ ds) = digitsValue ds := by
  change Nat.ofDigitChars 10 (List.replicate zeros '0' ++ ds) 0 = Nat.ofDigitChars 10 ds 0
  rw [Nat.ofDigitChars_append, Nat.ofDigitChars_replicate_zero, Nat.mul_zero]

theorem digitsValue_append_zeros (ds : List Char) (zeros : Nat) :
    digitsValue (ds ++ List.replicate zeros '0') = digitsValue ds * 10 ^ zeros := by
  change Nat.ofDigitChars 10 (ds ++ List.replicate zeros '0') 0 = Nat.ofDigitChars 10 ds 0 * 10 ^ zeros
  rw [Nat.ofDigitChars_append, Nat.ofDigitChars_replicate_zero, Nat.mul_comm]

section
variable {digits : List Char} (digital : ∀ c ∈ digits, c.isDigit)
include digital

theorem isDigit_zeros_append (zeros : Nat) :
    ∀ c ∈ List.replicate zeros '0' ++ digits, c.isDigit := by
  intro c member
  rcases List.mem_append.mp member with zero | digit
  · rw [List.eq_of_mem_replicate zero]
    decide
  · exact digital c digit

theorem isDigit_append_zeros (zeros : Nat) :
    ∀ c ∈ digits ++ List.replicate zeros '0', c.isDigit := by
  intro c member
  exact isDigit_zeros_append digital zeros c
    (List.mem_append.mpr (List.mem_append.mp member).symm)

theorem readUnsigned?_placePoint (filled : digits ≠ []) (point : Int) :
    ∃ (n : Nat) (d : Int),
      readUnsigned? (placePoint digits point "").toList = some (ofDecimal n d) ∧
      (n * 10 ^ d : ℚ) = digitsValue digits * 10 ^ (point - digits.length) := by
  unfold placePoint
  split
  · rename_i before
    refine ⟨digitsValue digits, point - digits.length, ?_, rfl⟩
    have zero : ∀ c ∈ ['0'], c.isDigit := by simp
    have read := readUnsigned?_point (List.cons_ne_nil '0' []) zero
      (isDigit_zeros_append digital (-point).toNat)
    have value : digitsValue (['0'] ++ (List.replicate (-point).toNat '0' ++ digits)) =
        digitsValue digits := by
      rw [← List.append_assoc]
      exact digitsValue_zeros_append ((-point).toNat + 1) digits
    have exponent : (0 : Int) - (List.replicate (-point).toNat '0' ++ digits).length =
        point - digits.length := by
      rw [List.length_append, List.length_replicate]
      omega
    rw [value, exponent] at read
    simp only [String.toList_append, String.toList_ofList]
    exact read
  · split
    · rename_i after short
      refine ⟨digitsValue digits * 10 ^ (point.toNat - digits.length), 0, ?_, ?_⟩
      · have read := readUnsigned?_digits (List.append_ne_nil_of_left_ne_nil filled _)
          (isDigit_append_zeros digital (point.toNat - digits.length))
        rw [digitsValue_append_zeros] at read
        rw [String.append_empty, String.toList_ofList]
        exact read
      · have power : (10 : ℚ) ^ (point - digits.length) = 10 ^ (point.toNat - digits.length) := by
          rw [← zpow_natCast]
          congr 1
          omega
        rw [power, zpow_zero, mul_one]
        push_cast
        rfl
    · rename_i after long
      refine ⟨digitsValue digits, point - digits.length, ?_, rfl⟩
      have begun : digits.take point.toNat ≠ [] := by
        rw [Ne, List.take_eq_nil_iff]
        simp only [filled, or_false]
        omega
      have whole : ∀ c ∈ digits.take point.toNat, c.isDigit :=
        fun c member => digital c (List.mem_of_mem_take member)
      have part : ∀ c ∈ digits.drop point.toNat, c.isDigit :=
        fun c member => digital c (List.mem_of_mem_drop member)
      have read := readUnsigned?_point begun whole part
      have exponent : (0 : Int) - (digits.drop point.toNat).length = point - digits.length := by
        rw [List.length_drop]
        omega
      rw [List.take_append_drop, exponent] at read
      simp only [String.toList_append, String.toList_ofList, List.append_assoc]
      exact read

theorem placePoint_chars (point : Int) :
    ∀ c ∈ (placePoint digits point "").toList, c = '.' ∨ c.isDigit := by
  intro c member
  unfold placePoint at member
  split at member
  · simp only [String.toList_append, String.toList_ofList] at member
    rcases List.mem_append.mp member with start | digit
    · simp at start
      rcases start with rfl | rfl
      · exact .inr (by decide)
      · exact .inl rfl
    · exact .inr (isDigit_zeros_append digital _ c digit)
  · split at member
    · rw [String.append_empty, String.toList_ofList] at member
      exact .inr (isDigit_append_zeros digital _ c member)
    · simp only [String.toList_append, String.toList_ofList, List.mem_append] at member
      rcases member with (whole | point) | part
      · exact .inr (digital c (List.mem_of_mem_take whole))
      · exact .inl (by simpa using point)
      · exact .inr (digital c (List.mem_of_mem_drop part))

end

theorem unpack_ofDecimal {m : Nat} {e : Int} {n : Nat} {d : Int} (canonical : Canonical m e)
    (rounds : RoundsTo m e (n * 10 ^ d)) :
    unpack (ofDecimal n d) = .finite .positive m e canonical.positive := by
  have exponent : (if decide (d < 0) then -(d.natAbs : Int) else d.natAbs) = d := by
    simp only [decide_eq_true_eq]
    split <;> omega
  refine unpack_ofScientific canonical ?_
  rw [exponent]
  exact rounds

theorem isDigit_toDigits (n : Nat) : ∀ c ∈ Nat.toDigits 10 n, c.isDigit :=
  fun _ member => Nat.isDigit_of_mem_toDigits (by decide) (by decide) member

theorem write_plain (d : Decimal) : d.write .plain =
    placePoint (Nat.toDigits 10 d.digits) (d.exponent + (Nat.toDigits 10 d.digits).length) "" := by
  have digits : (toString d.digits).toList = Nat.toDigits 10 d.digits := Nat.toList_repr
  unfold Decimal.write
  dsimp only [Layout.plain]
  rw [digits, Int.sub_add_cancel]

theorem write_plain_unsigned (d : Decimal) :
    ∀ c ∈ (d.write .plain).toList, 46 ≤ c.toNat ∧ c.toNat ≤ 57 := by
  intro c member
  rw [write_plain] at member
  rcases placePoint_chars (isDigit_toDigits d.digits) _ c member with rfl | digit
  · decide
  · have := Char.isDigit_iff_toNat.mp digit
    change 48 ≤ c.toNat ∧ c.toNat ≤ 57 at this
    omega

theorem readMagnitude?_shortest (tie : Tie) {x : Float} {m : Nat} {e : Int} {positive : 0 < m}
    (unpacked : unpack x = .finite .positive m e positive) :
    readMagnitude? ((shortest tie m e).write .plain).toList = some x := by
  have canonical := canonical_of_unpack unpacked
  have rounds := roundsTo_shortest tie canonical
  obtain ⟨n, d, read, value⟩ := readUnsigned?_placePoint (isDigit_toDigits (shortest tie m e).digits)
    Nat.toDigits_ne_nil
    ((shortest tie m e).exponent + (Nat.toDigits 10 (shortest tie m e).digits).length)
  rw [digitsValue_toDigits, Int.add_sub_cancel] at value
  rw [readMagnitude?_of_letterless fun c member => (write_plain_unsigned _ c member).2, write_plain,
    read]
  refine congrArg some (eq_of_unpack ?_)
  rw [unpacked, unpack_ofDecimal canonical (value ▸ rounds)]

/-- The written form of a double is read as that double. -/
theorem ofText?_toText (x : Float) : ofText? (toText x) = some x := by
  unfold toText write
  dsimp only
  split
  · rename_i unpacked
    exact congrArg some (eq_of_unpack (Eq.trans (by rfl) unpacked.symm))
  · rename_i unpacked
    exact congrArg some (eq_of_unpack (Eq.trans (by rfl) unpacked.symm))
  · rename_i unpacked
    exact congrArg some (eq_of_unpack (Eq.trans (by rfl) unpacked.symm))
  · rename_i s unpacked
    cases s
    · exact congrArg some (eq_of_unpack (Eq.trans (by rfl) unpacked.symm))
    · exact congrArg some (eq_of_unpack (Eq.trans (by rfl) unpacked.symm))
  · rename_i s m e positive unpacked
    cases s with
    | positive =>
        rw [ofText?_unsigned fun c member => (write_plain_unsigned _ c member).1]
        exact readMagnitude?_shortest _ unpacked
    | negative =>
        have opposite : unpack x.neg = .finite .positive m e positive := unpack_neg unpacked
        have back : x.neg.neg = x := eq_of_unpack ((unpack_neg opposite).trans unpacked.symm)
        unfold ofText?
        rw [String.toList_append]
        change (readMagnitude? ((shortest _ m e).write .plain).toList).map Float.neg = _
        rw [readMagnitude?_shortest _ opposite, Option.map_some, back]

theorem isSolid_of_unsigned {text : String}
    (unsigned : ∀ c ∈ text.toList, 46 ≤ c.toNat ∧ c.toNat ≤ 57) :
    ∀ c ∈ text.toList, Text.isBlank c = false := fun c member =>
  Text.isBlank_of_numeral (Nat.le_trans (by decide) (unsigned c member).1) (unsigned c member).2

theorem isSolid_of_signed {text : String}
    (unsigned : ∀ c ∈ text.toList, 46 ≤ c.toNat ∧ c.toNat ≤ 57) :
    ∀ c ∈ ("-" ++ text).toList, Text.isBlank c = false := by
  intro c member
  rw [String.toList_append] at member
  rcases List.mem_append.mp member with sign | rest
  · have minus : c = '-' := by simpa using sign
    rw [minus]
    decide
  · exact isSolid_of_unsigned unsigned c rest

theorem isSolid_toText (x : Float) : ∀ c ∈ (toText x).toList, Text.isBlank c = false := by
  have zero : ∀ c ∈ ("0" ++ Layout.plain.integralEnd).toList, 46 ≤ c.toNat ∧ c.toNat ≤ 57 := by
    simp [Layout.plain]
  unfold toText write
  dsimp only
  split
  · simp [Layout.plain, Text.isBlank]
  · simp [Layout.plain, Text.isBlank]
  · simp [Layout.plain, Text.isBlank]
  · rename_i s _
    cases s with
    | positive => exact isSolid_of_unsigned zero
    | negative => exact isSolid_of_signed zero
  · rename_i s m e _ _
    cases s with
    | positive => exact isSolid_of_unsigned (write_plain_unsigned _)
    | negative => exact isSolid_of_signed (write_plain_unsigned _)

theorem readNat?_eq_some {cs : List Char} {n : Nat} (read : readNat? cs = some n) :
    cs ≠ [] ∧ (∀ c ∈ cs, c.isDigit) ∧ digitsValue cs = n := by
  unfold readNat? at read
  split at read
  · cases read
  · rename_i digits
    simp only [Bool.or_eq_true, not_or, List.isEmpty_iff, Bool.not_eq_true', Bool.not_eq_false,
      List.all_eq_true] at digits
    exact ⟨digits.1, digits.2, Option.some.inj read⟩

/-- The negated double of a natural number is the double of its negative, but for the sign of zero. -/
theorem neg_ofNat_beq (n : Nat) : (Float.ofNat n).neg == Float.ofInt (-(n : Int)) := by
  cases n with
  | zero => rfl
  | succ n => exact ofInt_beq_self (.negSucc n)

theorem ofText?_of_readInt? {s : String} {i : Int} (read : readInt? s.toList = some i) :
    ∃ x, ofText? s = some x ∧ x == Float.ofInt i := by
  unfold readInt? at read
  unfold ofText?
  split at read
  · rename_i rest signed
    cases natural : readNat? rest with
    | none =>
        rw [natural] at read
        cases read
    | some n =>
        rw [natural] at read
        cases read
        obtain ⟨filled, digits, rfl⟩ := readNat?_eq_some natural
        exact ⟨_, congrArg (Option.map Float.neg) (readMagnitude?_digits filled digits),
          neg_ofNat_beq _⟩
  · rename_i rest signed
    obtain ⟨n, natural, rfl⟩ := Option.map_eq_some_iff.mp read
    obtain ⟨filled, digits, rfl⟩ := readNat?_eq_some natural
    exact ⟨_, readMagnitude?_digits filled digits, ofInt_beq_self (.ofNat _)⟩
  · obtain ⟨n, natural, rfl⟩ := Option.map_eq_some_iff.mp read
    obtain ⟨filled, digits, rfl⟩ := readNat?_eq_some natural
    exact ⟨_, readMagnitude?_digits filled digits, ofInt_beq_self (.ofNat _)⟩

end Emend.Number
