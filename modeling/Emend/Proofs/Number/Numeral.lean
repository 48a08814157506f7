import Emend.Coercion
import Emend.Proofs.Number.Exact

/-!
Integers written in decimal digits and read again. The text of an integer is no word, has no blanks,
and is read as the double nearest to the integer.
-/

set_option autoImplicit false

namespace Emend

namespace Text

/-- Nothing but digits, the minus sign, the point and the slash. -/
def IsNumeral (s : String) : Prop := ∀ c ∈ s.toList, 45 ≤ c.toNat ∧ c.toNat ≤ 57

theorem isBlank_of_numeral {c : Char} (low : 45 ≤ c.toNat) (high : c.toNat ≤ 57) :
    isBlank c = false := by
  unfold isBlank
  simp
  omega

theorem toLower_of_numeral {c : Char} (high : c.toNat ≤ 57) : c.toLower = c := by
  unfold Char.toLower
  split
  · rename_i upper
    have above : 65 ≤ c.toNat := upper.1
    omega
  · rfl

namespace IsNumeral

variable {s : String}

theorem trim (numeral : IsNumeral s) : Text.trim s = s :=
  trim_of_solid fun c member => isBlank_of_numeral (numeral c member).1 (numeral c member).2

end IsNumeral

theorem isNumeral_toDigits {n : Nat} {c : Char} (member : c ∈ Nat.toDigits 10 n) :
    45 ≤ c.toNat ∧ c.toNat ≤ 57 := by
  have digit := Char.isDigit_iff_toNat.mp (Nat.isDigit_of_mem_toDigits (by decide) (by decide) member)
  change 48 ≤ c.toNat ∧ c.toNat ≤ 57 at digit
  omega

theorem toList_toString_nat (n : Nat) : (toString (n : Int)).toList = Nat.toDigits 10 n :=
  Nat.toList_repr

theorem toList_toString_negSucc (n : Nat) :
    (toString (Int.negSucc n)).toList = '-' :: Nat.toDigits 10 (n + 1) := by
  change ("-" ++ Nat.repr (n + 1)).toList = _
  rw [String.toList_append, Nat.toList_repr]
  rfl

theorem isNumeral_toString (i : Int) : IsNumeral (toString i) := by
  intro c member
  rcases i with n | n
  · rw [Int.ofNat_eq_natCast, toList_toString_nat] at member
    exact isNumeral_toDigits member
  · rw [toList_toString_negSucc] at member
    rcases List.mem_cons.mp member with rfl | digit
    · decide
    · exact isNumeral_toDigits digit

end Text

namespace Number

theorem digitsValue_toDigits (n : Nat) : digitsValue (Nat.toDigits 10 n) = n :=
  Nat.ofDigitChars_ten_toDigits

theorem readUnsigned?_digits {cs : List Char} (filled : cs ≠ []) (digits : ∀ c ∈ cs, c.isDigit) :
    readUnsigned? cs = some (ofDecimal (digitsValue cs) 0) := by
  have whole : (cs ++ []).takeWhile Char.isDigit = cs ++ [] := List.takeWhile_append_of_pos digits
  have rest : (cs ++ []).dropWhile Char.isDigit = [] := List.dropWhile_append_of_pos digits
  rw [List.append_nil] at whole rest
  unfold readUnsigned?
  simp only [whole, rest, List.isEmpty_eq_false_iff.mpr filled, List.append_nil]
  rfl

theorem readUnsigned?_point {whole part : List Char} (filled : whole ≠ [])
    (first : ∀ c ∈ whole, c.isDigit) (second : ∀ c ∈ part, c.isDigit) :
    readUnsigned? (whole ++ '.' :: part) =
      some (ofDecimal (digitsValue (whole ++ part)) (0 - part.length)) := by
  have point : ('.' :: part).takeWhile Char.isDigit = [] := List.takeWhile_cons_of_neg (by decide)
  have taken : (whole ++ '.' :: part).takeWhile Char.isDigit = whole := by
    rw [List.takeWhile_append_of_pos first, point, List.append_nil]
  have dropped : (whole ++ '.' :: part).dropWhile Char.isDigit = '.' :: part := by
    rw [List.dropWhile_append_of_pos first]
    exact List.dropWhile_cons_of_neg (by decide)
  have fraction : (part ++ []).takeWhile Char.isDigit = part ++ [] :=
    List.takeWhile_append_of_pos second
  have rest : (part ++ []).dropWhile Char.isDigit = [] := List.dropWhile_append_of_pos second
  rw [List.append_nil] at fraction rest
  unfold readUnsigned?
  simp only [taken, dropped, fraction, rest, List.isEmpty_eq_false_iff.mpr filled]
  rfl

/-- Text without the letter that the words for infinity and NaN have in common is none of them. -/
theorem readMagnitude?_of_wordless {cs : List Char} (wordless : ∀ c ∈ cs, c.toLower ≠ 'n') :
    readMagnitude? cs = readUnsigned? cs := by
  have absent : 'n' ∉ cs.map Char.toLower := by
    intro member
    obtain ⟨c, inside, same⟩ := List.mem_map.mp member
    exact wordless c inside same
  unfold readMagnitude?
  split
  all_goals first | rfl | (rename_i word; rw [word] at absent; exact absurd (by decide) absent)

theorem toLower_ne_of_letterless {c : Char} (letterless : c.toNat ≤ 57) : c.toLower ≠ 'n' := by
  rw [Text.toLower_of_numeral letterless]
  rintro rfl
  exact absurd letterless (by decide)

theorem readMagnitude?_of_letterless {cs : List Char} (letterless : ∀ c ∈ cs, c.toNat ≤ 57) :
    readMagnitude? cs = readUnsigned? cs :=
  readMagnitude?_of_wordless fun c member => toLower_ne_of_letterless (letterless c member)

theorem readMagnitude?_digits {cs : List Char} (filled : cs ≠ []) (digits : ∀ c ∈ cs, c.isDigit) :
    readMagnitude? cs = some (Float.ofNat (digitsValue cs)) := by
  rw [readMagnitude?_of_letterless, readUnsigned?_digits filled digits]
  · rfl
  · exact fun c member => (Char.isDigit_iff_toNat.mp (digits c member)).2

theorem ofText?_unsigned {s : String} (unsigned : ∀ c ∈ s.toList, 46 ≤ c.toNat) :
    ofText? s = readMagnitude? s.toList := by
  unfold ofText?
  split
  · rename_i rest signed
    exact absurd (unsigned '-' (signed ▸ List.mem_cons_self)) (by decide)
  · rename_i rest signed
    exact absurd (unsigned '+' (signed ▸ List.mem_cons_self)) (by decide)
  · rfl

theorem ofText?_toString (i : Int) : ofText? (toString i) = some (Float.ofInt i) := by
  have digits (n : Nat) : ∀ c ∈ Nat.toDigits 10 n, c.isDigit :=
    fun c member => Nat.isDigit_of_mem_toDigits (by decide) (by decide) member
  have read (n : Nat) : readMagnitude? (Nat.toDigits 10 n) = some (Float.ofNat n) := by
    rw [readMagnitude?_digits Nat.toDigits_ne_nil (digits n), digitsValue_toDigits]
  rcases i with n | n
  · rw [Int.ofNat_eq_natCast, ofText?_unsigned, Text.toList_toString_nat]
    · exact read n
    · rw [Text.toList_toString_nat]
      intro c member
      have := (Char.isDigit_iff_toNat.mp (digits n c member)).1
      change 48 ≤ c.toNat at this
      omega
  · unfold ofText?
    rw [Text.toList_toString_negSucc]
    exact congrArg (Option.map Float.neg) (read (n + 1))

end Number

theorem Value.parseNumber?_of_wordless {s : String} (solid : ∀ c ∈ s.toList, Text.isBlank c = false)
    (wordless : ∀ c ∈ s.toList, c.toLower ≠ 'n') :
    parseNumber? s = (Number.ofText? s).filter Float.isFinite := by
  have absent : 'n' ∉ s.toLower.toList := by
    unfold String.toLower
    rw [String.toList_map]
    intro member
    obtain ⟨c, inside, same⟩ := List.mem_map.mp member
    exact wordless c inside same
  unfold parseNumber?
  simp only [Text.trim_of_solid solid]
  split
  all_goals first | rfl | (rename_i word; rw [word] at absent; exact absurd (by decide) absent)

theorem Value.parseNumber?_numeral {s : String} (numeral : Text.IsNumeral s) :
    parseNumber? s = (Number.ofText? s).filter Float.isFinite :=
  parseNumber?_of_wordless
    (fun c member => Text.isBlank_of_numeral (numeral c member).1 (numeral c member).2)
    fun c member => Number.toLower_ne_of_letterless (numeral c member).2

/-- An integer that is a double is read from its text. -/
theorem Value.parseNumber?_toString {i : Int} (within : i.natAbs ≤ 2 ^ 53) :
    parseNumber? (toString i) = some (Float.ofInt i) := by
  have finite := Number.isFinite_of_roundInt? (Number.roundInt?_ofInt .towardZero within)
  rw [parseNumber?_numeral (Text.isNumeral_toString i), Number.ofText?_toString,
    Option.filter_some, finite, if_pos rfl]

end Emend
