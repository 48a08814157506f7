import Emend.Proofs.Number.Nearest
import Emend.Proofs.Number.Numeral
import Emend.Proofs.Number.ReadBack

/-!
Texts that denote numbers, and the doubles that they are read as. A text that is rounded to an integer
of fewer than fifty-four bits is rounded to one next to the number that it denotes.
-/

set_option autoImplicit false

namespace Emend.Number

/-- A power of ten after the digits of a number. -/
inductive DenotesExponent : List Char → Int → Prop
  | none : DenotesExponent [] 0
  | mark {c : Char} {cs : List Char} {e : Int} (marks : c = 'e' ∨ c = 'E')
      (integer : readInt? cs = some e) : DenotesExponent (c :: cs) e

/-- Digits with a point and an exponent, both optional, and the number that they denote. -/
inductive DenotesUnsigned : List Char → ℚ → Prop
  | integral {whole rest : List Char} {e : Int} (filled : whole ≠ [])
      (digits : ∀ c ∈ whole, c.isDigit) (exponent : DenotesExponent rest e) :
      DenotesUnsigned (whole ++ rest) (digitsValue whole * 10 ^ e)
  | pointed {whole part rest : List Char} {e : Int} (filled : whole ≠ [] ∨ part ≠ [])
      (digits : ∀ c ∈ whole, c.isDigit) (decimals : ∀ c ∈ part, c.isDigit)
      (exponent : DenotesExponent rest e) :
      DenotesUnsigned (whole ++ '.' :: (part ++ rest))
        (digitsValue (whole ++ part) * 10 ^ (e - part.length))

/-- The number that a decimal text denotes, exactly. -/
inductive Denotes : List Char → ℚ → Prop
  | plain {cs : List Char} {q : ℚ} (unsigned : DenotesUnsigned cs q) : Denotes cs q
  | plus {cs : List Char} {q : ℚ} (unsigned : DenotesUnsigned cs q) : Denotes ('+' :: cs) q
  | minus {cs : List Char} {q : ℚ} (unsigned : DenotesUnsigned cs q) : Denotes ('-' :: cs) (-q)

/-- The characters of a number: digits, signs, the point and the marks of an exponent. -/
def IsNumeric (c : Char) : Prop := c.isDigit ∨ c ∈ ['+', '-', '.', 'e', 'E']

theorem IsNumeric.solid {c : Char} (numeric : IsNumeric c) : Text.isBlank c = false := by
  rcases numeric with digit | listed
  · obtain ⟨low, high⟩ := Char.isDigit_iff_toNat.mp digit
    change 48 ≤ c.toNat at low
    change c.toNat ≤ 57 at high
    exact Text.isBlank_of_numeral (by omega) high
  · simp only [List.mem_cons, List.not_mem_nil, or_false] at listed
    rcases listed with rfl | rfl | rfl | rfl | rfl <;> decide

theorem IsNumeric.toLower_ne {c : Char} (numeric : IsNumeric c) : c.toLower ≠ 'n' := by
  rcases numeric with digit | listed
  · obtain ⟨low, high⟩ := Char.isDigit_iff_toNat.mp digit
    change c.toNat ≤ 57 at high
    rw [Text.toLower_of_numeral high]
    rintro rfl
    exact absurd high (by decide)
  · simp only [List.mem_cons, List.not_mem_nil, or_false] at listed
    rcases listed with rfl | rfl | rfl | rfl | rfl <;> decide

theorem isNumeric_of_readInt? {cs : List Char} {i : Int} (read : readInt? cs = some i) :
    ∀ c ∈ cs, IsNumeric c := by
  unfold readInt? at read
  split at read
  · cases natural : readNat? _ with
    | none =>
        rw [natural] at read
        cases read
    | some n =>
        obtain ⟨-, digits, -⟩ := readNat?_eq_some natural
        exact List.forall_mem_cons.mpr ⟨.inr (by decide), fun c member => .inl (digits c member)⟩
  · obtain ⟨n, natural, -⟩ := Option.map_eq_some_iff.mp read
    obtain ⟨-, digits, -⟩ := readNat?_eq_some natural
    exact List.forall_mem_cons.mpr ⟨.inr (by decide), fun c member => .inl (digits c member)⟩
  · obtain ⟨n, natural, -⟩ := Option.map_eq_some_iff.mp read
    obtain ⟨-, digits, -⟩ := readNat?_eq_some natural
    exact fun c member => .inl (digits c member)

theorem DenotesExponent.numeric {cs : List Char} {e : Int} (denotes : DenotesExponent cs e) :
    ∀ c ∈ cs, IsNumeric c := by
  cases denotes with
  | none => exact fun c member => absurd member List.not_mem_nil
  | mark marks integer =>
      refine List.forall_mem_cons.mpr ⟨.inr ?_, isNumeric_of_readInt? integer⟩
      rcases marks with rfl | rfl <;> decide

theorem DenotesUnsigned.numeric {cs : List Char} {q : ℚ} (denotes : DenotesUnsigned cs q) :
    ∀ c ∈ cs, IsNumeric c := by
  intro c member
  cases denotes with
  | integral filled digits exponent =>
      rcases List.mem_append.mp member with digit | later
      · exact .inl (digits c digit)
      · exact exponent.numeric c later
  | pointed filled digits decimals exponent =>
      rcases List.mem_append.mp member with digit | later
      · exact .inl (digits c digit)
      · rcases List.mem_cons.mp later with rfl | later
        · exact .inr (by decide)
        · rcases List.mem_append.mp later with digit | later
          · exact .inl (decimals c digit)
          · exact exponent.numeric c later

theorem Denotes.numeric {cs : List Char} {q : ℚ} (denotes : Denotes cs q) :
    ∀ c ∈ cs, IsNumeric c := by
  cases denotes with
  | plain unsigned => exact unsigned.numeric
  | plus unsigned => exact List.forall_mem_cons.mpr ⟨.inr (by decide), unsigned.numeric⟩
  | minus unsigned => exact List.forall_mem_cons.mpr ⟨.inr (by decide), unsigned.numeric⟩

theorem DenotesExponent.read {cs : List Char} {e : Int} (denotes : DenotesExponent cs e) :
    readExponent? cs = some e := by
  cases denotes with
  | none => rfl
  | mark marks integer =>
      rcases marks with rfl | rfl
      · exact integer
      · exact integer

theorem DenotesExponent.ends {cs : List Char} {e : Int} (denotes : DenotesExponent cs e) :
    cs.takeWhile Char.isDigit = [] ∧ cs.dropWhile Char.isDigit = cs ∧ ∀ rest, cs ≠ '.' :: rest := by
  cases denotes with
  | none => exact ⟨rfl, rfl, nofun⟩
  | mark marks integer =>
      rcases marks with rfl | rfl
      · exact ⟨List.takeWhile_cons_of_neg (by decide), List.dropWhile_cons_of_neg (by decide),
          fun rest same => by injection same with head; cases head⟩
      · exact ⟨List.takeWhile_cons_of_neg (by decide), List.dropWhile_cons_of_neg (by decide),
          fun rest same => by injection same with head; cases head⟩

theorem DenotesUnsigned.read {cs : List Char} {q : ℚ} (denotes : DenotesUnsigned cs q) :
    ∃ n d, readUnsigned? cs = some (ofDecimal n d) ∧ q = n * 10 ^ d := by
  cases denotes with
  | @integral whole rest e filled digits exponent =>
      obtain ⟨none, all, pointless⟩ := exponent.ends
      refine ⟨digitsValue whole, e, ?_, rfl⟩
      have taken : (whole ++ rest).takeWhile Char.isDigit = whole := by
        rw [List.takeWhile_append_of_pos digits, none, List.append_nil]
      have dropped : (whole ++ rest).dropWhile Char.isDigit = rest := by
        rw [List.dropWhile_append_of_pos digits, all]
      unfold readUnsigned?
      simp only [taken, dropped, exponent.read, List.isEmpty_eq_false_iff.mpr filled, List.append_nil]
      exact congrArg (fun d => some (ofDecimal (digitsValue whole) d)) (Int.sub_zero e)
  | @pointed whole part rest e filled digits decimals exponent =>
      obtain ⟨none, all, -⟩ := exponent.ends
      refine ⟨digitsValue (whole ++ part), e - part.length, ?_, rfl⟩
      have point : ('.' :: (part ++ rest)).takeWhile Char.isDigit = [] :=
        List.takeWhile_cons_of_neg (by decide)
      have taken : (whole ++ '.' :: (part ++ rest)).takeWhile Char.isDigit = whole := by
        rw [List.takeWhile_append_of_pos digits, point, List.append_nil]
      have dropped :
          (whole ++ '.' :: (part ++ rest)).dropWhile Char.isDigit = '.' :: (part ++ rest) := by
        rw [List.dropWhile_append_of_pos digits]
        exact List.dropWhile_cons_of_neg (by decide)
      have fraction : (part ++ rest).takeWhile Char.isDigit = part := by
        rw [List.takeWhile_append_of_pos decimals, none, List.append_nil]
      have last : (part ++ rest).dropWhile Char.isDigit = rest := by
        rw [List.dropWhile_append_of_pos decimals, all]
      have some : (whole.isEmpty && part.isEmpty) = false := by
        rw [Bool.and_eq_false_iff, List.isEmpty_eq_false_iff, List.isEmpty_eq_false_iff]
        exact filled
      unfold readUnsigned?
      simp only [taken, dropped, fraction, last, exponent.read, some]
      rfl

theorem DenotesUnsigned.nonneg {cs : List Char} {q : ℚ} (denotes : DenotesUnsigned cs q) :
    0 ≤ q := by
  obtain ⟨n, d, -, rfl⟩ := denotes.read
  positivity

theorem DenotesUnsigned.unsigned {cs : List Char} {q : ℚ} (denotes : DenotesUnsigned cs q)
    (sign : Char) (listed : sign = '+' ∨ sign = '-') (rest : List Char) : cs ≠ sign :: rest := by
  have digitless : sign.isDigit = false := by rcases listed with rfl | rfl <;> rfl
  have pointless : sign ≠ '.' := by rcases listed with rfl | rfl <;> decide
  have other {whole tail : List Char} (filled : whole ≠ []) (digits : ∀ c ∈ whole, c.isDigit) :
      whole ++ tail ≠ sign :: rest := by
    intro same
    obtain ⟨c, cs, rfl⟩ := List.exists_cons_of_ne_nil filled
    injection same with head
    have digit := digits c List.mem_cons_self
    rw [head, digitless] at digit
    cases digit
  cases denotes with
  | integral filled digits exponent => exact other filled digits
  | @pointed whole part rest e filled digits decimals exponent =>
      by_cases empty : whole = []
      · rw [empty]
        intro same
        injection same with head
        exact pointless head.symm
      · exact other empty digits

/-- A double that is read from a text is near to the number that the text denotes, or to its opposite
if the sign says so. -/
theorem Denotes.read {s : String} {q : ℚ} (denotes : Denotes s.toList q) :
    ∃ x, IsNearest |q| (unpack x) ∧
      (0 ≤ q ∧ ofText? s = some x ∨ q ≤ 0 ∧ ofText? s = some x.neg) := by
  have magnitude {cs : List Char} {q : ℚ} (unsigned : DenotesUnsigned cs q) :
      ∃ x, readMagnitude? cs = some x ∧ IsNearest q (unpack x) := by
    obtain ⟨n, d, read, rfl⟩ := unsigned.read
    refine ⟨ofDecimal n d, ?_, isNearest_ofDecimal n d⟩
    rw [readMagnitude?_of_wordless fun c member => (unsigned.numeric c member).toLower_ne, read]
  unfold ofText?
  generalize s.toList = cs at denotes
  cases denotes with
  | plain unsigned =>
      obtain ⟨x, read, nearest⟩ := magnitude unsigned
      refine ⟨x, by rwa [abs_of_nonneg unsigned.nonneg], .inl ⟨unsigned.nonneg, ?_⟩⟩
      split
      · exact absurd rfl (unsigned.unsigned '-' (.inr rfl) _)
      · exact absurd rfl (unsigned.unsigned '+' (.inl rfl) _)
      · exact read
  | plus unsigned =>
      obtain ⟨x, read, nearest⟩ := magnitude unsigned
      exact ⟨x, by rwa [abs_of_nonneg unsigned.nonneg], .inl ⟨unsigned.nonneg, read⟩⟩
  | minus unsigned =>
      obtain ⟨x, read, nearest⟩ := magnitude unsigned
      refine ⟨x, by rwa [abs_neg, abs_of_nonneg unsigned.nonneg], .inr ⟨?_, ?_⟩⟩
      · exact neg_nonpos.mpr unsigned.nonneg
      · exact congrArg (Option.map Float.neg) read

end Emend.Number

namespace Emend

open Number

/-- The integer that a text is taken for. -/
def Value.literalInteger? (s : String) : Option Int :=
  (Value.parseNumber? s).bind (roundInt? .halfAway)

/-- A text is taken for an integer next to the number that it denotes. -/
theorem Value.neighbours_literalInteger? {s : String} {q : ℚ} {y : Int}
    (denotes : Denotes s.toList q)
    (taken : Value.literalInteger? s = some y) (short : y.natAbs < 2 ^ 53) : Neighbours q y := by
  obtain ⟨v, parsed, rounded⟩ := Option.bind_eq_some_iff.mp taken
  rw [Value.parseNumber?_of_wordless (fun c member => (denotes.numeric c member).solid)
    fun c member => (denotes.numeric c member).toLower_ne] at parsed
  have read := (Option.filter_eq_some_iff.mp parsed).1
  obtain ⟨x, nearest, ⟨nonneg, same⟩ | ⟨nonpos, same⟩⟩ := denotes.read
  · rw [read] at same
    cases same
    rw [abs_of_nonneg nonneg] at nearest
    exact nearest.neighbours nonneg rounded short
  · rw [read] at same
    cases same
    have opposite := nearest.neighbours (abs_nonneg q) (roundInt?_of_neg rounded)
      (by rwa [Int.natAbs_neg])
    rw [abs_of_nonpos nonpos] at opposite
    have neighbours := opposite.neg
    rwa [neg_neg, Int.neg_neg] at neighbours

end Emend
