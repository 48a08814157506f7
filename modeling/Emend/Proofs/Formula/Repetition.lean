import Emend.Proofs.Formula.Parts
import Emend.Proofs.Number.Valued

/-!
Texts that are repeated. A number of repetitions counts if it is a natural number, however long, and
the result is within the limit if its true length is: neither the number nor the length is taken for
another one because it is too long to be told apart. The limit counts characters, though, and a result
within it may have more bytes than a text can have.
-/

set_option autoImplicit false

namespace Emend.Formula

open Number (number?)

theorem count?_eq_some_iff {x : Float} {n : Nat} : count? x = some n ↔ number? x = some (n : ℚ) := by
  constructor
  · intro counted
    unfold count? at counted
    split at counted
    · rename_i proper
      obtain ⟨i, rounded, rfl⟩ := Option.map_eq_some_iff.mp counted
      have value := Number.number?_of_isIntegral proper.2 rounded
      have nonneg : (0 : ℚ) ≤ i := (Number.zero_le_iff_number? value).mp proper.1
      have same : (i.toNat : ℤ) = i := Int.toNat_of_nonneg (by exact_mod_cast nonneg)
      rw [value, ← Int.cast_natCast, same]
    · cases counted
  · intro value
    have integral : number? x = some ((n : ℤ) : ℚ) := by rw [value, Int.cast_natCast]
    have whole := Number.isIntegral_of_number? integral
    have nonneg : 0 ≤ x := (Number.zero_le_iff_number? value).mpr n.cast_nonneg
    obtain ⟨i, rounded⟩ := Number.exists_roundInt? .towardZero whole
    have same := (Number.number?_of_isIntegral whole rounded).symm.trans integral
    rw [Option.some_inj, Int.cast_inj] at same
    unfold count?
    rw [if_pos ⟨nonneg, whole⟩, rounded, same]
    rfl

/-- A product that is cut to a cap does not depend on whether its factor was cut to it before. -/
theorem min_mul_min (size count cap : Nat) :
    min (size * min count cap) cap = min (size * count) cap := by
  rcases Nat.le_total count cap with short | long
  · rw [min_eq_left short]
  · rw [min_eq_right long]
    rcases Nat.eq_zero_or_pos size with rfl | positive
    · rw [Nat.zero_mul, Nat.zero_mul]
    · have beyond : cap ≤ size * cap := Nat.le_mul_of_pos_left _ positive
      have further : size * cap ≤ size * count := Nat.mul_le_mul_left _ long
      rw [min_eq_right beyond, min_eq_right (beyond.trans further)]

theorem lt_mul_min_iff {size count cap room : Nat} (bounded : room < cap) :
    room < size * min count cap ↔ room < size * count := by
  have cut (n : Nat) : room < n ↔ room < min n cap := by
    rw [lt_min_iff, and_iff_left bounded]
  rw [cut, min_mul_min, ← cut]

theorem join_replicate_empty (n : Nat) : String.join (List.replicate n "") = "" := by
  induction n with
  | zero => rfl
  | succ n ih => rw [List.replicate_succ, String.join_cons, ih, String.empty_append]

theorem repeatText_eq {limit : Nat} (s : String) (x : Float) (bounded : limit < lengthCap) :
    repeatText limit s x =
      match count? x with
      | none => .error (.invalidOperation
          ("repeat count must be a non-negative integer, got " ++ Value.numberText x))
      | some n =>
        if limit < s.length * n then .error (.tooLong (min (s.length * n) lengthCap) limit)
        else if byteCap < s.utf8ByteSize * n then .error (.interrupted "capacity overflow")
        else .ok (.text (String.join (List.replicate n s))) := by
  unfold repeatText
  cases count? x with
  | none => rfl
  | some n =>
      dsimp only
      have exceeds : limit < min (s.length * n) lengthCap ↔ limit < s.length * n := by
        rw [lt_min_iff, and_iff_left bounded]
      have overflows : byteCap < s.utf8ByteSize * min n lengthCap ↔ byteCap < s.utf8ByteSize * n :=
        lt_mul_min_iff (by decide)
      simp only [min_mul_min, exceeds, overflows]
      split
      · rfl
      · split
        · rfl
        · split
          · rename_i empty
            rw [String.isEmpty_iff.mp empty, join_replicate_empty]
          · rfl

theorem repeatText_ok_iff {limit : Nat} {s : String} {x : Float} {v : Value}
    (bounded : limit < lengthCap) :
    repeatText limit s x = .ok v ↔ ∃ n : Nat, number? x = some (n : ℚ) ∧ s.length * n ≤ limit ∧
      s.utf8ByteSize * n ≤ byteCap ∧ v = .text (String.join (List.replicate n s)) := by
  simp only [repeatText_eq s x bounded, ← count?_eq_some_iff]
  cases count? x with
  | none => simp
  | some n =>
      dsimp only
      split
      · rename_i long
        simp [Nat.not_le.mpr long]
      · rename_i short
        split
        · rename_i large
          simp [Nat.not_le.mpr large]
        · rename_i small
          simp [Nat.not_lt.mp short, Nat.not_lt.mp small, eq_comm]

theorem repeatText_interrupted_iff {limit : Nat} {s : String} {x : Float} {reason : String}
    (bounded : limit < lengthCap) :
    repeatText limit s x = .error (.interrupted reason) ↔
      ∃ n : Nat, number? x = some (n : ℚ) ∧ s.length * n ≤ limit ∧ byteCap < s.utf8ByteSize * n ∧
        reason = "capacity overflow" := by
  simp only [repeatText_eq s x bounded, ← count?_eq_some_iff]
  cases count? x with
  | none => simp
  | some n =>
      dsimp only
      split
      · rename_i long
        simp [Nat.not_le.mpr long]
      · rename_i short
        split
        · rename_i large
          simp [Nat.not_lt.mp short, large, eq_comm]
        · rename_i small
          simp [small]

section
variable {options : Options} {known present : Scope} {source : String} {text times : Expr}
  {whole first second : Formula}

/-- The operands of a repetition are evaluated as the formulas that they are by themselves. -/
theorem evaluate_repeated_eq
    (compiled : ofExpr options known source (.binary .repeated text times) = .ok whole)
    (left : ofExpr options known source text = .ok first)
    (right : ofExpr options known source times = .ok second) :
    whole.evaluate present = (do
      let v ← first.evaluate present
      let x ← (second.evaluate present).bind numberOf
      repeatText options.repeatLimit v.toText x) := by
  obtain ⟨z, made, done⟩ := of_bind_ok compiled
  obtain ⟨x, madeFirst, doneFirst⟩ := of_bind_ok left
  obtain ⟨y, madeSecond, doneSecond⟩ := of_bind_ok right
  cases done
  cases doneFirst
  cases doneSecond
  cases levels : options.depthLimit with
  | zero =>
      rw [levels, compile] at made
      cases made
  | succ allowance =>
      rw [levels] at made madeFirst madeSecond
      rw [compile] at made
      obtain ⟨x', innerFirst, made⟩ := of_bind_ok made
      obtain ⟨y', innerSecond, made⟩ := of_bind_ok made
      cases made
      have plain : checkedOperand .repeated times (compile options known allowance times) =
          compile options known allowance times := by
        unfold checkedOperand
        cases times.literalText? <;> rfl
      rw [plain] at innerSecond
      rw [compile_succ innerFirst] at madeFirst
      rw [compile_succ innerSecond] at madeSecond
      cases madeFirst
      cases madeSecond
      unfold evaluate Compiled.binary
      dsimp only
      rw [Code.eval]
      cases x.code.eval present with
      | error e => rfl
      | ok v => cases y.code.eval present <;> rfl

/-- A text is repeated if and only if the number of times is a natural number, the whole is not longer
than the limit and there is room for its bytes, and then there are as many copies of it as the number
says. If only the room is missing, the program fails. -/
theorem evaluate_repeated {v : Value} {x : Float}
    (compiled : ofExpr options known source (.binary .repeated text times) = .ok whole)
    (left : ofExpr options known source text = .ok first)
    (right : ofExpr options known source times = .ok second)
    (given : first.evaluate present = .ok v)
    (counted : (second.evaluate present).bind numberOf = .ok x)
    (bounded : options.repeatLimit < lengthCap) :
    (∀ result, whole.evaluate present = .ok result ↔
      ∃ n : Nat, number? x = some (n : ℚ) ∧ v.toText.length * n ≤ options.repeatLimit ∧
        v.toText.utf8ByteSize * n ≤ byteCap ∧
        result = .text (String.join (List.replicate n v.toText))) ∧
    ∀ reason, whole.evaluate present = .error (.interrupted reason) ↔
      ∃ n : Nat, number? x = some (n : ℚ) ∧ v.toText.length * n ≤ options.repeatLimit ∧
        byteCap < v.toText.utf8ByteSize * n ∧ reason = "capacity overflow" := by
  rw [evaluate_repeated_eq compiled left right, given, ok_bind, counted, ok_bind]
  exact ⟨fun result => repeatText_ok_iff bounded, fun reason => repeatText_interrupted_iff bounded⟩

end

/-- A hail, and how often it is called. -/
def hail (times : Float) : Scope := [.bindings [("hail", .text "ahoy"), ("times", .number times)]]

def hailWord : Expr := .symbol "hail" [] ⟨0, 4⟩

def hailCount : Expr := .symbol "times" [] ⟨12, 17⟩

theorem hail_evaluates (x : Float) :
    evaluate ⟨"", .dynamic, .lookup 0 "hail" [] ⟨0, 4⟩⟩ (hail x) = .ok (.text "ahoy") ∧
      (evaluate ⟨"", .dynamic, .lookup 0 "times" [] ⟨12, 17⟩⟩ (hail x)).bind numberOf = .ok x :=
  ⟨rfl, rfl⟩

theorem hail_compiles (limit : Nat) :
    ofExpr ⟨limit, true, 128⟩ (hail 0) "" hailWord =
        .ok ⟨"", .dynamic, .lookup 0 "hail" [] ⟨0, 4⟩⟩ ∧
      ofExpr ⟨limit, true, 128⟩ (hail 0) "" hailCount =
        .ok ⟨"", .dynamic, .lookup 0 "times" [] ⟨12, 17⟩⟩ ∧
      ofExpr ⟨limit, true, 128⟩ (hail 0) "" (.binary .repeated hailWord hailCount) =
        .ok ⟨"", .text, .repeated limit (.lookup 0 "hail" [] ⟨0, 4⟩)
          (.lookup 0 "times" [] ⟨12, 17⟩)⟩ :=
  ⟨rfl, rfl, rfl⟩

/-- Three hails are just within a limit of twelve characters. A number of hails past every length that
is told apart is not cut to one that is within it. -/
theorem evaluate_repeated_hail : 12 < lengthCap ∧
    ∃ whole first second,
      ofExpr ⟨12, true, 128⟩ (hail 0) "" (.binary .repeated hailWord hailCount) = .ok whole ∧
      ofExpr ⟨12, true, 128⟩ (hail 0) "" hailWord = .ok first ∧
      ofExpr ⟨12, true, 128⟩ (hail 0) "" hailCount = .ok second ∧
      (∀ x, first.evaluate (hail x) = .ok (.text "ahoy") ∧
        (second.evaluate (hail x)).bind numberOf = .ok x) ∧
      whole.evaluate (hail 3) = .ok (.text "ahoyahoyahoy") ∧
      ∀ result, whole.evaluate (hail 18446744073709551616) ≠ .ok result := by
  have few : number? 3 = some ((3 : Nat) : ℚ) := count?_eq_some_iff.mp (by decide +kernel)
  have many : number? 18446744073709551616 = some ((18446744073709551616 : Nat) : ℚ) :=
    count?_eq_some_iff.mp (by decide +kernel)
  have bounded : 12 < lengthCap := by decide
  obtain ⟨left, right, compiled⟩ := hail_compiles 12
  have repeated (x : Float) (result : Value) :=
    (evaluate_repeated compiled left right (hail_evaluates x).1 (hail_evaluates x).2 bounded).1 result
  refine ⟨bounded, _, _, _, compiled, left, right, hail_evaluates, ?_, fun result done => ?_⟩
  · exact (repeated 3 _).mpr ⟨3, few, by decide, by decide, rfl⟩
  · obtain ⟨n, value, short, -⟩ := (repeated 18446744073709551616 result).mp done
    rw [many, Option.some_inj, Nat.cast_inj] at value
    subst value
    exact absurd short (by decide)

/-- So many hails are within the limit, but have a byte more than there is room for. -/
theorem evaluate_repeated_overflow : 9223372036854775808 < lengthCap ∧
    ∃ whole first second,
      ofExpr ⟨9223372036854775808, true, 128⟩ (hail 0) "" (.binary .repeated hailWord hailCount) =
        .ok whole ∧
      ofExpr ⟨9223372036854775808, true, 128⟩ (hail 0) "" hailWord = .ok first ∧
      ofExpr ⟨9223372036854775808, true, 128⟩ (hail 0) "" hailCount = .ok second ∧
      first.evaluate (hail 2305843009213693952) = .ok (.text "ahoy") ∧
      (second.evaluate (hail 2305843009213693952)).bind numberOf = .ok 2305843009213693952 ∧
      number? 2305843009213693952 = some ((2305843009213693952 : Nat) : ℚ) ∧
      "ahoy".length * 2305843009213693952 ≤ 9223372036854775808 ∧
      ∀ result, whole.evaluate (hail 2305843009213693952) ≠ .ok result := by
  have many : number? 2305843009213693952 = some ((2305843009213693952 : Nat) : ℚ) :=
    count?_eq_some_iff.mp (by decide +kernel)
  have bounded : 9223372036854775808 < lengthCap := by decide
  obtain ⟨left, right, compiled⟩ := hail_compiles 9223372036854775808
  obtain ⟨given, counted⟩ := hail_evaluates 2305843009213693952
  refine ⟨bounded, _, _, _, compiled, left, right, given, counted, many, by decide, ?_⟩
  rintro result done
  rw [evaluate_repeated_eq compiled left right, given, ok_bind, counted, ok_bind] at done
  obtain ⟨n, value, -, small, -⟩ := (repeatText_ok_iff bounded).mp done
  rw [many, Option.some_inj, Nat.cast_inj] at value
  subst value
  exact absurd small (by decide)

end Emend.Formula
