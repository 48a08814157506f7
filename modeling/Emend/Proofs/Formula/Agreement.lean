import Emend.Proofs.Formula.Direct

/-!
Compiled formulas against direct evaluation. Conversions and choices that compilation leaves out
because of a kind that it knows make no difference to a value.
-/

set_option autoImplicit false

namespace Emend

theorem Value.compare?_of_number {a b : Value}
    (number : Formula.Kind.ofValue a = .number ∨ Formula.Kind.ofValue b = .number) :
    a.compare? b = compareAsNumbers a b := by
  cases a with
  | number x => rfl
  | _ =>
      cases b with
      | number y => rfl
      | _ => rcases number with known | known <;> cases known

namespace Formula
open List (Forall₂)

theorem Kind.typeName_eq {v : Value} {name : String}
    (named : (Kind.ofValue v).typeName? = some name) : v.typeName = name := by
  cases v <;> cases named <;> rfl

theorem Kind.convert_eq (v : Value) : (Kind.ofValue v).convert v = .ok v := by
  cases v <;> rfl

theorem evalAll_eq (scope : Scope) (codes : List Code) :
    Code.evalAll scope codes = valuesOf (codes.map (·.eval scope)) := by
  induction codes with
  | nil => rw [Code.evalAll, List.map_nil, valuesOf]
  | cons code rest ih => rw [Code.evalAll, List.map_cons, valuesOf, ih]

theorem evalFold_eq (scope : Scope) (f : Float → Float → Float) (a : Float) (codes : List Code) :
    Code.evalFold scope f a codes = foldNumbers f a (codes.map (·.eval scope)) := by
  induction codes generalizing a with
  | nil => rw [Code.evalFold, List.map_nil, foldNumbers]
  | cons code rest ih => simp only [Code.evalFold, List.map_cons, foldNumbers, ih]

theorem ordered_matches {exact : Prop} (test : OrderTest) {x y : Result}
    (number : ∀ {a b}, x = .ok a → y = .ok b → a.compare? b = Value.compareAsNumbers a b) :
    Matches exact (ordered test x y) (do
      let a ← numberOf (← x)
      let b ← numberOf (← y)
      .ok (.boolean (test.holds (Value.compareNumbers a b)))) := by
  cases x with
  | error e => exact .refl _
  | ok a =>
      cases y with
      | error e =>
          -- The first operand may fail to be a number before the second one fails.
          refine ⟨nofun, fun _ v value => ?_⟩
          obtain ⟨_, -, value⟩ := of_bind_ok value
          obtain ⟨_, -, value⟩ := of_bind_ok value
          cases value
      | ok b =>
          apply Matches.of_eq
          unfold ordered withValues numberOf
          dsimp only [bind, Except.bind]
          rw [number rfl rfl]
          unfold Value.compareAsNumbers
          cases a.toNumber with
          | error e => rfl
          | ok p => cases b.toNumber <;> rfl

namespace Compiled
variable {exact : Prop} {scope : Scope} {x y : Compiled}

/-- What a compiled formula gives in a scope. -/
def result (scope : Scope) (x : Compiled) : Result := x.code.eval scope

theorem Honest.result_kind (honest : x.Honest) (known : x.kind ≠ .dynamic)
    {v : Value} (value : x.result scope = .ok v) : Kind.ofValue v = x.kind := by
  rw [honest] at known ⊢
  exact Code.eval_kind value known

theorem Honest.convert_result (honest : x.Honest) (known : x.kind ≠ .dynamic) :
    (x.result scope >>= x.kind.convert) = x.result scope := by
  cases value : x.result scope with
  | error e => rfl
  | ok v =>
      rw [← honest.result_kind known value]
      exact Kind.convert_eq v

/-- A conversion to a kind may be left out where the operand has that kind. -/
theorem converted_result {kind : Kind} {other : Compiled} (honest : x.Honest)
    (known : kind ≠ .dynamic) (converts : other.result scope = x.result scope >>= kind.convert) :
    (if x.kind = kind then x else other).result scope = x.result scope >>= kind.convert := by
  split
  · rename_i same
    subst same
    exact (honest.convert_result known).symm
  · exact converts

theorem map_result (kind : Kind) (f : Float → Float) :
    result scope ⟨kind, .map f x.code⟩ =
      (do .ok (.number (f (← numberOf (← x.result scope))))) := by
  unfold result
  rw [Code.eval]

theorem combine_result (kind : Kind) (f : Float → Float → Float) :
    result scope ⟨kind, .combine f x.code y.code⟩ =
      withNumbers f (x.result scope) (y.result scope) := by
  unfold result
  rw [Code.eval]
  rfl

theorem fold_result (kind : Kind) (f : Float → Float → Float) (others : List Compiled) :
    result scope ⟨kind, .fold f x.code (others.map (·.code))⟩ = (do
      let a ← numberOf (← x.result scope)
      .ok (.number (← foldNumbers f a (others.map (·.result scope))))) := by
  unfold result
  dsimp only
  simp only [Code.eval, evalFold_eq, List.map_map]
  rfl

theorem test_result (kind : Kind) (p : Float → Bool) :
    result scope ⟨kind, .test p x.code⟩ =
      (do .ok (.boolean (p (← numberOf (← x.result scope))))) := by
  unfold result
  rw [Code.eval]

theorem unary_result (op : UnaryOp) (honest : x.Honest) :
    (unary op x).result scope = op.apply (x.result scope) := by
  cases op with
  | negate => exact map_result _ _
  | plus => exact converted_result honest nofun (map_result _ _)
  | not =>
      unfold result unary
      dsimp only
      rw [Code.eval]
      rfl

/-- Where a kind shows that one of two values is a number, both are compared as numbers. -/
theorem comparison_matches (test : OrderTest) (left : x.Honest) (right : y.Honest) :
    Matches exact (ordered test (x.result scope) (y.result scope))
      ((comparison test x y).result scope) := by
  unfold comparison
  split
  · rename_i known
    have number {a b : Value} (first : x.result scope = .ok a) (second : y.result scope = .ok b) :
        a.compare? b = Value.compareAsNumbers a b := by
      apply Value.compare?_of_number
      rcases known with kind | kind
      · exact .inl ((left.result_kind (by rw [kind]; nofun) first).trans kind)
      · exact .inr ((right.result_kind (by rw [kind]; nofun) second).trans kind)
    unfold result
    dsimp only
    rw [Code.eval]
    exact ordered_matches test fun first second => number first second
  · refine .of_eq ?_
    unfold result
    dsimp only
    rw [Code.eval]
    rfl

theorem binary_matches (options : Options) (op : BinaryOp) (left : x.Honest) (right : y.Honest) :
    Matches exact (op.apply options.repeatLimit (x.result scope) (y.result scope))
      ((binary options op x y).result scope) := by
  cases op with
  | less | lessEqual | greater | greaterEqual => exact comparison_matches _ left right
  | add | subtract | multiply | divide | modulo | power => exact .of_eq (combine_result _ _).symm
  | _ =>
      refine .of_eq ?_
      unfold result binary
      dsimp only
      rw [Code.eval]
      rfl

theorem typeName_kept (honest : x.Honest) {name : String} (named : x.kind.typeName? = some name) :
    Matches False (do .ok (.text (← x.result scope).typeName))
      ((constant (.text name)).result scope) := by
  refine ⟨fun w value => ?_, nofun⟩
  obtain ⟨v, evaluated, value⟩ := of_bind_ok value
  cases value
  have known : x.kind ≠ .dynamic := by
    intro dynamic
    rw [dynamic] at named
    cases named
  rw [← honest.result_kind known evaluated] at named
  rw [Kind.typeName_eq named]
  unfold result constant
  rw [Code.eval]

/-- A compiled call has the values of the function, and no others unless it tells the name of a
type. -/
theorem call_matches (scope : Scope) {builtin : Builtin} {args : List Compiled} {made : Compiled}
    (honest : ∀ x ∈ args, x.Honest) (called : call builtin args = some made) :
    ∃ direct, builtin.value? (args.map (·.result scope)) = some direct ∧
      Matches (builtin ≠ .typeName) direct (made.result scope) := by
  unfold call at called
  split at called
  case h_1 x | h_2 x | h_3 x | h_4 x =>
    -- What is left out or made is the conversion to one kind.
    cases called
    refine ⟨_, rfl, .of_eq (Eq.symm ?_)⟩
    refine converted_result (honest x (by simp)) (by decide) ?_
    unfold result
    rw [Code.eval]
    rfl
  case h_5 x =>
    split at called
    · rename_i name named
      cases called
      refine ⟨_, rfl, ?_⟩
      exact (typeName_kept (honest x (by simp)) named).weaken fun other => other rfl
    · cases called
      refine ⟨_, rfl, .of_eq ?_⟩
      unfold result
      rw [Code.eval]
  case h_6 target index =>
    cases called
    refine ⟨_, rfl, .of_eq ?_⟩
    unfold result
    rw [Code.eval]
  case h_7 x digits =>
    cases called
    exact ⟨_, rfl, .of_eq (combine_result _ _).symm⟩
  case h_8 =>
    split at called <;> cases called
    case h_1 =>
      rename builtin.ofOne? = some _ => found
      refine ⟨_, ?_, .of_eq (map_result _ _).symm⟩
      cases builtin <;> cases found <;> rfl
    case h_2 =>
      rename builtin.ofTwo? = some _ => found
      refine ⟨_, ?_, .of_eq (combine_result _ _).symm⟩
      cases builtin with
      | round =>
          -- Rounding to some digits has been compiled by itself.
          rename ∀ x digits, _ → [_, _] = [x, digits] → False => other
          exact absurd rfl (other _ _ rfl)
      | _ => cases found <;> rfl
    case h_3 =>
      rename builtin.ofMany? = some _ => found
      refine ⟨_, ?_, .of_eq (fold_result _ _ _).symm⟩
      cases builtin <;> cases found <;> rfl
    case h_4 =>
      rename builtin.test? = some _ => found
      refine ⟨_, ?_, .of_eq (test_result _ _).symm⟩
      cases builtin <;> cases found <;> rfl

end Compiled

section
variable {options : Options} {known present : Scope}

theorem symbol_result {path : List String} {span : Text.Span} {x : Compiled}
    (done : known.symbol path span = .ok x) :
    pathValue known present path span = x.result present := by
  unfold Scope.symbol at done
  unfold pathValue
  split at done
  · rename_i found resolved
    cases done
    cases value : present.get? found.provider found.name with
    | none => simp only [resolved, value, Compiled.result, Code.eval]
    | some v => simp only [resolved, value, Compiled.result, Code.eval]
  · cases done

theorem constant_result (v : Value) : (Compiled.constant v).result present = .ok v := by
  unfold Compiled.result Compiled.constant
  rw [Code.eval]

/-- The compiled tree has the values of the tree, and no others unless the tree asks for the name
of a type. -/
def Agrees (options : Options) (known present : Scope) (expr : Expr) (x : Compiled) : Prop :=
  Matches (expr.asksType = false) (expr.eval options.repeatLimit known present) (x.result present)

theorem results_matches {exprs : List Expr} {compiled : List Compiled}
    (each : Forall₂ (Agrees options known present) exprs compiled) :
    Forall₂ (Matches (anyAsksType exprs = false))
      (results options.repeatLimit known present exprs)
      (compiled.map (·.result present)) := by
  induction each with
  | nil =>
      unfold results
      exact .nil
  | cons first _ ih =>
      unfold results anyAsksType
      simp only [Bool.or_eq_false_iff]
      refine .cons (first.weaken And.left) (ih.imp fun _ _ alike => alike.weaken And.right)

theorem checkedOperand_agrees {op : BinaryOp} {expr : Expr} {made : Except FormulaError Compiled}
    {x : Compiled} (done : checkedOperand op expr made = .ok x)
    (other : made = .ok x → Agrees options known present expr x) :
    Agrees options known present expr x := by
  rcases checkedOperand_ok done with same | ⟨s, rfl, rfl⟩
  · exact other same
  · apply Matches.of_eq
    rw [constant_result, Expr.eval, Literal.value]

theorem eval_call {limit : Nat} {name : String} {first : Expr} {others : List Expr}
    {span : Text.Span} {signature : Signature} (found : Signature.find? name = some signature) :
    (Expr.call name (first :: others) span).eval limit known present =
      (signature.builtin.value? (results limit known present (first :: others))).getD
        (.error (.wrongArity signature.name signature.arity (first :: others).length)) := by
  rw [Expr.eval, found]
  nofun

theorem call_agrees {signature : Signature} {name : String} {first : Expr} {others : List Expr}
    {span : Text.Span} {args : List Compiled} {made : Compiled}
    (found : Signature.find? name = some signature) (honest : ∀ x ∈ args, x.Honest)
    (each : Forall₂ (Agrees options known present) (first :: others) args)
    (called : Compiled.call signature.builtin args = some made) :
    Agrees options known present (.call name (first :: others) span) made := by
  have arguments := Matches.call signature.builtin (results_matches each)
  obtain ⟨direct, applied, compiled⟩ := Compiled.call_matches present honest called
  rw [applied] at arguments
  generalize own : signature.builtin.value? _ = given at arguments
  cases arguments with
  | some alike =>
      unfold Agrees Expr.asksType
      rw [eval_call found, own, found, Option.getD_some]
      simp only [Option.any_some, Bool.or_eq_false_iff, decide_eq_false_iff_not]
      exact (alike.weaken And.right).trans (compiled.weaken And.left)

theorem literalVersion_agrees {signature : Signature} {name s : String} {span : Text.Span}
    {v : Version} (found : Signature.find? name = some signature)
    (version : signature.builtin = .version) (read : versionOf (.text s) = .ok v) :
    Agrees options known present (.call name [.literal (.text s)] span)
      (.constant (.version v)) := by
  have applied (x : Result) : Builtin.version.value? [x] = some (x >>= Kind.version.convert) := rfl
  have converted : Kind.version.convert (.text s) = .ok (.version v) := by
    unfold Kind.convert
    dsimp only
    rw [read]
    rfl
  apply Matches.of_eq
  rw [constant_result, eval_call found, version, results, results, Expr.eval, Literal.value,
    applied, Option.getD_some, ok_bind, converted]

/-- The induction is on the levels that are left; the operands of a tree have fewer. -/
theorem compile_agrees {allowance : Nat} {expr : Expr} {x : Compiled}
    (done : compile options known allowance expr = .ok x) :
    Agrees options known present expr x := by
  induction allowance generalizing expr x with
  | zero =>
      unfold compile at done
      cases done
  | succ allowance ih =>
      have honest {expr : Expr} {x : Compiled}
          (made : compile options known allowance expr = .ok x) : x.Honest :=
        of_compile_ok (Compiled.honest_closed options) made
      unfold compile at done
      cases expr with
      | literal l =>
          cases done
          apply Matches.of_eq
          rw [constant_result, Expr.eval]
      | symbol head tail span =>
          apply Matches.of_eq
          rw [← symbol_result done, Expr.eval]
      | member target name =>
          obtain ⟨whole, made, done⟩ := of_bind_ok done
          cases done
          unfold Agrees Expr.eval Expr.asksType
          refine ((ih made).follow _).trans (.of_eq ?_)
          unfold Compiled.result
          rw [Code.eval]
      | unary op operand =>
          obtain ⟨x, made, done⟩ := of_bind_ok done
          cases done
          unfold Agrees Expr.eval Expr.asksType
          rw [Compiled.unary_result op (honest made)]
          exact (ih made).unary op
      | binary op left right =>
          obtain ⟨x, first, done⟩ := of_bind_ok done
          obtain ⟨y, second, done⟩ := of_bind_ok done
          cases done
          have leftAgrees := ih first
          have rightAgrees := checkedOperand_agrees second ih
          have rightHonest : y.Honest := by
            rcases checkedOperand_ok second with made | ⟨s, -, rfl⟩
            · exact honest made
            · rfl
          unfold Agrees Expr.eval Expr.asksType
          simp only [Bool.or_eq_false_iff]
          refine .trans (.binary (leftAgrees.weaken And.left) (rightAgrees.weaken And.right) _ op) ?_
          exact Compiled.binary_matches options op (honest first) rightHonest
      | replace input pattern substitute =>
          obtain ⟨x, first, done⟩ := of_bind_ok done
          obtain ⟨y, second, done⟩ := of_bind_ok done
          obtain ⟨z, third, done⟩ := of_bind_ok done
          cases done
          have inputAgrees := ih first
          have patternAgrees := checkedOperand_agrees second ih
          have substituteAgrees := ih third
          unfold Agrees Expr.eval Expr.asksType
          simp only [Bool.or_eq_false_iff]
          refine .trans (.replaced (inputAgrees.weaken fun no => no.1.1)
            (patternAgrees.weaken fun no => no.1.2) (substituteAgrees.weaken And.right)) ?_
          apply Matches.of_eq
          unfold Compiled.result replaced
          dsimp only
          rw [Code.eval]
      | tuple items =>
          obtain ⟨parts, made, done⟩ := of_bind_ok done
          cases done
          have each := results_matches ((compileAll_ok made).imp fun _ _ => ih)
          unfold Agrees Expr.eval Expr.asksType
          refine .trans ((Matches.valuesOf each).bind fun _ => .refl _) (.of_eq ?_)
          unfold Compiled.result
          dsimp only
          rw [Code.eval, evalAll_eq, List.map_map]
          rfl
      | call name args span =>
          cases args with
          | nil =>
              dsimp only at done
              split at done
              · apply Matches.of_eq
                rw [← symbol_result done, Expr.eval]
              · obtain ⟨signature, -, done⟩ := of_bind_ok done
                cases done
          | cons first others =>
              obtain ⟨signature, found, done⟩ := of_bind_ok done
              obtain ⟨listed, accepts⟩ := Scope.function_ok found
              split at done
              · rename_i s version text
                obtain ⟨v, read, done⟩ := of_bind_ok done
                cases done
                rw [Expr.literalText?_eq_some text]
                obtain rfl : others = [] := by
                  have one := Signature.count_of_version listed version accepts
                  exact List.length_eq_zero_iff.mp (by omega)
                exact literalVersion_agrees listed version read
              · obtain ⟨x, head, done⟩ := of_bind_ok done
                obtain ⟨xs, tail, done⟩ := of_bind_ok done
                split at done
                · rename_i made called
                  cases done
                  have compiledEach := compileAll_ok tail
                  refine call_agrees listed ?_ (.cons (ih head) (compiledEach.imp fun _ _ => ih))
                    called
                  intro x member
                  rcases List.mem_cons.mp member with rfl | later
                  · exact honest head
                  · exact of_compileAll_ok (fun _ _ => honest) tail x later
                · cases done

end

/-- A compiled formula has every value that its tree has without any kind being known, and no other
ones unless the tree asks for the name of a type. -/
theorem evaluate_agrees {options : Options} {known present : Scope} {source : String} {expr : Expr}
    {formula : Formula} (compiled : ofExpr options known source expr = .ok formula) (v : Value) :
    (expr.eval options.repeatLimit known present = .ok v → formula.evaluate present = .ok v) ∧
      (expr.asksType = false → formula.evaluate present = .ok v →
        expr.eval options.repeatLimit known present = .ok v) := by
  obtain ⟨made, success, compiled⟩ := of_bind_ok compiled
  cases compiled
  have agrees : Agrees options known present expr made := compile_agrees success
  exact ⟨agrees.kept v, fun unasked => agrees.only unasked v⟩

/-- Whether the depth is less than twelve and the ship has no name. -/
def shallow : Expr :=
  .binary .and
    (.binary .less (.call "num" [.symbol "depth" [] ⟨0, 0⟩] ⟨0, 0⟩) (.literal (.text "12")))
    (.call "bool" [.unary .not (.symbol "name" [] ⟨0, 0⟩)] ⟨0, 0⟩)

/-- The text is compared as a number, and the truth value is not converted again. -/
theorem evaluate_agrees_shallow :
    ∃ formula v,
      ofExpr .initial [.bindings [("depth", .null), ("name", .null)]] "" shallow = .ok formula ∧
      shallow.asksType = false ∧
      shallow.eval 2048 [.bindings [("depth", .null), ("name", .null)]]
        [.bindings [("depth", .text "9"), ("name", .boolean false)]] = .ok v ∧
      formula.evaluate [.bindings [("depth", .text "9"), ("name", .boolean false)]] = .ok v ∧
      v.toText = "true" := by
  have truth : (ofExpr .initial [.bindings [("depth", .null), ("name", .null)]] ""
      shallow).toOption.map (·.kind) = some .boolean := by decide +kernel
  have said : (shallow.eval 2048 [.bindings [("depth", .null), ("name", .null)]]
      [.bindings [("depth", .text "9"), ("name", .boolean false)]]).toOption.map Value.toText =
        some "true" := by decide +kernel
  obtain ⟨formula, compiled, -⟩ := of_toOption_map truth
  obtain ⟨v, value, said⟩ := of_toOption_map said
  have unasked : shallow.asksType = false := by decide +kernel
  have evaluated := (evaluate_agrees compiled v).1 value
  exact ⟨formula, v, compiled, unasked, (evaluate_agrees compiled v).2 unasked evaluated,
    evaluated, said⟩

/-- The type of a number is known though the number is not. -/
def unread : Expr := .call "type" [.call "num" [.literal (.text "deep")] ⟨0, 0⟩] ⟨0, 0⟩

example : ((ofExpr .initial [] "" unread).bind (·.evaluate [])).toOption.map Value.toText =
      some "number" ∧
    (unread.eval 2048 [] []).toOption.isNone := by decide +kernel

end Formula

end Emend
