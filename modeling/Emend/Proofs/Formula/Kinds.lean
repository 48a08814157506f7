import Emend.Proofs.Formula.Construction

/-!
Kinds known before evaluation. The kind that compilation gives to a formula can be read off its
code, and every value of that code is of this kind.
-/

set_option autoImplicit false

namespace Emend.Formula

/-- The kind of every value of a code, by its outermost operation. -/
def Code.kind : Code → Kind
  | constant v => .ofValue v
  | lookup .. | member .. | element .. => .dynamic
  | map .. | combine .. | fold .. => .number
  | asText _ | concat .. | repeated .. | replace .. | typeName _ => .text
  | test .. | asBoolean _ | not _ | and .. | or .. | equals .. | compareNumbers ..
  | compareValues .. | contains .. | startsWith .. | endsWith .. | fitsPattern ..
  | inVersions .. => .boolean
  | asVersion _ => .version
  | tuple _ => .tuple

/-- Values of a known kind other than tuples hold no other values. -/
theorem isFlat_of_kind {v : Value} (known : Kind.ofValue v ≠ .dynamic)
    (single : Kind.ofValue v ≠ .tuple) : v.isFlat := by
  cases v with
  | record _ => exact absurd rfl known
  | tuple _ => exact absurd rfl single
  | _ => rfl

theorem repeatText_kind {limit : Nat} {s : String} {x : Float} {v : Value}
    (done : repeatText limit s x = .ok v) : Kind.ofValue v = .text := by
  unfold repeatText at done
  split at done
  · cases done
  · dsimp only at done
    split at done
    · cases done
    · split at done
      · cases done
      · split at done <;> cases done <;> rfl

namespace Code

theorem eval_kind {code : Code} {scope : Scope} {v : Value} (done : code.eval scope = .ok v)
    (known : code.kind ≠ .dynamic) : Kind.ofValue v = code.kind := by
  cases code with
  | lookup _ _ _ _ | member _ _ | element _ _ => exact absurd rfl known
  | repeated limit text count =>
      rw [eval] at done
      obtain ⟨s, -, done⟩ := of_bind_ok done
      obtain ⟨n, -, done⟩ := of_bind_ok done
      obtain ⟨x, -, done⟩ := of_bind_ok done
      exact repeatText_kind done
  | and x y | or x y =>
      -- The second operand is evaluated on one side only.
      unfold eval at done
      obtain ⟨a, -, done⟩ := of_bind_ok done
      obtain ⟨b, -, done⟩ := of_bind_ok done
      split at done
      all_goals
        first
          | cases done
            rfl
          | obtain ⟨c, -, done⟩ := of_bind_ok done
            obtain ⟨d, -, done⟩ := of_bind_ok done
            cases done
            rfl
  | _ =>
      unfold eval at done
      repeat obtain ⟨_, -, done⟩ := of_bind_ok done
      cases done
      rfl

end Code

namespace Compiled

/-- The kind is the one that the code shows. -/
def Honest (x : Compiled) : Prop := x.kind = x.code.kind

theorem unary_honest (op : UnaryOp) {x : Compiled} (honest : x.Honest) : (unary op x).Honest := by
  cases op with
  | plus =>
      unfold unary
      dsimp only
      split
      · exact honest
      · rfl
  | _ => rfl

theorem comparison_honest (test : OrderTest) (x y : Compiled) : (comparison test x y).Honest := by
  unfold comparison
  split <;> rfl

theorem binary_honest (options : Options) (op : BinaryOp) (x y : Compiled) :
    (binary options op x y).Honest := by
  cases op with
  | less | lessEqual | greater | greaterEqual => exact comparison_honest _ x y
  | _ => rfl

/-- A conversion is left out where the argument is honestly of the kind already. -/
theorem converted_honest {known : Prop} [Decidable known] {x other : Compiled}
    (honest : x.Honest) (converts : other.Honest) : (if known then x else other).Honest := by
  split
  · exact honest
  · exact converts

theorem call_honest {builtin : Builtin} {args : List Compiled} {made : Compiled}
    (honest : ∀ x ∈ args, x.Honest) (called : call builtin args = some made) : made.Honest := by
  unfold call at called
  split at called
  case h_5 => split at called <;> cases called <;> rfl
  case h_6 | h_7 =>
    cases called
    rfl
  case h_8 => split at called <;> cases called <;> rfl
  all_goals
    cases called
    exact converted_honest (honest _ (by simp)) rfl

theorem honest_closed (options : Options) {scope : Scope} : Closed options scope Honest where
  constant _ _ := rfl
  lookup _ _ _ _ _ := rfl
  member _ _ _ := rfl
  unary op _ honest := unary_honest op honest
  binary op x y _ _ := binary_honest options op x y
  replace _ _ _ _ _ _ := rfl
  tuple _ _ := rfl
  call _ _ _ honest called := call_honest honest called

end Compiled

/-- A formula of a kind that is known before evaluation only has values of that kind, whatever the
scope holds when it is evaluated. -/
theorem evaluate_kind {options : Options} {known present : Scope} {source : String} {expr : Expr}
    {formula : Formula} {v : Value} (compiled : ofExpr options known source expr = .ok formula)
    (fixed : formula.kind ≠ .dynamic) (done : formula.evaluate present = .ok v) :
    Kind.ofValue v = formula.kind := by
  obtain ⟨made, success, compiled⟩ := of_bind_ok compiled
  cases compiled
  have honest : made.kind = made.code.kind :=
    of_compile_ok (Compiled.honest_closed options) success
  dsimp only at fixed ⊢
  rw [honest] at fixed ⊢
  exact Code.eval_kind done fixed

def greeting : Expr :=
  .call "txt" [.binary .concat (.literal (.text "Ahoy, ")) (.symbol "name" [] ⟨0, 0⟩)] ⟨0, 0⟩

/-- The conversion to text is left out, and the name is bound to no text when it is looked up. -/
theorem evaluate_kind_greeting :
    ∃ formula v,
      ofExpr .initial [.bindings [("name", .text "Ann")]] "" greeting = .ok formula ∧
      formula.kind = .text ∧
      formula.evaluate [.bindings [("name", .boolean true)]] = .ok v ∧
      v.toText = "Ahoy, true" ∧ Kind.ofValue v = formula.kind := by
  have text : (ofExpr .initial [.bindings [("name", .text "Ann")]] "" greeting).toOption.map
      (·.kind) = some .text := by decide +kernel
  have said : ((ofExpr .initial [.bindings [("name", .text "Ann")]] "" greeting).bind
      (·.evaluate [.bindings [("name", .boolean true)]])).toOption.map Value.toText =
        some "Ahoy, true" := by decide +kernel
  obtain ⟨formula, compiled, kind⟩ := of_toOption_map text
  rw [compiled] at said
  obtain ⟨v, done, said⟩ := of_toOption_map said
  exact ⟨formula, v, compiled, kind, done, said, evaluate_kind compiled (by rw [kind]; nofun) done⟩

end Emend.Formula
