import Emend.Formula.Compile
import Emend.Proofs.Except
import Mathlib.Data.List.Forall2

/-!
How compilation puts formulas together. A property of compiled formulas that every way of making
one from its parts keeps holds of whatever compilation makes.
-/

set_option autoImplicit false

namespace Emend

/-- Neither a record nor a tuple, which may hold one. -/
def Value.isFlat : Value → Bool
  | tuple _ | record _ => false
  | _ => true

namespace Formula

theorem Literal.value_isFlat (l : Literal) : l.value.isFlat := by
  cases l <;> rfl

theorem Scope.isSome_get?_of_providerOf? {scope : Scope} {name : String} {provider : Nat}
    (found : scope.providerOf? name = some provider) : (scope.get? provider name).isSome := by
  obtain ⟨inside, knows, -⟩ := List.findIdx?_eq_some_iff_getElem.mp found
  unfold get?
  rw [List.getElem?_eq_getElem inside, Option.bind_some]
  exact knows

theorem Scope.isSome_get?_of_resolve? {scope : Scope} {path : List String} {found : Resolved}
    (resolved : scope.resolve? path = some found) :
    (scope.get? found.provider found.name).isSome := by
  unfold resolve? at resolved
  generalize path.length = length at resolved
  induction length with
  | zero => cases resolved
  | succ length ih =>
      unfold resolvePrefix? at resolved
      dsimp only at resolved
      split at resolved
      · rename_i provider known
        cases resolved
        exact isSome_get?_of_providerOf? known
      · exact ih resolved

theorem Scope.function_ok {name : String} {span : Text.Span} {count : Nat} {signature : Signature}
    (found : Scope.function name span count = .ok signature) :
    Signature.find? name = some signature ∧ signature.accepts count := by
  unfold Scope.function at found
  split at found
  · split at found <;> cases found
  · rename_i listed
    split at found
    · rename_i accepts
      cases found
      exact ⟨listed, accepts⟩
    · cases found

theorem Signature.count_of_version {name : String} {signature : Signature} {count : Nat}
    (found : Signature.find? name = some signature) (version : signature.builtin = .version)
    (accepts : signature.accepts count) : count = 1 := by
  have one : ∀ s ∈ Signature.all, s.builtin = .version → s.least = 1 ∧ s.most = some 1 := by
    decide
  obtain ⟨least, most⟩ := one signature (List.mem_of_find?_eq_some found) version
  unfold Signature.accepts at accepts
  rw [least, most] at accepts
  simp only [Option.all_some, Bool.and_eq_true, decide_eq_true_eq] at accepts
  omega

/-- Every way of making a compiled formula keeps the property. The only constants are literals and
what is read from them, and the only names are those that the scope knows. -/
structure Compiled.Closed (options : Options) (scope : Scope) (P : Compiled → Prop) : Prop where
  constant : ∀ v : Value, v.isFlat → P (.constant v)
  lookup : ∀ provider name members span, (scope.get? provider name).isSome →
    P ⟨.dynamic, .lookup provider name members span⟩
  member : ∀ x name, P x → P ⟨.dynamic, .member x.code name⟩
  unary : ∀ op x, P x → P (.unary op x)
  binary : ∀ op x y, P x → P y → P (.binary options op x y)
  replace : ∀ x y z, P x → P y → P z → P ⟨.text, .replace x.code y.code z.code⟩
  tuple : ∀ items : List Compiled, (∀ x ∈ items, P x) →
    P ⟨.tuple, .tuple (items.map (·.code))⟩
  call : ∀ builtin args made, (∀ x ∈ args, P x) → Compiled.call builtin args = some made → P made

section
variable {options : Options} {scope : Scope} {P : Compiled → Prop}

theorem compileAll_ok {allowance : Nat} {exprs : List Expr} {compiled : List Compiled}
    (done : compileAll options scope allowance exprs = .ok compiled) :
    List.Forall₂ (fun expr x => compile options scope allowance expr = .ok x) exprs compiled := by
  induction exprs generalizing compiled with
  | nil =>
      unfold compileAll at done
      cases done
      exact .nil
  | cons expr rest ih =>
      unfold compileAll at done
      obtain ⟨first, head, done⟩ := of_bind_ok done
      obtain ⟨others, tail, done⟩ := of_bind_ok done
      cases done
      exact .cons head (ih tail)

theorem of_compileAll_ok {allowance : Nat} {exprs : List Expr} {compiled : List Compiled}
    (each : ∀ expr x, compile options scope allowance expr = .ok x → P x)
    (done : compileAll options scope allowance exprs = .ok compiled) : ∀ x ∈ compiled, P x := by
  have compiledEach := compileAll_ok done
  clear done
  induction compiledEach with
  | nil =>
      intro x member
      cases member
  | cons head _ ih =>
      intro x member
      rcases List.mem_cons.mp member with rfl | later
      · exact each _ x head
      · exact ih x later

theorem Expr.literalText?_eq_some {expr : Expr} {s : String} (text : expr.literalText? = some s) :
    expr = .literal (.text s) := by
  unfold literalText? at text
  split at text
  · cases text
    rfl
  · cases text

theorem checkedOperand_ok {op : BinaryOp} {expr : Expr} {made : Except FormulaError Compiled}
    {compiled : Compiled} (done : checkedOperand op expr made = .ok compiled) :
    made = .ok compiled ∨ ∃ s, expr = .literal (.text s) ∧ compiled = .constant (.text s) := by
  unfold checkedOperand at done
  cases read : expr.literalText?.bind (literalOperand op) with
  | none =>
      rw [read] at done
      exact .inl done
  | some checked =>
      rw [read] at done
      obtain ⟨s, text, read⟩ := Option.bind_eq_some_iff.mp read
      refine .inr ⟨s, Expr.literalText?_eq_some text, ?_⟩
      unfold literalOperand at read
      split at read <;> cases read
      all_goals
        obtain ⟨_, -, rfl⟩ := of_map_ok done
        rfl

variable (closed : Compiled.Closed options scope P)
include closed

theorem of_symbol_ok {path : List String} {span : Text.Span} {compiled : Compiled}
    (found : scope.symbol path span = .ok compiled) : P compiled := by
  unfold Scope.symbol at found
  split at found
  · rename_i resolved
    cases found
    exact closed.lookup _ _ _ _ (Scope.isSome_get?_of_resolve? resolved)
  · cases found

theorem of_checkedOperand_ok {op : BinaryOp} {expr : Expr} {made : Except FormulaError Compiled}
    {compiled : Compiled} (done : checkedOperand op expr made = .ok compiled)
    (other : made = .ok compiled → P compiled) : P compiled := by
  rcases checkedOperand_ok done with same | ⟨s, -, rfl⟩
  · exact other same
  · exact closed.constant _ rfl

theorem of_compile_ok {allowance : Nat} {expr : Expr} {compiled : Compiled}
    (done : compile options scope allowance expr = .ok compiled) : P compiled := by
  induction allowance generalizing expr compiled with
  | zero =>
      unfold compile at done
      cases done
  | succ allowance ih =>
      unfold compile at done
      cases expr with
      | literal l =>
          cases done
          exact closed.constant _ l.value_isFlat
      | symbol head tail span => exact of_symbol_ok closed done
      | member target name =>
          obtain ⟨whole, made, done⟩ := of_bind_ok done
          cases done
          exact closed.member _ _ (ih made)
      | unary op x =>
          obtain ⟨operand, made, done⟩ := of_bind_ok done
          cases done
          exact closed.unary _ _ (ih made)
      | binary op x y =>
          obtain ⟨left, first, done⟩ := of_bind_ok done
          obtain ⟨right, second, done⟩ := of_bind_ok done
          cases done
          exact closed.binary _ _ _ (ih first) (of_checkedOperand_ok closed second ih)
      | replace input pattern substitute =>
          obtain ⟨text, first, done⟩ := of_bind_ok done
          obtain ⟨regex, second, done⟩ := of_bind_ok done
          obtain ⟨other, third, done⟩ := of_bind_ok done
          cases done
          exact closed.replace _ _ _ (ih first) (of_checkedOperand_ok closed second ih) (ih third)
      | tuple items =>
          obtain ⟨parts, made, done⟩ := of_bind_ok done
          cases done
          exact closed.tuple _ (of_compileAll_ok (fun _ _ => ih) made)
      | call name args span =>
          cases args with
          | nil =>
              dsimp only at done
              split at done
              · exact of_symbol_ok closed done
              · obtain ⟨signature, -, done⟩ := of_bind_ok done
                cases done
          | cons first others =>
              obtain ⟨signature, -, done⟩ := of_bind_ok done
              split at done
              · obtain ⟨v, -, done⟩ := of_bind_ok done
                cases done
                exact closed.constant _ rfl
              · obtain ⟨head, made, done⟩ := of_bind_ok done
                obtain ⟨tail, rest, done⟩ := of_bind_ok done
                have each := of_compileAll_ok (fun _ _ => ih) rest
                split at done
                · rename_i called
                  cases done
                  refine closed.call _ _ _ ?_ called
                  intro x member
                  rcases List.mem_cons.mp member with rfl | later
                  · exact ih made
                  · exact each x later
                · cases done

end

end Formula

end Emend
