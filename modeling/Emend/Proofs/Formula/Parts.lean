import Emend.Proofs.Formula.Construction

/-!
Parts of formulas. A tree that compiles also compiles where more levels are allowed, so each of its
parts compiles by itself, even a part that is never evaluated.
-/

set_option autoImplicit false

namespace Emend.Formula

/-- The trees that a tree is put together from. -/
def Expr.operands : Expr → List Expr
  | literal _ | symbol .. => []
  | member target _ => [target]
  | unary _ x => [x]
  | binary _ x y => [x, y]
  | replace input pattern substitute => [input, pattern, substitute]
  | call _ args _ => args
  | tuple items => items

/-- The tree itself, its operands, their operands and so on. -/
inductive Expr.Part (part : Expr) : Expr → Prop
  | whole : Part part part
  | inside {tree operand : Expr} (member : operand ∈ tree.operands) (inner : Part part operand) :
      Part part tree

section
variable {options : Options} {scope : Scope} {allowance : Nat}

theorem compileAll_succ {exprs : List Expr} {compiled : List Compiled}
    (each : ∀ expr x, compile options scope allowance expr = .ok x →
      compile options scope (allowance + 1) expr = .ok x)
    (done : compileAll options scope allowance exprs = .ok compiled) :
    compileAll options scope (allowance + 1) exprs = .ok compiled := by
  have compiledEach := compileAll_ok done
  clear done
  induction compiledEach with
  | nil => rw [compileAll]
  | cons head _ ih => rw [compileAll, each _ _ head, ok_bind, ih, ok_bind]

theorem checkedOperand_mono {op : BinaryOp} {expr : Expr} {made more : Except FormulaError Compiled}
    {x : Compiled} (done : checkedOperand op expr made = .ok x) (grows : made = .ok x → more = .ok x) :
    checkedOperand op expr more = .ok x := by
  unfold checkedOperand at done ⊢
  cases read : expr.literalText?.bind (literalOperand op) with
  | none =>
      rw [read] at done
      exact grows done
  | some checked =>
      rw [read] at done
      exact done

/-- One more level changes nothing for a tree that compiles. -/
theorem compile_succ {expr : Expr} {x : Compiled}
    (done : compile options scope allowance expr = .ok x) :
    compile options scope (allowance + 1) expr = .ok x := by
  induction allowance generalizing expr x with
  | zero =>
      unfold compile at done
      cases done
  | succ allowance ih =>
      unfold compile at done ⊢
      cases expr with
      | literal l => exact done
      | symbol head tail span => exact done
      | member target name =>
          obtain ⟨whole, made, done⟩ := of_bind_ok done
          dsimp only
          rw [ih made, ok_bind, ← done]
      | unary op operand =>
          obtain ⟨x, made, done⟩ := of_bind_ok done
          dsimp only
          rw [ih made, ok_bind, ← done]
      | binary op left right =>
          obtain ⟨x, first, done⟩ := of_bind_ok done
          obtain ⟨y, second, done⟩ := of_bind_ok done
          dsimp only
          rw [ih first, ok_bind, checkedOperand_mono second ih, ok_bind, ← done]
      | replace input pattern substitute =>
          obtain ⟨x, first, done⟩ := of_bind_ok done
          obtain ⟨y, second, done⟩ := of_bind_ok done
          obtain ⟨z, third, done⟩ := of_bind_ok done
          dsimp only
          rw [ih first, ok_bind, checkedOperand_mono second ih, ok_bind, ih third, ok_bind, ← done]
      | tuple items =>
          obtain ⟨parts, made, done⟩ := of_bind_ok done
          dsimp only
          rw [compileAll_succ (fun _ _ => ih) made, ok_bind, ← done]
      | call name args span =>
          cases args with
          | nil => exact done
          | cons first others =>
              obtain ⟨signature, found, done⟩ := of_bind_ok done
              dsimp only
              rw [found, ok_bind]
              split at done
              · exact done
              · obtain ⟨x, head, done⟩ := of_bind_ok done
                obtain ⟨xs, tail, done⟩ := of_bind_ok done
                rw [ih head, ok_bind, compileAll_succ (fun _ _ => ih) tail, ok_bind, ← done]

theorem checkedOperand_compiles {op : BinaryOp} {expr : Expr} {x : Compiled}
    (done : checkedOperand op expr (compile options scope allowance expr) = .ok x) :
    ∃ y, compile options scope (allowance + 1) expr = .ok y := by
  rcases checkedOperand_ok done with made | ⟨s, rfl, -⟩
  · exact ⟨x, compile_succ made⟩
  · exact ⟨.constant (.text s), by rw [compile, Literal.value]⟩

theorem compileAll_compiles {exprs : List Expr} {compiled : List Compiled}
    (done : compileAll options scope allowance exprs = .ok compiled) :
    ∀ expr ∈ exprs, ∃ y, compile options scope (allowance + 1) expr = .ok y := by
  have compiledEach := compileAll_ok done
  clear done
  induction compiledEach with
  | nil =>
      intro expr member
      cases member
  | cons head _ ih =>
      intro expr member
      rcases List.mem_cons.mp member with rfl | later
      · exact ⟨_, compile_succ head⟩
      · exact ih expr later

theorem operand_compiles {expr operand : Expr} {x : Compiled}
    (done : compile options scope allowance expr = .ok x) (member : operand ∈ expr.operands) :
    ∃ y, compile options scope allowance operand = .ok y := by
  cases allowance with
  | zero =>
      unfold compile at done
      cases done
  | succ allowance =>
      unfold compile at done
      cases expr with
      | literal l => cases member
      | symbol head tail span => cases member
      | member target name =>
          obtain ⟨whole, made, done⟩ := of_bind_ok done
          obtain rfl := List.mem_singleton.mp member
          exact ⟨whole, compile_succ made⟩
      | unary op x =>
          obtain ⟨y, made, done⟩ := of_bind_ok done
          obtain rfl := List.mem_singleton.mp member
          exact ⟨y, compile_succ made⟩
      | binary op left right =>
          obtain ⟨x, first, done⟩ := of_bind_ok done
          obtain ⟨y, second, done⟩ := of_bind_ok done
          simp only [Expr.operands, List.mem_cons, List.not_mem_nil, or_false] at member
          rcases member with rfl | rfl
          · exact ⟨x, compile_succ first⟩
          · exact checkedOperand_compiles second
      | replace input pattern substitute =>
          obtain ⟨x, first, done⟩ := of_bind_ok done
          obtain ⟨y, second, done⟩ := of_bind_ok done
          obtain ⟨z, third, done⟩ := of_bind_ok done
          simp only [Expr.operands, List.mem_cons, List.not_mem_nil, or_false] at member
          rcases member with rfl | rfl | rfl
          · exact ⟨x, compile_succ first⟩
          · exact checkedOperand_compiles second
          · exact ⟨z, compile_succ third⟩
      | tuple items =>
          obtain ⟨parts, made, done⟩ := of_bind_ok done
          exact compileAll_compiles made operand member
      | call name args span =>
          cases args with
          | nil => cases member
          | cons first others =>
              obtain ⟨signature, found, done⟩ := of_bind_ok done
              split at done
              · rename_i s version text
                -- The text of a version is read without being compiled, and is the only argument.
                obtain ⟨listed, accepts⟩ := Scope.function_ok found
                have one := Signature.count_of_version listed version accepts
                obtain rfl : others = [] := List.length_eq_zero_iff.mp (by omega)
                obtain rfl := List.mem_singleton.mp member
                rw [Expr.literalText?_eq_some text]
                exact ⟨.constant (.text s), by rw [compile, Literal.value]⟩
              · obtain ⟨x, head, done⟩ := of_bind_ok done
                obtain ⟨xs, tail, done⟩ := of_bind_ok done
                rcases List.mem_cons.mp member with rfl | later
                · exact ⟨x, compile_succ head⟩
                · exact compileAll_compiles tail operand later

/-- Every part of a tree that compiles does so by itself. -/
theorem part_compiles {expr part : Expr} {x : Compiled} (inside : part.Part expr)
    (done : compile options scope allowance expr = .ok x) :
    ∃ y, compile options scope allowance part = .ok y := by
  induction inside generalizing x with
  | whole => exact ⟨x, done⟩
  | inside member _ ih =>
      obtain ⟨y, compiled⟩ := operand_compiles done member
      exact ih compiled

end

end Emend.Formula
