import Emend.Proofs.Formula.Reading

/-!
The limit of nesting only cuts off. What the parser answers with a limit, a tree or an error, it
answers with every larger one, unless it says that the text nests too deep.
-/

set_option autoImplicit false

namespace Emend.Formula.Parser
open Emend.Text (Span)

variable {α β : Type}

/-- The result is the full one, unless the text nests too deep for the source's limit. -/
def Cut (source : Source) (result full : Except ParseError α) : Prop :=
  (∃ span, result = .error (.tooDeep source.limit span)) ∨ result = full

namespace Cut

variable {source : Source}

theorem refl (result : Except ParseError α) : Cut source result result := .inr rfl

theorem deep (span : Span) (full : Except ParseError α) :
    Cut source (.error (.tooDeep source.limit span)) full := .inl ⟨span, rfl⟩

theorem bind {first full : Except ParseError α} {next others : α → Except ParseError β}
    (cut : Cut source first full) (after : ∀ a, Cut source (next a) (others a)) :
    Cut source (first >>= next) (full >>= others) := by
  rcases cut with ⟨span, rfl⟩ | rfl
  · exact deep span _
  · cases first with
    | error e => exact refl _
    | ok a => exact after a

end Cut

def Source.withLimit (source : Source) (limit : Nat) : Source :=
  ⟨source.length, source.failure, limit⟩

section
variable {source : Source} {larger : Nat}

variable {deeper further : Reader} (cuts : ∀ goal ts, Cut source (deeper goal ts) (further goal ts))
include cuts

theorem expression_cut (least : Level) (ts : List Lexeme) :
    Cut source (expression deeper least ts) (expression further least ts) :=
  (cuts .operand ts).bind fun (left, ts) => cuts (.chain least left) ts

theorem items_cut (least : Level) (fuel : Nat) (ts : List Lexeme) :
    Cut source (items source (expression deeper least) fuel ts)
      (items (source.withLimit larger) (expression further least) fuel ts) := by
  induction fuel generalizing ts with
  | zero => exact .refl _
  | succ fuel ih =>
      refine (expression_cut cuts least ts).bind fun (first, ts) => ?_
      dsimp only
      split
      · refine (Cut.refl _).bind fun ts => ?_
        exact (ih ts).bind fun _ => .refl _
      · exact .refl _

theorem arguments_cut (name : String) (start : Span) (ts : List Lexeme) :
    Cut source (arguments source deeper name start ts)
      (arguments (source.withLimit larger) further name start ts) := by
  unfold arguments
  split
  · exact .refl _
  · exact (items_cut cuts .or _ _).bind fun _ => .refl _

theorem group_cut (ts : List Lexeme) :
    Cut source (group source deeper ts) (group (source.withLimit larger) further ts) := by
  unfold group
  exact (items_cut cuts .or _ ts).bind fun _ => .refl _

theorem primary_cut (ts : List Lexeme) :
    Cut source (primary source deeper ts) (primary (source.withLimit larger) further ts) := by
  unfold primary
  split
  · exact .refl _
  · exact .refl _
  · refine (Cut.refl _).bind fun ts => ?_
    split
    · exact (Cut.refl _).bind fun ts => arguments_cut cuts _ _ ts
    · exact .refl _
  · exact (Cut.refl _).bind fun ts => group_cut cuts ts
  · exact .refl _

omit cuts in
theorem members_cut {allowance more : Nat} (enough : allowance ≤ more) (target : Expr)
    (ts : List Lexeme) :
    Cut source (members source allowance target ts)
      (members (source.withLimit larger) more target ts) := by
  fun_induction members source allowance target ts generalizing more with
  | case1 allowance target _ name span others path computed =>
      rw [members]
      refine (Cut.refl _).bind fun after => ?_
      cases target with
      | symbol head tail start => exact path head tail start enough
      | _ =>
          cases allowance with
          | zero => exact .deep _ _
          | succ allowance =>
              cases more with
              | zero => exact absurd enough (Nat.not_succ_le_zero _)
              | succ more => exact computed _ _ (Nat.le_of_succ_le_succ enough)
  | case2 allowance target _ others apart =>
      rw [members]
      · exact .refl _
      · exact apart
  | case3 allowance target ts named pointed =>
      rw [members]
      · exact .refl _
      · exact named
      · exact pointed

theorem power_cut {allowance more : Nat} (enough : allowance ≤ more) (ts : List Lexeme) :
    Cut source (power source allowance deeper ts)
      (power (source.withLimit larger) more further ts) := by
  unfold power
  refine (primary_cut cuts ts).bind fun (base, ts) => ?_
  refine (members_cut enough base ts).bind fun result => ?_
  split
  · refine (Cut.refl _).bind fun ts => ?_
    exact (cuts .operand ts).bind fun _ => .refl _
  · exact .refl _

theorem join_cut (joint : Joint) (left : Expr) (ts : List Lexeme) :
    Cut source (join source deeper joint left ts)
      (join (source.withLimit larger) further joint left ts) := by
  have operand := expression_cut cuts joint.level.tighter
  unfold join
  cases joint with
  | binary op => exact (operand ts).bind fun _ => .refl _
  | versions =>
      refine (Cut.refl _).bind fun ts => ?_
      exact (operand ts).bind fun _ => .refl _
  | replacement =>
      refine (operand ts).bind fun (pattern, ts) => ?_
      refine (Cut.refl _).bind fun ts => ?_
      exact (operand ts).bind fun _ => .refl _

theorem step_cut {allowance more : Nat} (enough : allowance ≤ more) (goal : Goal)
    (ts : List Lexeme) :
    Cut source (step source allowance deeper goal ts)
      (step (source.withLimit larger) more further goal ts) := by
  unfold step
  split
  · split
    · refine (Cut.refl _).bind fun ts => ?_
      exact (cuts .operand ts).bind fun _ => .refl _
    · exact power_cut cuts enough _
  · exact power_cut cuts enough []
  · split
    · split
      · refine (Cut.refl _).bind fun ts => ?_
        exact (join_cut cuts _ _ ts).bind fun (joined, ts) => cuts (.chain _ joined) ts
      · exact .refl _
    · exact .refl _
  · exact .refl _

end

theorem reader_cut {source : Source} (larger : Nat) {allowance more : Nat}
    (enough : allowance ≤ more) (goal : Goal) (ts : List Lexeme) :
    Cut source (reader source allowance goal ts)
      (reader (source.withLimit larger) more goal ts) := by
  induction allowance generalizing more goal ts with
  | zero => exact .deep _ _
  | succ allowance ih =>
      cases more with
      | zero => exact absurd enough (Nat.not_succ_le_zero _)
      | succ more =>
          have inside := Nat.le_of_succ_le_succ enough
          exact step_cut (fun goal ts => ih inside goal ts) inside goal ts

theorem formula_cut {source : Source} {larger : Nat} (within : source.limit ≤ larger)
    (ts : List Lexeme) :
    Cut source (formula source ts) (formula (source.withLimit larger) ts) := by
  unfold formula
  refine (Cut.refl _).bind fun ts => ?_
  split
  · exact .refl _
  · exact (expression_cut (fun goal ts => reader_cut larger within goal ts) .or _).bind
      fun _ => .refl _

end Emend.Formula.Parser
