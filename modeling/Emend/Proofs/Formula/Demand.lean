import Emend.Formula.Compile
import Emend.Proofs.Except
import Mathlib

/-!
Which parts of a compiled formula are evaluated. Evaluation asks for one operand after the other, and
what it asks for next depends on the values so far. An operand that fails makes the formula fail with
the same error as soon as it is asked for; an operand that is not asked for does not matter.
-/

set_option autoImplicit false

namespace Emend.Formula

/-- The course of an evaluation. -/
inductive Plan where
  | done (result : Except FormulaError Value)
  /-- Asks for the value of an operand. -/
  | ask (operand : Code) (next : Value → Plan)

namespace Plan

/-- Goes on unless there is an error. -/
def check {α : Type} (result : Except FormulaError α) (next : α → Plan) : Plan :=
  match result with
  | .ok a => next a
  | .error e => done (.error e)

def askAll (next : List Value → Plan) : List Code → Plan
  | [] => next []
  | x :: rest => ask x fun v => askAll (fun vs => next (v :: vs)) rest

def askFold (f : Float → Float → Float) (a : Float) : List Code → Plan
  | [] => done (.ok (.number a))
  | x :: rest => ask x fun v => check (numberOf v) fun b => askFold f (f a b) rest

variable (scope : Scope)

def run : Plan → Except FormulaError Value
  | done result => result
  | ask operand next => do (next (← operand.eval scope)).run

def asked : Plan → List Code
  | done _ => []
  | ask operand next =>
    operand :: match operand.eval scope with
      | .ok v => (next v).asked
      | .error _ => []

variable {scope}

theorem run_check {α : Type} {result : Except FormulaError α} {next : α → Plan} :
    (check result next).run scope = result >>= fun a => (next a).run scope := by
  cases result <;> rfl

theorem run_askAll {next : List Value → Plan} {items : List Code} :
    (askAll next items).run scope = Code.evalAll scope items >>= fun vs => (next vs).run scope := by
  induction items generalizing next with
  | nil => rw [askAll, Code.evalAll, ok_bind]
  | cons x rest ih => simp only [askAll, run, ih, Code.evalAll, bind_assoc, ok_bind]

theorem run_askFold {f : Float → Float → Float} {a : Float} {items : List Code} :
    (askFold f a items).run scope =
      Code.evalFold scope f a items >>= fun b => .ok (.number b) := by
  induction items generalizing a with
  | nil => rw [askFold, run, Code.evalFold, ok_bind]
  | cons x rest ih => simp only [askFold, run, run_check, ih, Code.evalFold, bind_assoc]

theorem run_of_mem_asked {plan : Plan} {x : Code} {e : FormulaError}
    (member : x ∈ plan.asked scope) (failed : x.eval scope = .error e) :
    plan.run scope = .error e := by
  induction plan with
  | done => cases member
  | ask operand next ih =>
      rw [run]
      rw [asked] at member
      rcases List.mem_cons.mp member with rfl | later
      · rw [failed]
        rfl
      · cases first : operand.eval scope with
        | ok v =>
            rw [first] at later
            exact ih v later
        | error =>
            rw [first] at later
            cases later

/-- The same course with related operands. -/
inductive Alike (R : Code → Code → Prop) : Plan → Plan → Prop
  | done (result : Except FormulaError Value) : Alike R (.done result) (.done result)
  | ask {x y : Code} {next other : Value → Plan} (related : R x y)
      (follow : ∀ v, Alike R (next v) (other v)) : Alike R (.ask x next) (.ask y other)

section
variable {R : Code → Code → Prop}

theorem Alike.check {α : Type} (result : Except FormulaError α) {next other : α → Plan}
    (follow : ∀ a, Alike R (next a) (other a)) :
    Alike R (Plan.check result next) (Plan.check result other) := by
  cases result with
  | ok a => exact follow a
  | error e => exact .done _

theorem Alike.askAll {next other : List Value → Plan} {xs ys : List Code}
    (related : List.Forall₂ R xs ys) (follow : ∀ vs, Alike R (next vs) (other vs)) :
    Alike R (Plan.askAll next xs) (Plan.askAll other ys) := by
  induction related generalizing next other with
  | nil => exact follow []
  | cons first _ ih => exact .ask first fun v => ih fun vs => follow (v :: vs)

theorem Alike.askFold {f : Float → Float → Float} {a : Float} {xs ys : List Code}
    (related : List.Forall₂ R xs ys) : Alike R (Plan.askFold f a xs) (Plan.askFold f a ys) := by
  induction related generalizing a with
  | nil => exact .done _
  | cons first _ ih => exact .ask first fun v => .check _ fun b => ih

end

end Plan

namespace Code

def plan (scope : Scope) : Code → Plan
  | constant v => .done (.ok v)
  | lookup provider name members span =>
    .done (eval scope (.lookup provider name members span))
  | member target name => .ask target fun v => .done (memberOf v name)
  | map f x => .ask x fun v => .check (numberOf v) fun a => .done (.ok (.number (f a)))
  | combine f x y =>
    .ask x fun v => .check (numberOf v) fun a =>
      .ask y fun w => .check (numberOf w) fun b => .done (.ok (.number (f a b)))
  | fold f first others =>
    .ask first fun v => .check (numberOf v) fun a => .askFold f a others
  | test p x => .ask x fun v => .check (numberOf v) fun a => .done (.ok (.boolean (p a)))
  | asText x => .ask x fun v => .done (.ok (.text v.toText))
  | asBoolean x => .ask x fun v => .check (booleanOf v) fun b => .done (.ok (.boolean b))
  | asVersion x => .ask x fun v => .check (versionOf v) fun a => .done (.ok (.version a))
  | not x => .ask x fun v => .check (booleanOf v) fun b => .done (.ok (.boolean !b))
  | and x y =>
    .ask x fun v => .check (booleanOf v) fun b =>
      if b then .ask y fun w => .check (booleanOf w) fun c => .done (.ok (.boolean c))
      else .done (.ok (.boolean false))
  | or x y =>
    .ask x fun v => .check (booleanOf v) fun b =>
      if b then .done (.ok (.boolean true))
      else .ask y fun w => .check (booleanOf w) fun c => .done (.ok (.boolean c))
  | equals x y => .ask x fun v => .ask y fun w => .done (.ok (.boolean (v.same w)))
  | compareNumbers order x y =>
    .ask x fun v => .check (numberOf v) fun a =>
      .ask y fun w => .check (numberOf w) fun b =>
        .done (.ok (.boolean (order.holds (Value.compareNumbers a b))))
  | compareValues order x y =>
    .ask x fun v => .ask y fun w => .check (coerced (v.compare? w)) fun result =>
      .done (.ok (.boolean (order.holds result)))
  | concat x y => .ask x fun v => .ask y fun w => .done (.ok (.text (v.toText ++ w.toText)))
  | repeated limit text count =>
    .ask text fun v => .ask count fun w => .check (numberOf w) fun n =>
      .done (repeatText limit v.toText n)
  | contains x y => .ask x fun v => .ask y fun w => .done (.ok (.boolean (containsValue v w)))
  | startsWith x y =>
    .ask x fun v => .ask y fun w =>
      .done (.ok (.boolean (w.toText.toList.isPrefixOf v.toText.toList)))
  | endsWith x y =>
    .ask x fun v => .ask y fun w =>
      .done (.ok (.boolean (w.toText.toList.isSuffixOf v.toText.toList)))
  | fitsPattern text pattern =>
    .ask text fun v => .ask pattern fun w => .check (patternOf w.toText) fun regex =>
      .done (.ok (.boolean (regex.isMatch v.toText)))
  | replace input pattern substitute =>
    .ask input fun v => .ask pattern fun w => .check (patternOf w.toText) fun regex =>
      .ask substitute fun t => .done (.ok (.text (regex.replaceAll v.toText t.toText)))
  | inVersions version range =>
    .ask version fun v => .check (versionOf v) fun a =>
      .ask range fun w => .check (rangeOf w.toText) fun r => .done (.ok (.boolean (r.contains a)))
  | tuple items => .askAll (fun vs => .done (.ok (.tuple vs))) items
  | typeName x => .ask x fun v => .done (.ok (.text v.typeName))
  | element target index =>
    .ask target fun v => .ask index fun w => .check (numberOf w) fun i => .done (elementAt v i)

variable {scope : Scope}

theorem eval_eq_run (x : Code) : x.eval scope = (x.plan scope).run scope := by
  cases x with
  | and | or =>
      simp only [eval, plan, Plan.run, Plan.run_check]
      refine bind_congr fun v => bind_congr fun b => ?_
      cases b <;> simp [Plan.run, Plan.run_check]
  | _ =>
      simp only [eval, plan, Plan.run, Plan.run_check, Plan.run_askAll, Plan.run_askFold]

/-- Evaluation of the first code evaluates the second one as an operand. -/
def Asks (scope : Scope) (x y : Code) : Prop := y ∈ (x.plan scope).asked scope

/-- Evaluation of the first code comes to the second one. -/
def Reaches (scope : Scope) : Code → Code → Prop := Relation.ReflTransGen (Asks scope)

theorem Asks.error {x y : Code} {e : FormulaError} (asks : Asks scope x y)
    (failed : y.eval scope = .error e) : x.eval scope = .error e := by
  rw [eval_eq_run]
  exact Plan.run_of_mem_asked asks failed

/-- An error is the result of whatever comes to the code that fails. -/
theorem Reaches.error {x y : Code} {e : FormulaError} (reaches : Reaches scope x y)
    (failed : y.eval scope = .error e) : x.eval scope = .error e := by
  induction reaches using Relation.ReflTransGen.head_induction_on with
  | refl => exact failed
  | head asks _ ih => exact asks.error ih

/-- A property of whatever asks for a code that has it. -/
def Rises (scope : Scope) (P : Code → Prop) : Prop := ∀ x y, Asks scope x y → P y → P x

theorem rises_never : Rises scope fun _ => False := fun _ _ _ => id

/-- The second code has the property, or each has the same result in its scope. -/
def Tracks (s t : Scope) (P : Code → Prop) (x y : Code) : Prop := P y ∨ x.eval s = y.eval t

theorem Tracks.refl {P : Code → Prop} (x : Code) : Tracks scope scope P x x := .inr rfl

/-- Codes that ask for operands that track one another do so themselves. The induction is on the course
of evaluation: up to the first operand with the property, all values are the same. -/
theorem tracks_of_plan {s t : Scope} {P : Code → Prop} (rises : Rises t P) {x y : Code}
    (alike : Plan.Alike (Tracks s t P) (x.plan s) (y.plan t)) : Tracks s t P x y := by
  have traced {p q : Plan} (alike : Plan.Alike (Tracks s t P) p q) :
      (∃ z ∈ q.asked t, P z) ∨ p.run s = q.run t := by
    induction alike with
    | done => exact .inr rfl
    | @ask x y next other tracks _ ih =>
        rw [Plan.asked, Plan.run, Plan.run]
        rcases tracks with holds | same
        · exact .inl ⟨y, List.mem_cons_self, holds⟩
        rw [same]
        cases y.eval t with
        | error e => exact .inr rfl
        | ok v =>
            rcases ih v with ⟨z, member, holds⟩ | same
            · exact .inl ⟨z, List.mem_cons_of_mem _ member, holds⟩
            · exact .inr same
  rcases traced alike with ⟨z, asked, holds⟩ | same
  · exact .inl (rises y z asked holds)
  · right
    rw [eval_eq_run, eval_eq_run, same]

end Code

namespace Compiled
open Code (Rises Tracks tracks_of_plan)

/-- The same kind, and the same result in the scope of each unless the second one has the property. -/
structure Follows (s t : Scope) (P : Code → Prop) (x y : Compiled) : Prop where
  kind : x.kind = y.kind
  code : Tracks s t P x.code y.code

section
variable {s t : Scope} {P : Code → Prop} {x y x' y' z z' : Compiled}

theorem Follows.refl (x : Compiled) : Follows s s P x x := ⟨rfl, .refl _⟩

theorem constant_follows (v : Value) : Follows s t P (constant v) (constant v) :=
  ⟨rfl, .inr (by simp only [constant, Code.eval])⟩

theorem forall₂_follows {xs ys : List Compiled} (follows : List.Forall₂ (Follows s t P) xs ys) :
    List.Forall₂ (Tracks s t P) (xs.map (·.code)) (ys.map (·.code)) :=
  List.forall₂_map_left_iff.mpr (List.forall₂_map_right_iff.mpr (follows.imp fun _ _ => (·.code)))

theorem converted_follows {known : Kind} (follows : Follows s t P x y)
    (converted : Follows s t P z z') :
    Follows s t P (if x.kind = known then x else z) (if y.kind = known then y else z') := by
  rw [follows.kind]
  split
  · exact follows
  · exact converted

variable (rises : Rises t P)
include rises

theorem member_follows (name : String) (follows : Follows s t P x y) :
    Follows s t P ⟨.dynamic, .member x.code name⟩ ⟨.dynamic, .member y.code name⟩ :=
  ⟨rfl, tracks_of_plan rises (.ask follows.code fun _ => .done _)⟩

theorem unary_follows (op : UnaryOp) (follows : Follows s t P x y) :
    Follows s t P (unary op x) (unary op y) := by
  cases op with
  | negate | not =>
      exact ⟨rfl, tracks_of_plan rises (.ask follows.code fun _ => .check _ fun _ => .done _)⟩
  | plus =>
      unfold unary
      dsimp only
      rw [follows.kind]
      split
      · exact follows
      · exact ⟨rfl, tracks_of_plan rises (.ask follows.code fun _ => .check _ fun _ => .done _)⟩

theorem comparison_follows (test : OrderTest) (left : Follows s t P x x')
    (right : Follows s t P y y') :
    Follows s t P (comparison test x y) (comparison test x' y') := by
  unfold comparison
  rw [left.kind, right.kind]
  split
  · exact ⟨rfl, tracks_of_plan rises (.ask left.code fun _ => .check _ fun _ =>
      .ask right.code fun _ => .check _ fun _ => .done _)⟩
  · exact ⟨rfl, tracks_of_plan rises (.ask left.code fun _ => .ask right.code fun _ =>
      .check _ fun _ => .done _)⟩

theorem binary_follows (options : Options) (op : BinaryOp) (left : Follows s t P x x')
    (right : Follows s t P y y') :
    Follows s t P (binary options op x y) (binary options op x' y') := by
  cases op with
  | less | lessEqual | greater | greaterEqual => exact comparison_follows rises _ left right
  | add | subtract | multiply | divide | modulo | power =>
      exact ⟨rfl, tracks_of_plan rises (.ask left.code fun _ => .check _ fun _ =>
        .ask right.code fun _ => .check _ fun _ => .done _)⟩
  | equals | concat | contains | startsWith | endsWith =>
      exact ⟨rfl, tracks_of_plan rises (.ask left.code fun _ => .ask right.code fun _ => .done _)⟩
  | repeated | fitsPattern =>
      exact ⟨rfl, tracks_of_plan rises (.ask left.code fun _ => .ask right.code fun _ =>
        .check _ fun _ => .done _)⟩
  | inVersions =>
      exact ⟨rfl, tracks_of_plan rises (.ask left.code fun _ => .check _ fun _ =>
        .ask right.code fun _ => .check _ fun _ => .done _)⟩
  | and =>
      refine ⟨rfl, tracks_of_plan rises (.ask left.code fun _ => .check _ fun b => ?_)⟩
      cases b with
      | true => exact .ask right.code fun _ => .check _ fun _ => .done _
      | false => exact .done _
  | or =>
      refine ⟨rfl, tracks_of_plan rises (.ask left.code fun _ => .check _ fun b => ?_)⟩
      cases b with
      | true => exact .done _
      | false => exact .ask right.code fun _ => .check _ fun _ => .done _

theorem replace_follows (first : Follows s t P x x') (second : Follows s t P y y')
    (third : Follows s t P z z') :
    Follows s t P ⟨.text, .replace x.code y.code z.code⟩
      ⟨.text, .replace x'.code y'.code z'.code⟩ :=
  ⟨rfl, tracks_of_plan rises (.ask first.code fun _ => .ask second.code fun _ => .check _ fun _ =>
    .ask third.code fun _ => .done _)⟩

theorem tuple_follows {xs ys : List Compiled} (follows : List.Forall₂ (Follows s t P) xs ys) :
    Follows s t P ⟨.tuple, .tuple (xs.map (·.code))⟩ ⟨.tuple, .tuple (ys.map (·.code))⟩ :=
  ⟨rfl, tracks_of_plan rises (.askAll (forall₂_follows follows) fun _ => .done _)⟩

theorem call_follows (builtin : Builtin) {xs ys : List Compiled}
    (follows : List.Forall₂ (Follows s t P) xs ys) :
    Option.Rel (Follows s t P) (call builtin xs) (call builtin ys) := by
  cases follows with
  | nil => cases builtin <;> exact .none
  | cons first others =>
      have folded := forall₂_follows others
      cases others with
      | nil =>
          cases builtin with
          | number | boolean | version =>
              exact .some (converted_follows first
                ⟨rfl, tracks_of_plan rises (.ask first.code fun _ => .check _ fun _ => .done _)⟩)
          | text =>
              exact .some (converted_follows first
                ⟨rfl, tracks_of_plan rises (.ask first.code fun _ => .done _)⟩)
          | typeName =>
              unfold call
              dsimp only
              rw [first.kind]
              split
              · exact .some (constant_follows _)
              · exact .some ⟨rfl, tracks_of_plan rises (.ask first.code fun _ => .done _)⟩
          | atan2 | pow | element => exact .none
          | min | max =>
              exact .some ⟨rfl, tracks_of_plan rises (.ask first.code fun _ => .check _ fun _ =>
                .askFold folded)⟩
          | _ =>
              exact .some ⟨rfl, tracks_of_plan rises (.ask first.code fun _ => .check _ fun _ =>
                .done _)⟩
      | cons second others =>
          cases others with
          | nil =>
              cases builtin with
              | atan2 | pow | log =>
                  exact .some ⟨rfl, tracks_of_plan rises (.ask first.code fun _ => .check _ fun _ =>
                    .ask second.code fun _ => .check _ fun _ => .done _)⟩
              | round =>
                  exact .some ⟨rfl, tracks_of_plan rises (.ask second.code fun _ => .check _ fun _ =>
                    .ask first.code fun _ => .check _ fun _ => .done _)⟩
              | element =>
                  exact .some ⟨rfl, tracks_of_plan rises (.ask first.code fun _ =>
                    .ask second.code fun _ => .check _ fun _ => .done _)⟩
              | min | max =>
                  exact .some ⟨rfl, tracks_of_plan rises (.ask first.code fun _ => .check _ fun _ =>
                    .askFold folded)⟩
              | _ => exact .none
          | cons _ _ =>
              cases builtin with
              | min | max =>
                  exact .some ⟨rfl, tracks_of_plan rises (.ask first.code fun _ => .check _ fun _ =>
                    .askFold folded)⟩
              | _ => exact .none

end

end Compiled

end Emend.Formula
