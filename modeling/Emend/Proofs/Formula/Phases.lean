import Emend.Proofs.Formula.Parts
import Emend.Proofs.Fields
import Emend.Proofs.Store

/-!
Errors before evaluation and errors of evaluation. A formula that compiles does not fail later for a
reason that shows before evaluation, as long as the providers know the same names; and it compiles
only if each of its parts does, even those that evaluation may never reach.
-/

set_option autoImplicit false

namespace Emend.Formula
open Emend.Text (Span)

/-- If this fails, it is not for a reason that shows before evaluation. -/
def Late {α : Type} (x : Except FormulaError α) : Prop :=
  ∀ e, x = .error e → e.isCompileTime = false

namespace Late

variable {α β : Type}

theorem ok (a : α) : Late (.ok a) := nofun

theorem error {e : FormulaError} (late : e.isCompileTime = false) :
    Late (.error e : Except FormulaError α) := by
  rintro _ ⟨⟩
  exact late

theorem bind {first : Except FormulaError α} {next : α → Except FormulaError β}
    (late : Late first) (later : ∀ a, Late (next a)) : Late (first >>= next) := by
  cases first with
  | error e => exact error (late e rfl)
  | ok a => exact later a

theorem read {γ : Type} {first : Except FormulaError α} {taken : α → Except FormulaError β}
    {next : β → Except FormulaError γ} (late : Late first) (takes : ∀ a, Late (taken a))
    (later : ∀ b, Late (next b)) : Late (first >>= fun a => taken a >>= next) :=
  late.bind fun a => (takes a).bind later

end Late

namespace Scope

/-- Each provider still knows the names that it knew. -/
def StillKnows (present known : Scope) : Prop :=
  ∀ provider name, (known.get? provider name).isSome → (present.get? provider name).isSome

namespace StillKnows
variable {known present : Scope}

theorem refl (scope : Scope) : scope.StillKnows scope := fun _ _ => id

theorem cons {provider changed : Provider}
    (first : ∀ name, (provider.get? name).isSome → (changed.get? name).isSome)
    (rest : present.StillKnows known) : StillKnows (changed :: present) (provider :: known) := by
  intro index name knows
  cases index with
  | zero => exact first name knows
  | succ index => exact rest index name knows

theorem rebound {entries changed : List (String × Value)}
    (names : changed.map (·.1) = entries.map (·.1)) (rest : present.StillKnows known) :
    StillKnows (.bindings changed :: present) (.bindings entries :: known) := by
  refine cons (fun name knows => ?_) rest
  unfold Provider.get? at knows ⊢
  dsimp only at knows ⊢
  rw [Fields.isSome_findAnyCase?] at knows ⊢
  rw [names]
  exact knows

theorem set (store : Store) (name : String) (value : Value) (rest : present.StillKnows known) :
    StillKnows (.shared (store.insert name value) :: present) (.shared store :: known) := by
  refine cons (fun other knows => ?_) rest
  unfold Provider.get? at knows ⊢
  dsimp only
  rw [Store.get?_insert]
  split
  · rfl
  · exact knows

end StillKnows

end Scope

theorem coerced_late {α : Type} (x : Except CoercionError α) : Late (coerced x) := by
  cases x with
  | error e => exact .error rfl
  | ok a => exact .ok a

theorem numberOf_late (v : Value) : Late (numberOf v) := coerced_late _

theorem booleanOf_late (v : Value) : Late (booleanOf v) := coerced_late _

theorem versionOf_late (v : Value) : Late (versionOf v) := coerced_late _

theorem memberOf_late (v : Value) (name : String) : Late (memberOf v name) := by
  unfold memberOf
  split
  · exact .ok _
  · exact .error rfl

theorem membersOf_late (v : Value) (names : List String) : Late (membersOf v names) := by
  induction names generalizing v with
  | nil => exact .ok _
  | cons name rest ih => exact (memberOf_late v name).bind ih

theorem patternOf_late (s : String) : Late (patternOf s) := by
  unfold patternOf
  split
  · exact .ok _
  · exact .error rfl

theorem rangeOf_late (s : String) : Late (rangeOf s) := by
  unfold rangeOf
  split
  · exact .ok _
  · exact .error rfl

theorem repeatText_late (limit : Nat) (s : String) (x : Float) : Late (repeatText limit s x) := by
  unfold repeatText
  split
  · exact .error rfl
  · dsimp only
    split
    · exact .error rfl
    · split
      · exact .error rfl
      · split <;> exact .ok _

theorem elementAt_late (target : Value) (index : Float) : Late (elementAt target index) := by
  unfold elementAt
  dsimp only
  split
  · exact .ok _
  · exact .error rfl

section
variable {scope : Scope}

theorem lookup_late {provider : Nat} {name : String} (members : List String) (span : Span)
    (knows : (scope.get? provider name).isSome) :
    Late ((Code.lookup provider name members span).eval scope) := by
  obtain ⟨v, found⟩ := Option.isSome_iff_exists.mp knows
  rw [Code.eval, found]
  exact membersOf_late v members

theorem evalAll_late {codes : List Code} (late : ∀ code ∈ codes, Late (code.eval scope)) :
    Late (Code.evalAll scope codes) := by
  induction codes with
  | nil =>
      rw [Code.evalAll]
      exact .ok _
  | cons code rest ih =>
      rw [Code.evalAll]
      refine (late code List.mem_cons_self).bind fun v => ?_
      exact (ih fun later member => late later (List.mem_cons_of_mem _ member)).bind fun _ => .ok _

theorem evalFold_late {codes : List Code} (f : Float → Float → Float) (a : Float)
    (late : ∀ code ∈ codes, Late (code.eval scope)) : Late (Code.evalFold scope f a codes) := by
  induction codes generalizing a with
  | nil =>
      rw [Code.evalFold]
      exact .ok _
  | cons code rest ih =>
      rw [Code.evalFold]
      refine (late code List.mem_cons_self).read numberOf_late fun b => ?_
      exact ih (f a b) fun later member => late later (List.mem_cons_of_mem _ member)

namespace Compiled

theorem constant_late (v : Value) : Late ((constant v).code.eval scope) := by
  unfold constant
  rw [Code.eval]
  exact .ok v

variable {x y z : Compiled} (first : Late (x.code.eval scope))
include first

theorem map_late (f : Float → Float) : Late ((Code.map f x.code).eval scope) := by
  rw [Code.eval]
  exact first.read numberOf_late fun _ => .ok _

theorem converted_late {kind : Kind} {code : Code} (known : Prop) [Decidable known]
    (late : Late (code.eval scope)) :
    Late ((if known then x else ⟨kind, code⟩).code.eval scope) := by
  split
  · exact first
  · exact late

theorem unary_late (op : UnaryOp) : Late ((unary op x).code.eval scope) := by
  cases op with
  | negate => exact map_late first _
  | plus => exact converted_late first _ (map_late first _)
  | not =>
      unfold unary
      rw [Code.eval]
      exact first.read booleanOf_late fun _ => .ok _

variable (second : Late (y.code.eval scope))
include second

theorem comparison_late (test : OrderTest) : Late ((comparison test x y).code.eval scope) := by
  unfold comparison
  split
  · rw [Code.eval]
    exact first.read numberOf_late fun _ => second.read numberOf_late fun _ => .ok _
  · rw [Code.eval]
    exact first.bind fun _ => second.read (fun _ => coerced_late _) fun _ => .ok _

theorem combine_late (f : Float → Float → Float) :
    Late ((Code.combine f x.code y.code).eval scope) := by
  rw [Code.eval]
  exact first.read numberOf_late fun _ => second.read numberOf_late fun _ => .ok _

theorem binary_late (options : Options) (op : BinaryOp) :
    Late ((binary options op x y).code.eval scope) := by
  unfold binary
  cases op with
  | add | subtract | multiply | divide | modulo | power => exact combine_late first second _
  | less | lessEqual | greater | greaterEqual => exact comparison_late first second _
  | and =>
      dsimp only
      rw [Code.eval]
      refine first.read booleanOf_late fun a => ?_
      cases a with
      | true => exact second.read booleanOf_late fun _ => .ok _
      | false => exact .ok _
  | or =>
      dsimp only
      rw [Code.eval]
      refine first.read booleanOf_late fun a => ?_
      cases a with
      | true => exact .ok _
      | false => exact second.read booleanOf_late fun _ => .ok _
  | repeated =>
      dsimp only
      rw [Code.eval]
      exact first.bind fun _ => second.read numberOf_late fun _ => repeatText_late _ _ _
  | fitsPattern =>
      dsimp only
      rw [Code.eval]
      exact first.bind fun _ => second.read (fun _ => patternOf_late _) fun _ => .ok _
  | inVersions =>
      dsimp only
      rw [Code.eval]
      refine first.read versionOf_late fun _ => ?_
      exact second.read (fun _ => rangeOf_late _) fun _ => .ok _
  | _ =>
      dsimp only
      rw [Code.eval]
      exact first.bind fun _ => second.bind fun _ => .ok _

theorem replace_late (third : Late (z.code.eval scope)) :
    Late ((Code.replace x.code y.code z.code).eval scope) := by
  rw [Code.eval]
  refine first.bind fun _ => second.read (fun _ => patternOf_late _) fun _ => ?_
  exact third.bind fun _ => .ok _

omit first second

theorem call_late {builtin : Builtin} {args : List Compiled} {made : Compiled}
    (late : ∀ x ∈ args, Late (x.code.eval scope)) (called : call builtin args = some made) :
    Late (made.code.eval scope) := by
  unfold call at called
  split at called
  case h_1 x =>
    cases called
    exact converted_late (late x (by simp)) _ (map_late (late x (by simp)) _)
  case h_2 x =>
    cases called
    refine converted_late (late x (by simp)) _ ?_
    rw [Code.eval]
    exact (late x (by simp)).bind fun _ => .ok _
  case h_3 x =>
    cases called
    refine converted_late (late x (by simp)) _ ?_
    rw [Code.eval]
    exact (late x (by simp)).read booleanOf_late fun _ => .ok _
  case h_4 x =>
    cases called
    refine converted_late (late x (by simp)) _ ?_
    rw [Code.eval]
    exact (late x (by simp)).read versionOf_late fun _ => .ok _
  case h_5 x =>
    split at called
    · cases called
      exact constant_late _
    · cases called
      rw [Code.eval]
      exact (late x (by simp)).bind fun _ => .ok _
  case h_6 target index =>
    cases called
    rw [Code.eval]
    refine (late target (by simp)).bind fun _ => ?_
    exact (late index (by simp)).read numberOf_late fun _ => elementAt_late _ _
  case h_7 x digits =>
    cases called
    exact combine_late (late digits (by simp)) (late x (by simp)) _
  case h_8 =>
    split at called <;> cases called
    case h_1 =>
      exact map_late (late _ (by simp)) _
    case h_2 =>
      exact combine_late (late _ (by simp)) (late _ (by simp)) _
    case h_3 =>
      rw [Code.eval]
      refine (late _ List.mem_cons_self).read numberOf_late fun a => ?_
      refine (evalFold_late _ a fun code member => ?_).bind fun _ => .ok _
      obtain ⟨operand, listed, rfl⟩ := List.mem_map.mp member
      exact late operand (List.mem_cons_of_mem _ listed)
    case h_4 =>
      rw [Code.eval]
      exact (late _ (by simp)).read numberOf_late fun _ => .ok _

/-- Compiled formulas only look up names that the scope of their compilation knows. -/
theorem late_closed (options : Options) {known present : Scope}
    (names : present.StillKnows known) :
    Closed options known fun x => Late (x.code.eval present) where
  constant v _ := constant_late v
  lookup provider name members span knows := lookup_late members span (names provider name knows)
  member x name late := by
    rw [Code.eval]
    exact late.bind fun v => memberOf_late v name
  unary op x late := unary_late late op
  binary op x y first second := binary_late first second options op
  replace x y z first second third := replace_late first second third
  tuple items late := by
    rw [Code.eval]
    refine (evalAll_late fun code member => ?_).bind fun _ => .ok _
    obtain ⟨item, listed, rfl⟩ := List.mem_map.mp member
    exact late item listed
  call _ _ _ late called := call_late late called

end Compiled

end

/-- A formula that compiles does not fail for a reason that shows before evaluation, as a value or
as a condition, as long as the providers know the names that they knew. Neither does any part of
it, which compiles by itself even if the formula is evaluated without it. -/
theorem evaluate_late {options : Options} {known present : Scope} {source : String} {expr : Expr}
    {formula : Formula} (compiled : ofExpr options known source expr = .ok formula)
    (names : present.StillKnows known) :
    Late (formula.evaluate present) ∧ Late (formula.evaluateBool present) ∧
      ∀ part, part.Part expr → ∃ own, ofExpr options known source part = .ok own ∧
        Late (own.evaluate present) := by
  have late {x : Compiled} {tree : Expr}
      (made : compile options known options.depthLimit tree = .ok x) :
      Late (x.code.eval present) := of_compile_ok (Compiled.late_closed options names) made
  obtain ⟨x, made, compiled⟩ := of_bind_ok compiled
  cases compiled
  refine ⟨late made, (late made).bind booleanOf_late, fun part inside => ?_⟩
  obtain ⟨y, partMade⟩ := part_compiles inside made
  refine ⟨⟨source, y.kind, y.code⟩, ?_, late partMade⟩
  rw [ofExpr, partMade, ok_bind]

/-- The lowest depth that a variable tells. -/
def lowTide : Expr := .symbol "Tide" ["Depth", "Low"] ⟨0, 0⟩

/-- Whether a ship is moored, or else has more than twelve feet of water. -/
def mooredOrAfloat : Expr :=
  .binary .or (.symbol "moored" [] ⟨0, 0⟩) (.binary .less (.literal (.number 12)) lowTide)

/-- The names of a ship and of a variable. -/
def beforeMooring : Scope :=
  [.bindings [("moored", .null)], .shared (.ofList [("Tide.Depth", .null)])]

/-- The ship is moored, and the variable has no members. -/
def afterMooring : Scope :=
  [.bindings [("moored", .boolean true)],
    .shared ((Store.ofList [("Tide.Depth", .null)]).insert "Tide.Depth" (.text "9"))]

/-- A moored ship does not ask for the tide, which could not be told. -/
theorem evaluate_late_moored :
    afterMooring.StillKnows beforeMooring ∧ lowTide.Part mooredOrAfloat ∧
      ∃ formula own e, ofExpr .initial beforeMooring "" mooredOrAfloat = .ok formula ∧
        Late (formula.evaluate afterMooring) ∧
        ofExpr .initial beforeMooring "" lowTide = .ok own ∧
        own.evaluate afterMooring = .error e ∧ e.isCompileTime = false ∧
        e.message = "Member 'Low' not found on text" := by
  have names : afterMooring.StillKnows beforeMooring :=
    .rebound rfl (.set _ _ _ (.refl []))
  have inside : lowTide.Part mooredOrAfloat :=
    .inside (.tail _ (.head _)) (.inside (.tail _ (.head _)) .whole)
  have truth : (ofExpr .initial beforeMooring "" mooredOrAfloat).toOption.map (·.kind) =
      some .boolean := by decide +kernel
  have said : (errorOf? ((ofExpr .initial beforeMooring "" lowTide).bind
      (·.evaluate afterMooring))).map (·.message) =
        some "Member 'Low' not found on text" := by decide +kernel
  obtain ⟨formula, compiled, -⟩ := of_toOption_map truth
  obtain ⟨late, -, parts⟩ := evaluate_late compiled names
  obtain ⟨own, partCompiled, partLate⟩ := parts lowTide inside
  rw [partCompiled] at said
  obtain ⟨e, failed, text⟩ := of_errorOf?_map said
  exact ⟨names, inside, formula, own, e, compiled, late, partCompiled, failed, partLate e failed,
    text⟩

end Emend.Formula
