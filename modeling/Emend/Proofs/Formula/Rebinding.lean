import Emend.Formula.Compile
import Emend.Proofs.Except
import Emend.Proofs.Store
import Mathlib.Data.List.Forall2

/-!
Scopes that know the same names. Compilation asks a scope only which of its providers know a name,
so it has the same outcome whatever the names stand for, and a formula need not be compiled again
after its variables have changed.
-/

set_option autoImplicit false

namespace Emend.Formula
open Emend.Text (Span)
open List (Forall₂)

namespace Scope

/-- As many providers, and each knows the names that its counterpart knows. -/
def SameNames (s t : Scope) : Prop :=
  Forall₂ (fun p q => ∀ name, (p.get? name).isSome = (q.get? name).isSome) s t

namespace SameNames
variable {s t : Scope}

theorem refl (s : Scope) : s.SameNames s := List.forall₂_same.mpr fun _ _ _ => rfl

theorem trans {u : Scope} (first : s.SameNames t) (second : t.SameNames u) : s.SameNames u := by
  induction first generalizing u with
  | nil => exact second
  | cons here _ ih =>
      cases second with
      | cons there rest => exact .cons (fun name => (here name).trans (there name)) (ih rest)

theorem bindings {entries others : List (String × Value)}
    (names : entries.map (·.1.toLower) = others.map (·.1.toLower)) (rest : s.SameNames t) :
    SameNames (.bindings entries :: s) (.bindings others :: t) := by
  refine .cons (fun name => ?_) rest
  have known (some : List (String × Value)) : ((Provider.bindings some).get? name).isSome =
      (some.map (·.1.toLower)).any (· == name.toLower) := by
    unfold Provider.get?
    dsimp only
    rw [Fields.isSome_findAnyCase?, List.any_map, List.any_map]
    rfl
  rw [known, known, names]

theorem shared {store other : Store}
    (names : store.entries.map (·.1) = other.entries.map (·.1)) (rest : s.SameNames t) :
    SameNames (.shared store :: s) (.shared other :: t) := by
  refine .cons (fun name => ?_) rest
  have known (some : Store) : ((Provider.shared some).get? name).isSome =
      (some.entries.map (·.1)).any (name == ·) := by
    unfold Provider.get? Store.get?
    dsimp only
    rw [Bool.eq_iff_iff, List.lookup_isSome_iff, List.any_map, List.any_eq_true]
    rfl
  rw [known, known, names]

variable (names : s.SameNames t)
include names

theorem providerOf? (name : String) : s.providerOf? name = t.providerOf? name := by
  unfold Scope.providerOf?
  induction names with
  | nil => rfl
  | cons here _ ih => rw [List.findIdx?_cons, List.findIdx?_cons, here name, ih]

theorem resolve? (path : List String) : s.resolve? path = t.resolve? path := by
  unfold Scope.resolve?
  generalize path.length = length
  induction length with
  | zero => rfl
  | succ length ih =>
      unfold resolvePrefix?
      dsimp only
      rw [names.providerOf?, ih]

theorem symbol (path : List String) (span : Span) : s.symbol path span = t.symbol path span := by
  unfold Scope.symbol
  rw [names.resolve? path]

end SameNames

end Scope

section
variable {options : Options} {s t : Scope} (names : s.SameNames t)

theorem compileAll_congr {allowance : Nat} {exprs : List Expr}
    (each : ∀ expr ∈ exprs, compile options s allowance expr = compile options t allowance expr) :
    compileAll options s allowance exprs = compileAll options t allowance exprs := by
  induction exprs with
  | nil =>
      unfold compileAll
      rfl
  | cons expr rest ih =>
      have others := ih fun later member => each later (List.mem_cons_of_mem _ member)
      unfold compileAll
      rw [each expr List.mem_cons_self, others]

include names

/-- The induction is on the levels that are left; only symbols and calls without arguments ask the
scope for anything. -/
theorem compile_congr (allowance : Nat) (expr : Expr) :
    compile options s allowance expr = compile options t allowance expr := by
  induction allowance generalizing expr with
  | zero =>
      unfold compile
      rfl
  | succ allowance ih =>
      have all (exprs : List Expr) : compileAll options s allowance exprs =
          compileAll options t allowance exprs := compileAll_congr fun expr _ => ih expr
      cases expr with
      | symbol head tail span => simp only [compile, names.symbol]
      | call name args span =>
          cases args with
          | nil => simp only [compile, names.resolve?, names.symbol]
          | cons first others => simp only [compile, ih, all]
      | _ => simp only [compile, ih, all]

theorem ofParsed_congr (text : String) (parsed : Except ParseError Expr) :
    ofParsed options s text parsed = ofParsed options t text parsed := by
  have same (expr : Expr) : compile options s options.depthLimit expr =
      compile options t options.depthLimit expr := compile_congr names _ expr
  unfold ofParsed ofExpr
  simp only [same]

theorem ofTextCached_congr (cache : Cache) (text : String) :
    ofTextCached cache options s text = ofTextCached cache options t text := by
  unfold ofTextCached ofText
  simp only [ofParsed_congr names]

end

/-- A shared variable that is set, or removed if there is no value. -/
structure Change where
  /-- The number of the provider that has the variable. -/
  provider : Nat
  name : String
  value : Option Value

/-- Bindings are fixed once they are made. -/
def Change.apply (change : Change) : Provider → Provider
  | .bindings entries => .bindings entries
  | .shared store =>
    .shared (match change.value with
      | some value => store.insert change.name value
      | none => store.erase change.name)

namespace Scope

def change (scope : Scope) (c : Change) : Scope := scope.modify c.provider c.apply

/-- The scope after changes, in their order. -/
def after (scope : Scope) (changes : List Change) : Scope := changes.foldl change scope

/-- A variable that is there already is set to a value. -/
def sets (scope : Scope) (c : Change) : Bool :=
  c.value.isSome && (scope.get? c.provider c.name).isSome

theorem get?_isSome_congr {s t : Scope} (names : s.SameNames t) (provider : Nat) (name : String) :
    (s.get? provider name).isSome = (t.get? provider name).isSome := by
  unfold get?
  induction names generalizing provider with
  | nil => rfl
  | cons here _ ih =>
      cases provider with
      | zero => exact here name
      | succ provider => exact ih provider

theorem SameNames.change {scope : Scope} {c : Change} (sets : scope.sets c) :
    scope.SameNames (scope.change c) := by
  obtain ⟨provider, name, value⟩ := c
  obtain ⟨given, known⟩ := Bool.and_eq_true_iff.mp sets
  obtain ⟨v, rfl⟩ := Option.isSome_iff_exists.mp given
  clear sets given
  unfold Scope.change
  dsimp only at known ⊢
  induction scope generalizing provider with
  | nil =>
      rw [List.modify_nil]
      exact .nil
  | cons first rest ih =>
      cases provider with
      | succ provider => exact .cons (fun _ => rfl) (ih provider known)
      | zero =>
          refine .cons (fun other => ?_) (refl rest)
          cases first with
          | bindings entries => rfl
          | shared store =>
              change (store.get? other).isSome = ((store.insert name v).get? other).isSome
              rw [Store.get?_insert]
              split
              · rename_i same
                exact same ▸ known
              · rfl

/-- However often variables that are there are set, the names stay the same. -/
theorem SameNames.after {scope : Scope} {changes : List Change}
    (sets : ∀ c ∈ changes, scope.sets c) : scope.SameNames (scope.after changes) := by
  suffices every : ∀ {present : Scope}, scope.SameNames present →
      scope.SameNames (present.after changes) from every (refl scope)
  induction changes with
  | nil => exact id
  | cons c rest ih =>
      intro present names
      have here : present.sets c := by
        have there := sets c List.mem_cons_self
        unfold Scope.sets at there ⊢
        rwa [← get?_isSome_congr names]
      exact ih (fun later member => sets later (List.mem_cons_of_mem _ member))
        (names.trans (.change here))

end Scope

/-- Two scopes that know the same names get the same from compiling a text, be it an error or a
formula of some kind. A formula that was compiled once has, after any changes of variables that
leave the names as they were, the result that it would have if it were compiled anew. -/
theorem ofTextCached_sameNames (options : Options) {known other : Scope}
    (names : known.SameNames other) (cache : Cache) (text : String) :
    ofTextCached cache options known text = ofTextCached cache options other text ∧
    ∀ formula : Formula, (ofTextCached cache options known text).1 = .ok formula →
      ∀ changes : List Change, known.SameNames (known.after changes) →
        let present := known.after changes
        let anew := (ofTextCached cache options present text).1
        formula.evaluate present = anew.bind (·.evaluate present) ∧
          formula.evaluateBool present = anew.bind (·.evaluateBool present) := by
  refine ⟨ofTextCached_congr names cache text, ?_⟩
  intro formula compiled changes kept present anew
  have same : anew = .ok formula := by
    rw [← compiled]
    exact (congrArg Prod.fst (ofTextCached_congr kept cache text)).symm
  rw [same]
  exact ⟨rfl, rfl⟩

/-- A ship and the height of the tide. -/
def ebb : Scope :=
  [.bindings [("item", .text "Ann")], .shared (.ofList [("Tide", .number 4)])]

/-- Another ship, and a tide that is no number. -/
def fog : Scope :=
  [.bindings [("Item", .text "Bob")], .shared (.ofList [("Tide", .null)])]

/-- The tide turns, and is then told in words. -/
def turn : List Change :=
  [⟨1, "Tide", some (.number 2)⟩, ⟨1, "Tide", some (.text "few")⟩]

def bulletin : String := "item .. ' has ' .. Tide .. ' feet'"

theorem ebb_sameNames_fog : ebb.SameNames fog :=
  .bindings (by decide +kernel) (.shared rfl .nil)

/-- What is said after the tide has turned twice is told without compiling the text again. -/
theorem ofTextCached_sameNames_turn :
    ebb.SameNames fog ∧ ebb.SameNames (ebb.after turn) ∧
    ofTextCached .empty .initial ebb bulletin = ofTextCached .empty .initial fog bulletin ∧
    ∃ formula v, (ofTextCached .empty .initial ebb bulletin).1 = .ok formula ∧
      formula.evaluate (ebb.after turn) = .ok v ∧ v.toText = "Ann has few feet" := by
  have kept : ebb.SameNames (ebb.after turn) := .after (by decide +kernel)
  obtain ⟨same, later⟩ := ofTextCached_sameNames .initial ebb_sameNames_fog .empty bulletin
  have text : (ofTextCached .empty .initial ebb bulletin).1.toOption.map (·.kind) = some .text := by
    decide +kernel
  have said : ((ofTextCached .empty .initial (ebb.after turn) bulletin).1.bind
      (·.evaluate (ebb.after turn))).toOption.map Value.toText = some "Ann has few feet" := by
    decide +kernel
  obtain ⟨formula, compiled, -⟩ := of_toOption_map text
  rw [← (later formula compiled turn kept).1] at said
  obtain ⟨v, done, said⟩ := of_toOption_map said
  exact ⟨ebb_sameNames_fog, kept, same, formula, v, compiled, done, said⟩

end Emend.Formula
