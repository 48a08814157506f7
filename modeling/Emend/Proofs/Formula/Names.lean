import Emend.Proofs.Formula.Demand

/-!
What a formula reads of its scope. Two scopes that give the same values to the names in a formula
give it the same result, even if it is another provider that knows a name.
-/

set_option autoImplicit false

namespace Emend.Formula
open Emend.Text (Span)

/-- The names that a path may begin with. -/
def dotted (path : List String) : List String :=
  (List.range path.length).map fun n => ".".intercalate (path.take (n + 1))

mutual

/-- The names that a formula may look up. -/
def Expr.names : Expr → List String
  | .literal _ => []
  | .symbol head tail _ => dotted (head :: tail)
  | .member target _ => target.names
  | .unary _ x => x.names
  | .binary _ x y => x.names ++ y.names
  | .replace input pattern replacement => input.names ++ pattern.names ++ replacement.names
  | .call name [] _ => dotted [name]
  | .call _ args _ => namesOfAll args
  | .tuple items => namesOfAll items

def namesOfAll : List Expr → List String
  | [] => []
  | expr :: rest => expr.names ++ namesOfAll rest

end

def namesOfText (limit : Nat) (text : String) : List String :=
  match parse text limit with
  | .ok expr => expr.names
  | .error _ => []

/-- The value that the first provider has for the name. -/
def Scope.value? (scope : Scope) (name : String) : Option Value :=
  scope.findSome? (·.get? name)

/-- The same values for the names. -/
def Scope.Agree (names : List String) (s t : Scope) : Prop :=
  ∀ name ∈ names, s.value? name = t.value? name

namespace Scope

theorem Agree.left {names others : List String} {s t : Scope}
    (agree : Agree (names ++ others) s t) : Agree names s t :=
  fun name member => agree name (List.mem_append_left _ member)

theorem Agree.right {names others : List String} {s t : Scope}
    (agree : Agree (names ++ others) s t) : Agree others s t :=
  fun name member => agree name (List.mem_append_right _ member)

theorem Agree.of_mem {exprs : List Expr} {expr : Expr} {s t : Scope}
    (agree : Agree (namesOfAll exprs) s t) (member : expr ∈ exprs) : Agree expr.names s t := by
  induction exprs with
  | nil => cases member
  | cons first rest ih =>
      unfold namesOfAll at agree
      rcases List.mem_cons.mp member with rfl | later
      · exact agree.left
      · exact ih agree.right later

theorem providerOf?_eq_none {scope : Scope} {name : String} :
    scope.providerOf? name = none ↔ scope.value? name = none := by
  unfold providerOf? value?
  simp [List.findIdx?_eq_none_iff, List.findSome?_eq_none_iff]

theorem get?_of_providerOf? {scope : Scope} {name : String} {provider : Nat}
    (known : scope.providerOf? name = some provider) :
    scope.get? provider name = scope.value? name := by
  unfold providerOf? at known
  unfold get? value?
  induction scope generalizing provider with
  | nil => cases known
  | cons first rest ih =>
      rw [List.findIdx?_cons] at known
      rw [List.findSome?_cons]
      cases here : first.get? name with
      | some v =>
          simp only [here, Option.isSome_some, ↓reduceIte, Option.some.injEq] at known
          subst known
          simpa using here
      | none =>
          simp only [here, Option.isSome_none, Bool.false_eq_true, ↓reduceIte,
            Option.map_eq_some_iff] at known
          obtain ⟨later, known, rfl⟩ := known
          simpa using ih known

theorem resolvePrefix?_agree {s t : Scope} {path : List String} (agree : Agree (dotted path) s t)
    {length : Nat} (bound : length ≤ path.length) :
    s.resolvePrefix? path length = none ∧ t.resolvePrefix? path length = none ∨
      ∃ p q name members, s.resolvePrefix? path length = some ⟨p, name, members⟩ ∧
        t.resolvePrefix? path length = some ⟨q, name, members⟩ ∧ s.get? p name = t.get? q name := by
  induction length with
  | zero => exact .inl ⟨rfl, rfl⟩
  | succ length ih =>
      unfold resolvePrefix?
      dsimp only
      have same := agree (".".intercalate (path.take (length + 1)))
        (List.mem_map.mpr ⟨length, List.mem_range.mpr bound, rfl⟩)
      cases first : s.providerOf? (".".intercalate (path.take (length + 1))) with
      | none =>
          rw [providerOf?_eq_none, same, ← providerOf?_eq_none] at first
          rw [first]
          exact ih (by omega)
      | some p =>
          cases second : t.providerOf? (".".intercalate (path.take (length + 1))) with
          | none =>
              rw [providerOf?_eq_none, ← same, ← providerOf?_eq_none, first] at second
              cases second
          | some q =>
              refine .inr ⟨p, q, _, _, rfl, rfl, ?_⟩
              rw [get?_of_providerOf? first, get?_of_providerOf? second, same]

theorem resolve?_agree {s t : Scope} {path : List String} (agree : Agree (dotted path) s t) :
    s.resolve? path = none ∧ t.resolve? path = none ∨
      ∃ p q name members, s.resolve? path = some ⟨p, name, members⟩ ∧
        t.resolve? path = some ⟨q, name, members⟩ ∧ s.get? p name = t.get? q name :=
  resolvePrefix?_agree agree (Nat.le_refl _)

end Scope

/-- The same kind, and the same result in the scope of each. -/
structure Compiled.Like (s t : Scope) (x y : Compiled) : Prop where
  kind : x.kind = y.kind
  eval : x.code.eval s = y.code.eval t

section
variable {s t : Scope}

theorem Scope.symbol_like {path : List String} {span : Span} (agree : Agree (dotted path) s t) :
    Alike (Compiled.Like s t) (s.symbol path span) (t.symbol path span) := by
  unfold symbol
  rcases resolve?_agree agree with
    ⟨first, second⟩ | ⟨p, q, name, members, first, second, same⟩
  · rw [first, second]
    exact .error _
  · rw [first, second]
    refine .ok ⟨rfl, ?_⟩
    simp only [Code.eval, same]

namespace Compiled

theorem Like.follows {x y : Compiled} (like : Like s t x y) : Follows s t (fun _ => False) x y :=
  ⟨like.kind, .inr like.eval⟩

theorem Follows.like {x y : Compiled} (follows : Follows s t (fun _ => False) x y) : Like s t x y :=
  ⟨follows.kind, follows.code.resolve_left id⟩

end Compiled

section
variable {options : Options}

/-- A checked literal is a constant, whatever the scope. -/
theorem checkedOperand_like {op : BinaryOp} {expr : Expr}
    {first second : Except FormulaError Compiled} (alike : Alike (Compiled.Like s t) first second) :
    Alike (Compiled.Like s t) (checkedOperand op expr first) (checkedOperand op expr second) := by
  unfold checkedOperand
  cases read : expr.literalText?.bind (literalOperand op) with
  | none => exact alike
  | some checked =>
      obtain ⟨text, -, read⟩ := Option.bind_eq_some_iff.mp read
      refine .same checked ?_
      intro compiled made
      unfold literalOperand at read
      split at read <;> cases read
      all_goals
        obtain ⟨_, -, rfl⟩ := of_map_ok made
        exact (Compiled.constant_follows _).like

theorem compileAll_like {allowance : Nat} {exprs : List Expr}
    (each : ∀ expr ∈ exprs, Alike (Compiled.Like s t) (compile options s allowance expr)
      (compile options t allowance expr)) :
    Alike (List.Forall₂ (Compiled.Like s t)) (compileAll options s allowance exprs)
      (compileAll options t allowance exprs) := by
  induction exprs with
  | nil =>
      unfold compileAll
      exact .ok .nil
  | cons expr rest ih =>
      unfold compileAll
      refine (each expr List.mem_cons_self).bind fun x y first => ?_
      refine (ih fun later member => each later (List.mem_cons_of_mem _ member)).bind
        fun xs ys others => ?_
      exact .ok (.cons first others)

/-- The induction is on the levels that are left; the operands of a tree have fewer. -/
theorem compile_like {allowance : Nat} {expr : Expr} (agree : Scope.Agree expr.names s t) :
    Alike (Compiled.Like s t) (compile options s allowance expr)
      (compile options t allowance expr) := by
  induction allowance generalizing expr with
  | zero =>
      unfold compile
      exact .error _
  | succ allowance ih =>
      unfold compile
      cases expr with
      | literal l => exact .ok (Compiled.constant_follows _).like
      | symbol head tail span => exact Scope.symbol_like agree
      | member target name =>
          refine Alike.bind (ih agree) fun x y like => ?_
          exact .ok (Compiled.member_follows Code.rises_never name like.follows).like
      | unary op x =>
          refine Alike.bind (ih agree) fun x y like => ?_
          exact .ok (Compiled.unary_follows Code.rises_never op like.follows).like
      | binary op x y =>
          unfold Expr.names at agree
          refine Alike.bind (ih agree.left) fun x x' left => ?_
          refine Alike.bind (checkedOperand_like (ih agree.right)) fun y y' right => ?_
          exact .ok (Compiled.binary_follows Code.rises_never options op left.follows
            right.follows).like
      | replace input pattern substitute =>
          unfold Expr.names at agree
          refine Alike.bind (ih agree.left.left) fun x x' first => ?_
          refine Alike.bind (checkedOperand_like (ih agree.left.right)) fun y y' second => ?_
          refine Alike.bind (ih agree.right) fun z z' third => ?_
          exact .ok (Compiled.replace_follows Code.rises_never first.follows second.follows
            third.follows).like
      | tuple items =>
          unfold Expr.names at agree
          have each : ∀ expr ∈ items, Alike (Compiled.Like s t)
              (compile options s allowance expr) (compile options t allowance expr) :=
            fun expr member => ih (agree.of_mem member)
          refine Alike.bind (compileAll_like each) fun xs ys like => ?_
          exact .ok (Compiled.tuple_follows Code.rises_never (like.imp fun _ _ => (·.follows))).like
      | call name args span =>
          cases args with
          | nil =>
              -- Without arguments a name that is known is a symbol, and no call.
              have named : Scope.Agree (dotted [name]) s t := agree
              dsimp only
              rcases Scope.resolve?_agree named with
                ⟨first, second⟩ | ⟨p, q, found, members, first, second, -⟩
              · rw [first, second]
                refine .same _ fun _ made => ?_
                obtain ⟨_, -, impossible⟩ := of_bind_ok made
                cases impossible
              · rw [first, second]
                exact Scope.symbol_like named
          | cons first others =>
              unfold Expr.names at agree
              refine Alike.bind (.same _ fun _ _ => rfl) fun signature _ same => ?_
              cases same
              split
              · refine .same _ fun _ made => ?_
                obtain ⟨_, -, made⟩ := of_bind_ok made
                cases made
                exact (Compiled.constant_follows _).like
              · have each : ∀ expr ∈ others, Alike (Compiled.Like s t)
                    (compile options s allowance expr) (compile options t allowance expr) :=
                  fun expr member => ih (agree.right.of_mem member)
                refine Alike.bind (ih agree.left) fun x y head => ?_
                refine Alike.bind (compileAll_like each) fun xs ys tail => ?_
                have called := Compiled.call_follows Code.rises_never signature.builtin
                  (.cons head.follows (tail.imp fun _ _ => (·.follows)))
                generalize Compiled.call signature.builtin (x :: xs) = made at called ⊢
                generalize Compiled.call signature.builtin (y :: ys) = made' at called ⊢
                cases called with
                | some follows => exact .ok follows.like
                | none =>
                    rw [tail.length_eq]
                    exact .error _

/-- Text that is compiled and evaluated in one scope has the same result in another one that agrees
with it on the names in the text. -/
theorem evaluate_congr {text : String}
    (agree : Scope.Agree (namesOfText options.depthLimit text) s t) :
    (ofText options s text).bind (·.evaluate s) = (ofText options t text).bind (·.evaluate t) := by
  unfold namesOfText at agree
  unfold ofText
  cases parsed : parse text options.depthLimit with
  | error e => cases e <;> rfl
  | ok expr =>
      rw [parsed] at agree
      unfold ofParsed ofExpr
      dsimp only
      have alike : Alike (Compiled.Like s t) (compile options s options.depthLimit expr)
          (compile options t options.depthLimit expr) := compile_like agree
      generalize compile options s options.depthLimit expr = first at alike ⊢
      generalize compile options t options.depthLimit expr = second at alike ⊢
      cases alike with
      | error e => rfl
      | ok like => exact like.eval

end

end

end Emend.Formula
