import Emend.Proofs.Formula.Kinds
import Mathlib.Data.List.Forall2

/-!
Formulas evaluated without being compiled. Nothing is known of an operand before it has a value, so
every conversion is made, every comparison asks for the kinds of both values, and the name of a type
is asked from a value.
-/

set_option autoImplicit false

namespace Emend.Formula
open Emend.Text (Span)
open List (Forall₂)

abbrev Result := Except FormulaError Value

/-- The value as one of the kind, where values can be taken as that. -/
def Kind.convert (kind : Kind) (v : Value) : Result :=
  match kind with
  | number => do .ok (.number (← numberOf v))
  | text => .ok (.text v.toText)
  | boolean => do .ok (.boolean (← booleanOf v))
  | version => do .ok (.version (← versionOf v))
  | tuple | dynamic => .ok v

def withNumbers (f : Float → Float → Float) (x y : Result) : Result := do
  let a ← numberOf (← x)
  let b ← numberOf (← y)
  .ok (.number (f a b))

def withValues (f : Value → Value → Result) (x y : Result) : Result := do
  let a ← x
  let b ← y
  f a b

def withTexts (p : List Char → List Char → Bool) (x y : Result) : Result :=
  withValues (fun a b => .ok (.boolean (p b.toText.toList a.toText.toList))) x y

/-- The kinds of the values decide how they are compared. -/
def ordered (test : OrderTest) (x y : Result) : Result :=
  withValues (fun a b => do .ok (.boolean (test.holds (← coerced (a.compare? b))))) x y

def UnaryOp.apply (op : UnaryOp) (x : Result) : Result := do
  let v ← x
  match op with
  | negate => do .ok (.number (← numberOf v).neg)
  | plus => Kind.number.convert v
  | not => do .ok (.boolean !(← booleanOf v))

def BinaryOp.apply (limit : Nat) (op : BinaryOp) (x y : Result) : Result :=
  match op with
  | add => withNumbers (· + ·) x y
  | subtract => withNumbers (· - ·) x y
  | multiply => withNumbers (· * ·) x y
  | divide => withNumbers (· / ·) x y
  | modulo => withNumbers Number.remainder x y
  | power => withNumbers Float.pow x y
  | less => ordered .less x y
  | lessEqual => ordered .lessEqual x y
  | greater => ordered .greater x y
  | greaterEqual => ordered .greaterEqual x y
  | equals => withValues (fun a b => .ok (.boolean (a.same b))) x y
  | and => do
    if ← booleanOf (← x) then .ok (.boolean (← booleanOf (← y))) else .ok (.boolean false)
  | or => do
    if ← booleanOf (← x) then .ok (.boolean true) else .ok (.boolean (← booleanOf (← y)))
  | concat => withValues (fun a b => .ok (.text (a.toText ++ b.toText))) x y
  | repeated => withValues (fun a b => do repeatText limit a.toText (← numberOf b)) x y
  | contains => withValues (fun a b => .ok (.boolean (containsValue a b))) x y
  | startsWith => withTexts List.isPrefixOf x y
  | endsWith => withTexts List.isSuffixOf x y
  | fitsPattern =>
    withValues (fun a b => do .ok (.boolean ((← patternOf b.toText).isMatch a.toText))) x y
  | inVersions => do
    let v ← versionOf (← x)
    let range ← rangeOf (← y).toText
    .ok (.boolean (range.contains v))

def replaced (input pattern substitute : Result) : Result := do
  let s ← input
  let regex ← patternOf (← pattern).toText
  let t ← substitute
  .ok (.text (regex.replaceAll s.toText t.toText))

def valuesOf : List Result → Except FormulaError (List Value)
  | [] => .ok []
  | x :: rest => do
    let v ← x
    let vs ← valuesOf rest
    .ok (v :: vs)

def foldNumbers (f : Float → Float → Float) (a : Float) : List Result → Except FormulaError Float
  | [] => .ok a
  | x :: rest => do
    let b ← numberOf (← x)
    foldNumbers f (f a b) rest

/-- What a function gives for a number of arguments that it accepts. -/
def Builtin.value? (builtin : Builtin) (args : List Result) : Option Result :=
  match builtin, args with
  | number, [x] => some (x >>= Kind.number.convert)
  | text, [x] => some (x >>= Kind.text.convert)
  | boolean, [x] => some (x >>= Kind.boolean.convert)
  | version, [x] => some (x >>= Kind.version.convert)
  | typeName, [x] => some do .ok (.text (← x).typeName)
  | element, [target, index] => some do
    let v ← target
    let i ← numberOf (← index)
    elementAt v i
  | round, [x, digits] => some (withNumbers (fun digits x => roundTo x digits) digits x)
  | builtin, args =>
    match builtin.ofOne?, builtin.ofTwo?, builtin.ofMany?, builtin.test?, args with
    | some f, _, _, _, [x] => some do .ok (.number (f (← numberOf (← x))))
    | _, some f, _, _, [x, y] => some (withNumbers f x y)
    | _, _, some f, _, x :: others => some do
      let a ← numberOf (← x)
      .ok (.number (← foldNumbers f a others))
    | _, _, _, some p, [x] => some do .ok (.boolean (p (← numberOf (← x))))
    | _, _, _, _, _ => none

/-- The present value of a path whose beginning is a name of the known scope. -/
def pathValue (known present : Scope) (path : List String) (span : Span) : Result :=
  match known.resolve? path with
  | none => .error (.unresolved (".".intercalate path) span)
  | some found =>
    match present.get? found.provider found.name with
    | some v => membersOf v found.members
    | none => .error (.unresolved found.name span)

section
variable (limit : Nat) (known present : Scope)

mutual

/-- The value of a tree with names of the known scope in the present one, when repetitions may
have the given length. -/
def Expr.eval : Expr → Result
  | .literal l => .ok l.value
  | .symbol head tail span => pathValue known present (head :: tail) span
  | .member target name => do memberOf (← target.eval) name
  | .unary op x => op.apply x.eval
  | .binary op x y => op.apply limit x.eval y.eval
  | .replace input pattern substitute => replaced input.eval pattern.eval substitute.eval
  | .tuple items => do .ok (.tuple (← valuesOf (results items)))
  | .call name [] span => pathValue known present [name] span
  | .call name args span =>
    match Signature.find? name with
    | none => .error (.unknownFunction name span)
    | some signature =>
      (signature.builtin.value? (results args)).getD
        (.error (.wrongArity signature.name signature.arity args.length))

def results : List Expr → List Result
  | [] => []
  | expr :: rest => expr.eval :: results rest

end

end

mutual

/-- Whether the tree calls the function that tells the name of a type. -/
def Expr.asksType : Expr → Bool
  | .literal _ | .symbol .. | .call _ [] _ => false
  | .member target _ => target.asksType
  | .unary _ x => x.asksType
  | .binary _ x y => x.asksType || y.asksType
  | .replace input pattern substitute =>
    input.asksType || pattern.asksType || substitute.asksType
  | .tuple items => anyAsksType items
  | .call name args _ =>
    (Signature.find? name).any (·.builtin = .typeName) || anyAsksType args

def anyAsksType : List Expr → Bool
  | [] => false
  | expr :: rest => expr.asksType || anyAsksType rest

end

/-- A value of the first is the value of the second, and the other way too if `exact` holds. Errors
may differ. -/
structure Matches {α : Type} (exact : Prop) (direct other : Except FormulaError α) : Prop where
  kept : ∀ a, direct = .ok a → other = .ok a
  only : exact → ∀ a, other = .ok a → direct = .ok a

namespace Matches

variable {α β : Type} {exact : Prop}

theorem refl (x : Except FormulaError α) : Matches exact x x := ⟨fun _ => id, fun _ _ => id⟩

theorem of_eq {x y : Except FormulaError α} (same : x = y) : Matches exact x y := same ▸ refl x

theorem weaken {more : Prop} {x y : Except FormulaError α} (alike : Matches exact x y)
    (implies : more → exact) : Matches more x y :=
  ⟨alike.kept, fun given => alike.only (implies given)⟩

theorem trans {x y z : Except FormulaError α} (first : Matches exact x y)
    (second : Matches exact y z) : Matches exact x z :=
  ⟨fun a value => second.kept a (first.kept a value),
    fun given a value => first.only given a (second.only given a value)⟩

theorem bind {x y : Except FormulaError α} {f g : α → Except FormulaError β}
    (first : Matches exact x y) (next : ∀ a, Matches exact (f a) (g a)) :
    Matches exact (x >>= f) (y >>= g) := by
  constructor
  · intro b value
    obtain ⟨a, head, value⟩ := of_bind_ok value
    rw [first.kept a head]
    exact (next a).kept b value
  · intro given b value
    obtain ⟨a, head, value⟩ := of_bind_ok value
    rw [first.only given a head]
    exact (next a).only given b value

section
variable {x y x' y' : Result} (left : Matches exact x x') (right : Matches exact y y')
include left

theorem follow (next : Value → Except FormulaError α) :
    Matches exact (x >>= next) (x' >>= next) := left.bind fun _ => refl _

theorem unary (op : UnaryOp) : Matches exact (op.apply x) (op.apply x') := left.follow _

include right

theorem withNumbers (f : Float → Float → Float) :
    Matches exact (withNumbers f x y) (Formula.withNumbers f x' y') := by
  refine left.bind fun v => .bind (.refl _) fun a => ?_
  exact right.follow _

theorem withValues (f : Value → Value → Result) :
    Matches exact (withValues f x y) (Formula.withValues f x' y') :=
  left.bind fun _ => right.follow _

theorem binary (limit : Nat) (op : BinaryOp) :
    Matches exact (op.apply limit x y) (op.apply limit x' y') := by
  cases op with
  | add | subtract | multiply | divide | modulo | power => exact left.withNumbers right _
  | and =>
      refine left.bind fun v => .bind (.refl _) fun a => ?_
      cases a with
      | true => exact right.follow _
      | false => exact .refl _
  | or =>
      refine left.bind fun v => .bind (.refl _) fun a => ?_
      cases a with
      | true => exact .refl _
      | false => exact right.follow _
  | inVersions =>
      refine left.bind fun v => .bind (.refl _) fun a => ?_
      exact right.follow _
  | _ => exact left.withValues right _

theorem replaced {z z' : Result} (last : Matches exact z z') :
    Matches exact (replaced x y z) (Formula.replaced x' y' z') := by
  refine left.bind fun v => right.bind fun w => .bind (.refl _) fun regex => ?_
  exact last.follow _

end

theorem valuesOf {xs ys : List Result} (each : Forall₂ (Matches exact) xs ys) :
    Matches exact (valuesOf xs) (Formula.valuesOf ys) := by
  induction each with
  | nil => exact .refl _
  | cons first _ ih => exact first.bind fun v => ih.bind fun vs => .refl _

theorem foldNumbers {f : Float → Float → Float} {a : Float} {xs ys : List Result}
    (each : Forall₂ (Matches exact) xs ys) :
    Matches exact (foldNumbers f a xs) (Formula.foldNumbers f a ys) := by
  induction each generalizing a with
  | nil => exact .refl _
  | cons first _ ih => exact first.bind fun v => .bind (.refl _) fun b => ih

theorem call (builtin : Builtin) {xs ys : List Result} (each : Forall₂ (Matches exact) xs ys) :
    Option.Rel (Matches exact) (builtin.value? xs) (builtin.value? ys) := by
  cases each with
  | nil => cases builtin <;> exact .none
  | cons first others =>
      cases others with
      | nil =>
          cases builtin with
          | atan2 | pow | element => exact .none
          | min | max =>
              exact .some (first.bind fun v => .bind (.refl _) fun a => .refl _)
          | _ => exact .some (first.follow _)
      | cons second others =>
          cases others with
          | nil =>
              cases builtin with
              | atan2 | pow | log => exact .some (first.withNumbers second _)
              | round => exact .some (second.withNumbers first _)
              | element => exact .some (first.bind fun v => second.follow _)
              | min | max =>
                  refine .some (first.bind fun v => .bind (.refl _) fun a => ?_)
                  exact (foldNumbers (.cons second .nil)).bind fun b => .refl _
              | _ => exact .none
          | cons third others =>
              cases builtin with
              | min | max =>
                  refine .some (first.bind fun v => .bind (.refl _) fun a => ?_)
                  exact (foldNumbers (.cons second (.cons third others))).bind fun b => .refl _
              | _ => exact .none

end Matches

end Emend.Formula
