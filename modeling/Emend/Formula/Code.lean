import Emend.Comparison
import Emend.Formula.Error
import Emend.Formula.Scope
import Emend.Pattern.Substitute
import Emend.Version.Range

/-!
Compiled formulas and their evaluation. Names are bound to providers; values are looked up anew
each time. Operands are evaluated from left to right, each is coerced before the next one is
evaluated, and the first error is the result.
-/

set_option autoImplicit false

namespace Emend.Formula
open Emend.Text (Span)

inductive OrderTest where
  | less | lessEqual | greater | greaterEqual
  deriving Repr, DecidableEq

/-- Operands without an order fulfil no test. -/
def OrderTest.holds (test : OrderTest) : Option Ordering → Bool
  | none => false
  | some order => match test with
    | less => order.isLT
    | lessEqual => order.isLE
    | greater => order.isGT
    | greaterEqual => order.isGE

inductive Code where
  | constant (value : Value)
  /-- A name at one provider, and the members taken of its value. -/
  | lookup (provider : Nat) (name : String) (members : List String) (span : Span)
  | member (target : Code) (name : String)
  | map (f : Float → Float) (x : Code)
  | combine (f : Float → Float → Float) (x y : Code)
  | fold (f : Float → Float → Float) (first : Code) (others : List Code)
  | test (p : Float → Bool) (x : Code)
  | asText (x : Code)
  | asBoolean (x : Code)
  | asVersion (x : Code)
  | not (x : Code)
  | and (x y : Code)
  | or (x y : Code)
  | equals (x y : Code)
  | compareNumbers (order : OrderTest) (x y : Code)
  | compareValues (order : OrderTest) (x y : Code)
  | concat (x y : Code)
  | repeated (limit : Nat) (text count : Code)
  | contains (x y : Code)
  | startsWith (x y : Code)
  | endsWith (x y : Code)
  | fitsPattern (text pattern : Code)
  | replace (input pattern substitute : Code)
  | inVersions (version range : Code)
  | tuple (items : List Code)
  | typeName (x : Code)
  | element (target index : Code)

/-- The first of two results, with a coercion error as a formula's. -/
def coerced {α : Type} : Except CoercionError α → Except FormulaError α
  | .ok a => .ok a
  | .error e => .error (.coercion e)

def numberOf (v : Value) : Except FormulaError Float := coerced v.toNumber

def booleanOf (v : Value) : Except FormulaError Bool := coerced v.toBoolean

def versionOf (v : Value) : Except FormulaError Version := coerced v.toVersion

def memberOf (v : Value) (name : String) : Except FormulaError Value :=
  match v.member? name with
  | some member => .ok member
  | none => .error (.noMember name v.typeName)

def membersOf (v : Value) : List String → Except FormulaError Value
  | [] => .ok v
  | name :: rest => do membersOf (← memberOf v name) rest

def patternOf (s : String) : Except FormulaError Pattern.Regex :=
  match Pattern.Regex.ofText? s with
  | some regex => .ok regex
  | none => .error (.invalidPattern s)

def rangeOf (s : String) : Except FormulaError VersionRange :=
  match VersionRange.parse s with
  | .ok range => .ok range
  | .error e => .error (.version e)

/-- A number that counts: integral and not negative. -/
def count? (x : Float) : Option Nat :=
  if 0 ≤ x ∧ Number.isIntegral x then (Number.roundInt? .towardZero x).map Int.toNat else none

/-- The greatest length that is told apart. -/
def lengthCap : Nat := Nat.pow 2 64 - 1

/-- The greatest number of bytes that a text can have. -/
def byteCap : Nat := Nat.pow 2 63 - 1

/-- The limit counts characters, and the room for a text counts bytes. -/
def repeatText (limit : Nat) (s : String) (x : Float) : Except FormulaError Value :=
  match count? x with
  | none =>
    .error (.invalidOperation
      ("repeat count must be a non-negative integer, got " ++ Value.numberText x))
  | some n =>
    let length := min (s.length * min n lengthCap) lengthCap
    if limit < length then .error (.tooLong length limit)
    else if byteCap < s.utf8ByteSize * min n lengthCap then .error (.interrupted "capacity overflow")
    else if s.isEmpty then .ok (.text "")
    else .ok (.text (String.join (List.replicate n s)))

/-- The item of a tuple or the character of a text at an index from zero on. -/
def elementAt (target : Value) (index : Float) : Except FormulaError Value :=
  let found := (count? index).bind fun i =>
    match target with
    | .tuple items => items[i]?
    | .text s => (s.toList[i]?).map fun c => .text (String.singleton c)
    | _ => none
  match found with
  | some v => .ok v
  | none =>
    .error (.invalidOperation
      ("index " ++ Value.numberText index ++ " out of range for " ++ target.typeName))

/-- Whether a list of characters holds another one somewhere. -/
def hasInside (needle : List Char) : List Char → Bool
  | [] => needle.isEmpty
  | c :: rest => needle.isPrefixOf (c :: rest) || hasInside needle rest

/-- Whether a tuple has an equal item, or the text of a value holds that of another. -/
def containsValue (container item : Value) : Bool :=
  match container with
  | .tuple items => items.any (Value.same · item)
  | v => hasInside item.toText.toList v.toText.toList

namespace Code
variable (scope : Scope)

mutual

def eval : Code → Except FormulaError Value
  | constant v => .ok v
  | lookup provider name members span =>
    match scope.get? provider name with
    | some v => membersOf v members
    | none => .error (.unresolved name span)
  | member target name => do memberOf (← eval target) name
  | map f x => do .ok (.number (f (← numberOf (← eval x))))
  | combine f x y => do
    let a ← numberOf (← eval x)
    let b ← numberOf (← eval y)
    .ok (.number (f a b))
  | fold f first others => do
    let a ← numberOf (← eval first)
    .ok (.number (← evalFold f a others))
  | test p x => do .ok (.boolean (p (← numberOf (← eval x))))
  | asText x => do .ok (.text (← eval x).toText)
  | asBoolean x => do .ok (.boolean (← booleanOf (← eval x)))
  | asVersion x => do .ok (.version (← versionOf (← eval x)))
  | not x => do .ok (.boolean !(← booleanOf (← eval x)))
  | and x y => do
    if ← booleanOf (← eval x) then .ok (.boolean (← booleanOf (← eval y)))
    else .ok (.boolean false)
  | or x y => do
    if ← booleanOf (← eval x) then .ok (.boolean true)
    else .ok (.boolean (← booleanOf (← eval y)))
  | equals x y => do
    let a ← eval x
    let b ← eval y
    .ok (.boolean (a.same b))
  | compareNumbers order x y => do
    let a ← numberOf (← eval x)
    let b ← numberOf (← eval y)
    .ok (.boolean (order.holds (Value.compareNumbers a b)))
  | compareValues order x y => do
    let a ← eval x
    let b ← eval y
    .ok (.boolean (order.holds (← coerced (a.compare? b))))
  | concat x y => do
    let a ← eval x
    let b ← eval y
    .ok (.text (a.toText ++ b.toText))
  | repeated limit text count => do
    let s ← eval text
    let n ← numberOf (← eval count)
    repeatText limit s.toText n
  | contains x y => do
    let a ← eval x
    let b ← eval y
    .ok (.boolean (containsValue a b))
  | startsWith x y => do
    let a ← eval x
    let b ← eval y
    .ok (.boolean (b.toText.toList.isPrefixOf a.toText.toList))
  | endsWith x y => do
    let a ← eval x
    let b ← eval y
    .ok (.boolean (b.toText.toList.isSuffixOf a.toText.toList))
  | fitsPattern text pattern => do
    let s ← eval text
    let regex ← patternOf (← eval pattern).toText
    .ok (.boolean (regex.isMatch s.toText))
  | replace input pattern substitute => do
    let s ← eval input
    let regex ← patternOf (← eval pattern).toText
    let t ← eval substitute
    .ok (.text (regex.replaceAll s.toText t.toText))
  | inVersions version range => do
    let v ← versionOf (← eval version)
    let r ← rangeOf (← eval range).toText
    .ok (.boolean (r.contains v))
  | tuple items => do .ok (.tuple (← evalAll items))
  | typeName x => do .ok (.text (← eval x).typeName)
  | element target index => do
    let v ← eval target
    let i ← numberOf (← eval index)
    elementAt v i

def evalAll : List Code → Except FormulaError (List Value)
  | [] => .ok []
  | x :: rest => do
    let v ← eval x
    let vs ← evalAll rest
    .ok (v :: vs)

def evalFold (f : Float → Float → Float) (a : Float) : List Code → Except FormulaError Float
  | [] => .ok a
  | x :: rest => do
    let b ← numberOf (← eval x)
    evalFold f (f a b) rest

end

end Code

end Emend.Formula
