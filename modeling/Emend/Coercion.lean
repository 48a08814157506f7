import Emend.Descriptor
import Emend.Value

/-!
Values taken as another kind of value, and values stored in scalar fields.
-/

set_option autoImplicit false

namespace Emend

inductive CoercionError where
  | incompatible (source target : String)
  | invalidFormat (text target : String)
  | outOfRange (number : Float) (target : String)

def CoercionError.message : CoercionError → String
  | incompatible source target => "Cannot coerce from " ++ source ++ " to " ++ target
  | invalidFormat text target => "Invalid format '" ++ text ++ "' for type " ++ target
  | outOfRange number target =>
    "Value " ++ Number.toText number ++ " is out of range for " ++ target

namespace Value

/-- Text read as a number between blanks. Only the words for infinity give an infinite number. -/
def parseNumber? (s : String) : Option Float :=
  let s := Text.trim s
  match s.toLower with
  | "infinity" | "+infinity" | "inf" | "+inf" => some (1.0 / 0.0)
  | "-infinity" | "-inf" => some (-1.0 / 0.0)
  | "nan" => some (0.0 / 0.0)
  | _ => (Number.ofText? s).filter Float.isFinite

/-- Nothing counts as zero, and truth values as one and zero. -/
def toNumber : Value → Except CoercionError Float
  | number x => .ok x
  | null => .ok 0
  | boolean b => .ok (if b then 1 else 0)
  | text s =>
    match parseNumber? s with
    | some x => .ok x
    | none => .error (.invalidFormat s "number")
  | v => .error (.incompatible v.typeName "number")

def truth? (word : String) : Option Bool :=
  match word.toLower with
  | "true" | "t" | "yes" | "y" | "1" | "1.0" => some true
  | "false" | "f" | "no" | "n" | "0" | "0.0" | "" => some false
  | _ => none

def toBoolean : Value → Except CoercionError Bool
  | boolean b => .ok b
  | number x => .ok (x != 0 && !x.isNaN)
  | null => .ok false
  | text s =>
    match truth? (Text.trim s) with
    | some b => .ok b
    | none => .error (.invalidFormat s "boolean")
  | v => .error (.incompatible v.typeName "boolean")

def toVersion : Value → Except CoercionError Version
  | version v => .ok v
  | text s =>
    match Version.parse? s with
    | some v => .ok v
    | none => .error (.invalidFormat s "Version")
  | number x =>
    match Version.parse? (numberText x) with
    | some v => .ok v
    | none => .error (.invalidFormat (numberText x) "Version")
  | v => .error (.incompatible v.typeName "Version")

end Value

namespace ScalarKind

/-- The integers that a field of the given width holds. Without a sign the widest field holds
what fits a stored integer. -/
def bounds (bits : Nat) (signed : Bool) : Int × Int :=
  let unit : Int := Nat.pow 2 (if signed then bits - 1 else bits)
  if signed then (-unit, unit - 1)
  else (0, if bits = 64 then Datum.greatestInt else unit - 1)

/-- The integer value of the double nearest to `i`. -/
def asDouble (i : Int) : Int := (Number.roundInt? .towardZero (Float.ofInt i)).getD i

/-- A number stored as an integer: rounded with halves away from zero, and compared with the
bounds as doubles have them. -/
def toInteger (bits : Nat) (signed : Bool) (x : Float) : Except CoercionError Int :=
  match Number.roundInt? .halfAway x with
  | none => .error (.outOfRange x (integer bits signed).name)
  | some i =>
    let (least, greatest) := bounds bits signed
    if i < asDouble least ∨ asDouble greatest < i then
      .error (.outOfRange x (integer bits signed).name)
    else .ok (Datum.clamp i)

/-- A value as a field of this kind stores it. -/
def store (kind : ScalarKind) (v : Value) : Except CoercionError Datum :=
  match kind with
  | bool => v.toBoolean.map .bool
  | integer bits signed => do .ok (.int (← toInteger bits signed (← v.toNumber)))
  | single => v.toNumber.map fun x => .float (Number.toSingle x)
  | double => v.toNumber.map .float
  | text => match v with
    | .null => .ok .null
    | v => .ok (.text v.toText)
  | char | decimal | dateTime => .error (.incompatible v.typeName kind.name)

def read (kind : ScalarKind) (s : String) : Except CoercionError Datum :=
  match kind with
  | text => .ok (.text s)
  | kind => kind.store (.text s)

end ScalarKind

end Emend
