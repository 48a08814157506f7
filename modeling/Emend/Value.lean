import Emend.Datum
import Emend.Version.Basic

/-!
The values of formulas.
-/

set_option autoImplicit false

namespace Emend

inductive Value where
  | null
  | boolean (value : Bool)
  | number (value : Float)
  | text (value : String)
  | version (value : Version)
  | tuple (items : List Value)
  | record (value : Record)
  deriving Inhabited

namespace Value

/-- Numbers as formulas join them to text: an integral number below `10 ^ 15` has no sign of
zero, and infinities are spelled out. -/
def numberText (x : Float) : String :=
  match Number.unpack x with
  | .notANumber => "NaN"
  | .infinity .positive => "Infinity"
  | .infinity .negative => "-Infinity"
  | _ =>
    match Number.roundInt? .towardZero x with
    | some i => if Number.isIntegral x ∧ i.natAbs < Nat.pow 10 15 then toString i else Number.toText x
    | none => Number.toText x

mutual

def toText : Value → String
  | null => ""
  | boolean b => toString b
  | number x => numberText x
  | text s => s
  | version v => v.toText
  | tuple items => "(" ++ ", ".intercalate (itemTexts items) ++ ")"
  | record r => r.typeName

def itemTexts : List Value → List String
  | [] => []
  | v :: rest => toText v :: itemTexts rest

end

mutual

def typeName : Value → String
  | null => "null"
  | boolean _ => "boolean"
  | number _ => "number"
  | text _ => "text"
  | version _ => "Version"
  | tuple items => "(" ++ ", ".intercalate (itemTypeNames items) ++ ")"
  | record r => r.typeName

def itemTypeNames : List Value → List String
  | [] => []
  | v :: rest => typeName v :: itemTypeNames rest

end

mutual

def ofDatum : Datum → Value
  | .null => null
  | .bool b => boolean b
  | .int i => number (Float.ofInt i)
  | .float x => number x
  | .text s => text s
  | .variant s => text s
  | .record typeName fields => record ⟨typeName, fields⟩
  | .list items => tuple (ofItems items)

def ofItems : List Datum → List Value
  | [] => []
  | item :: rest => ofDatum item :: ofItems rest

end

@[simp] theorem ofItems_eq_map (items : List Datum) : ofItems items = items.map ofDatum := by
  induction items with
  | nil => rfl
  | cons item rest ih => rw [ofItems, ih, List.map_cons]

def count (n : Nat) : Value := number (Float.ofNat n)

/-- A field of a record, the size of a tuple or text, or a number of a version. -/
def member? (v : Value) (name : String) : Option Value :=
  match v, name.toLower with
  | record r, _ => (r.getAnyCase? name).map ofDatum
  | tuple items, "count" | tuple items, "length" => some (count items.length)
  | text s, "length" => some (count s.length)
  | version v, "major" => some (count v.major)
  | version v, "minor" => some (count v.minor)
  | version v, "patch" => some (count v.patch)
  | _, _ => none

end Value

end Emend
