import Emend.Fields
import Emend.Number.Layout
import Emend.Number.Reading
import Emend.Text.Blank

/-!
Stored data: records with named fields, and what their fields hold.
-/

set_option autoImplicit false

namespace Emend

inductive Datum where
  | null
  | bool (value : Bool)
  | int (value : Int)
  | float (value : Float)
  | text (value : String)
  /-- A variant of an enumeration, by its declared name. -/
  | variant (name : String)
  | record (typeName : String) (fields : List (String × Datum))
  | list (items : List Datum)
  deriving Inhabited

structure Record where
  typeName : String
  fields : List (String × Datum)
  deriving Inhabited

namespace Record

def get? (r : Record) (name : String) : Option Datum := Fields.find? name r.fields

def getAnyCase? (r : Record) (name : String) : Option Datum := Fields.findAnyCase? name r.fields

def set (r : Record) (name : String) (value : Datum) : Record :=
  ⟨r.typeName, Fields.put name value r.fields⟩

end Record

namespace Datum

def ofRecord (r : Record) : Datum := record r.typeName r.fields

def leastInt : Int := -9223372036854775808

def greatestInt : Int := 9223372036854775807

/-- The stored integer nearest to `i`. -/
def clamp (i : Int) : Int := max leastInt (min i greatestInt)

def isNull : Datum → Bool
  | null => true
  | _ => false

def kind : Datum → String
  | null => "null"
  | bool _ => "boolean"
  | int _ => "integer"
  | float _ => "float"
  | text _ => "text"
  | variant _ => "enum"
  | record .. => "object"
  | list _ => "list"

mutual

/-- Equality of content. Numbers of one kind compare as numbers, and the order of a record's
fields does not matter. -/
def same : Datum → Datum → Bool
  | null, null => true
  | bool a, bool b => a == b
  | int a, int b => a == b
  | float a, float b => a == b
  | text a, text b => a == b
  | variant a, variant b => a == b
  | record s as, record t bs => s == t && as.length == bs.length && sameFields as bs
  | list as, list bs => sameItems as bs
  | _, _ => false

def sameFields : List (String × Datum) → List (String × Datum) → Bool
  | [], _ => true
  | (name, a) :: rest, bs =>
    (match Fields.find? name bs with
      | some b => same a b
      | none => false) && sameFields rest bs

def sameItems : List Datum → List Datum → Bool
  | [], [] => true
  | a :: as, b :: bs => same a b && sameItems as bs
  | _, _ => false

end

/-- The number that a datum counts as when identities are compared. -/
def toFloat? : Datum → Option Float
  | int i => some (Float.ofInt i)
  | float x => some x
  | text s => Number.ofText? (Text.trim s)
  | _ => none

def storedInt? (i : Int) : Option Int :=
  if leastInt ≤ i ∧ i ≤ greatestInt then some i else none

/-- The integer that a datum counts as when slots and keys are looked up. -/
def toInt? : Datum → Option Int
  | int i => some i
  | float x =>
    if Number.isIntegral x then (Number.roundInt? .towardZero x).map clamp else none
  | text s => (Number.readInt? (Text.trim s).toList).bind storedInt?
  | _ => none

/-- Equality of identities: two texts are compared exactly, all else as numbers where both are
numbers. -/
def sameIdentity : Datum → Datum → Bool
  | text a, text b => a == b
  | a, b =>
    match a.toFloat?, b.toFloat? with
    | some x, some y => x == y
    | _, _ => same a b

def toText : Datum → String
  | null => "null"
  | bool b => toString b
  | int i => toString i
  | float x => Number.toText x
  | text s => s
  | variant s => s
  | record typeName _ => typeName
  | list items => "[" ++ toString items.length ++ " items]"

end Datum

end Emend
