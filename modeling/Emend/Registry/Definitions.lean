import Emend.Registry.Basic

/-!
Definitions read from JSON. The types of fields are inferred from the values found in them.
-/

set_option autoImplicit false

namespace Emend

inductive LoadError where
  | notAnObject
  | invalidType (name : String)
  | collection (name : String) (error : CollectionError)
  deriving Repr, DecidableEq

def LoadError.message : LoadError → String
  | notAnObject => "definitions must be a JSON object keyed by type name"
  | invalidType name => "type '" ++ name ++ "' must be an array of records or a single record"
  | collection name error => "type '" ++ name ++ "': " ++ error.message

namespace Json

mutual

def height : Json → Nat
  | list items => heightItems items + 1
  | object entries => heightEntries entries + 1
  | _ => 0

def heightItems : List Json → Nat
  | [] => 0
  | item :: rest => max (height item) (heightItems rest)

def heightEntries : List (String × Json) → Nat
  | [] => 0
  | (_, value) :: rest => max (height value) (heightEntries rest)

end

def isNull : Json → Bool
  | null => true
  | _ => false

def isInt : Json → Bool
  | int _ => true
  | _ => false

def isNumber : Json → Bool
  | int _ | float _ => true
  | _ => false

def items? : Json → Option (List Json)
  | list items => some items
  | _ => none

def entries? : Json → Option (List (String × Json))
  | object entries => some entries
  | _ => none

end Json

namespace Definitions

/-- Collects the values of each field, in the order in which the fields first come. -/
def gather (records : List (List (String × Json))) : List (String × List Json) :=
  records.flatten.foldl (fun fields (key, value) =>
    Fields.put key ((Fields.find? key fields).getD [] ++ [value]) fields) []

/-- The type of a field with the given values, told by the first that is not null. What nests
inside it is named `name` and the names of the fields on the way. -/
def infer : (fuel : Nat) → (name : String) → List Json → Descriptor
  | 0, _, _ => .scalar .text
  | fuel + 1, name, values =>
    match values.find? (!·.isNull) with
    | none | some .null | some (.text _) => .scalar .text
    | some (.bool _) => .scalar .bool
    | some (.int _) =>
      .scalar (if (values.filter Json.isNumber).all Json.isInt then .integer 64 true else .double)
    | some (.float _) => .scalar .double
    | some (.list _) => .list (infer fuel name (values.filterMap Json.items?).flatten) false
    | some (.object _) =>
      .ofFields name ((gather (values.filterMap Json.entries?)).map fun (key, values) =>
        (key, infer fuel (name ++ key) values)) none false

def inferRecord (name : String) (records : List (List (String × Json))) : Descriptor :=
  let fuel := Json.heightItems (records.map .object) + 1
  .ofFields name ((gather records).map fun (key, values) =>
    (key, infer fuel (name ++ key) values)) none false

mutual

/-- A value as a field of the given type stores it. What does not fit is kept as its text. -/
def store (type : Descriptor) (value : Json) : Datum :=
  match value with
  | .null => .null
  | .text s => match type with
    | .enumeration .. => .variant s
    | _ => .text s
  | .bool b => match type with
    | .scalar .bool => .bool b
    | _ => .text (Json.bool b).write
  | .int i => match type with
    | .scalar (.integer ..) => if i ≤ Datum.greatestInt then .int i else .float (Float.ofInt i)
    | .scalar .single | .scalar .double => .float (Float.ofInt i)
    | _ => .text (Json.int i).write
  | .float x => match type with
    | .scalar (.integer ..) | .scalar .single | .scalar .double => .float x
    | _ => .text (Json.float x).write
  | .list items => match type with
    | .list element _ => .list (storeItems element items)
    | _ => .text (Json.list items).write
  | .object entries => match type with
    | .record .. => .ofRecord (storeFields type type.newRecord entries)
    | _ => .text (Json.object entries).write

def storeItems (element : Descriptor) : List Json → List Datum
  | [] => []
  | item :: rest => store element item :: storeItems element rest

/-- Sets the declared fields among the entries. -/
def storeFields (type : Descriptor) (record : Record) : List (String × Json) → Record
  | [] => record
  | (key, value) :: rest =>
    match type.field? key with
    | some (name, field) => storeFields type (record.set name (store field value)) rest
    | none => storeFields type record rest

end

/-- A record of the given type from its entries. -/
def recordOf (type : Descriptor) (entries : List (String × Json)) : Record :=
  storeFields type type.newRecord entries

/-- Registers one type. A list is a collection, whose items that are no objects are left out. -/
def register (indexed : List String) (r : Registry) (name : String) :
    Json → Except LoadError Registry
  | .list items =>
    let records := items.filterMap Json.entries?
    let type := inferRecord name records
    let records := records.map (recordOf type)
    if indexed.any (Text.sameName · name) then
      match r.registerIndexed type records with
      | (.ok (), r) => .ok r
      | (.error e, _) => .error (.collection name e)
    else .ok (r.registerOrdered type records)
  | .object entries =>
    let type := inferRecord name [entries]
    .ok (r.registerSingle type (recordOf type entries))
  | _ => .error (.invalidType name)

/-- Registers every type of an object of definitions; the types named in `indexed` get an
identity index. -/
def load (definitions : Json) (indexed : List String) : Except LoadError Registry :=
  match definitions with
  | .object types =>
    types.foldlM (fun r (name, body) => register indexed r name body) .empty
  | _ => .error .notAnObject

end Definitions

end Emend
