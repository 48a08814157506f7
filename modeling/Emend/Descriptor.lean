import Emend.Datum

/-!
Declared types of fields, and the records they start from.
-/

set_option autoImplicit false

namespace Emend

inductive ScalarKind where
  | bool
  | integer (bits : Nat) (signed : Bool)
  | single
  | double
  | text
  | char
  | decimal
  | dateTime
  deriving Repr, DecidableEq

namespace ScalarKind

def name : ScalarKind → String
  | bool => "bool"
  | integer 8 false => "byte"
  | integer 8 true => "sbyte"
  | integer 16 true => "short"
  | integer 16 false => "ushort"
  | integer 32 false => "uint"
  | integer 64 false => "ulong"
  | integer 64 true => "long"
  | integer _ _ => "int"
  | single => "float"
  | double => "double"
  | text => "string"
  | char => "char"
  | decimal => "decimal"
  | dateTime => "DateTime"

def isNumeric : ScalarKind → Bool
  | bool | integer .. | single | double => true
  | _ => false

def initial : ScalarKind → Datum
  | bool => .bool false
  | integer .. => .int 0
  | single | double => .float 0
  | text | char | decimal | dateTime => .null

end ScalarKind

inductive Descriptor where
  | scalar (kind : ScalarKind)
  | enumeration (name : String) (variants : List String)
  /-- Fields have different names. A record by value is never null. -/
  | record (name : String) (fields : List (String × Descriptor)) (identity : Option String)
      (byValue : Bool)
  /-- A fixed array differs from a list in how it grows. -/
  | list (element : Descriptor) (fixed : Bool)
  deriving Inhabited

namespace Descriptor

def name : Descriptor → String
  | scalar kind => kind.name
  | enumeration name _ => name
  | record name .. => name
  | list element fixed => if fixed then element.name ++ "[]" else "List<" ++ element.name ++ ">"

def identity : Descriptor → Option String
  | record _ _ identity _ => identity
  | _ => none

def isByValue : Descriptor → Bool
  | record _ _ _ byValue => byValue
  | _ => false

def isList : Descriptor → Bool
  | list .. => true
  | _ => false

def fields : Descriptor → List (String × Descriptor)
  | record _ fields _ _ => fields
  | _ => []

/-- The declared name and type of a field, found in any case. -/
def field? (d : Descriptor) (name : String) : Option (String × Descriptor) :=
  match Fields.find? name d.fields with
  | some type => some (name, type)
  | none => d.fields.find? fun field => Text.sameName field.1 name

/-- A record type. Unless an identity field is given, it is the first field whose name ends in
`Id`. -/
def ofFields (name : String) (fields : List (String × Descriptor)) (identity : Option String)
    (byValue : Bool) : Descriptor :=
  let fields := Fields.ofList fields
  record name fields (identity.or ((fields.map (·.1)).find? (·.endsWith "Id"))) byValue

mutual

/-- What a field of this type holds in a new record: lists and records by reference are null. -/
def initial : Descriptor → Datum
  | scalar kind => kind.initial
  | enumeration _ (first :: _) => .variant first
  | enumeration _ [] => .null
  | record name fields _ true => .record name (initialFields fields)
  | record _ _ _ false | list .. => .null

def initialFields : List (String × Descriptor) → List (String × Datum)
  | [] => []
  | (name, type) :: rest => (name, initial type) :: initialFields rest

end

theorem initialFields_eq_map (fields : List (String × Descriptor)) :
    initialFields fields = fields.map fun field => (field.1, field.2.initial) := by
  induction fields with
  | nil => rfl
  | cons field rest ih => rw [initialFields, ih, List.map_cons]

/-- Like `initial`, with lists empty and records constructed. -/
def filled : Descriptor → Datum
  | list .. => .list []
  | record name fields _ _ => .record name (initialFields fields)
  | d => d.initial

def newRecord (d : Descriptor) : Record := ⟨d.name, initialFields d.fields⟩

def newFilledRecord (d : Descriptor) : Record :=
  ⟨d.name, d.fields.map fun (name, type) => (name, type.filled)⟩

end Descriptor

end Emend
