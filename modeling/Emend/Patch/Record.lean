import Emend.Patch.Items

/-!
Records patched by documents. Each entry of a mapping sets one field, as the type of the field
says: by a literal, by a formula, or by the entries of a further mapping.
-/

set_option autoImplicit false

namespace Emend.Patch

/-- The field that a key names, and whether its value is a formula. -/
def fieldKey (key : String) : String × Bool :=
  if key.startsWith "$" then ((key.drop 1).toString, true) else (key, false)

def formulaField (c : Context) (record : Record) (name : String) (type : Descriptor)
    (current : Datum) : Node → Except PatchError Datum
  | .scalar text position => do
    store name position type (← c.evaluate (.ofRecord record (.ofDatum current)) text position)
  | node => .error (.mismatch name "formula text" node.describe node.position)

/-- Sets the field that an entry names, by its formula or as `patch` says. -/
def patchField (c : Context) (type : Descriptor) (record : Record) (key : String) (node : Node)
    (patch : String → Descriptor → Datum → Except PatchError Datum) : Except PatchError Record :=
  let (name, isFormula) := fieldKey key
  match type.field? name with
  | none => .error (.mismatch name ("a field of " ++ type.name) "unknown field" node.position)
  | some (name, fieldType) => do
    let current := (record.get? name).getD .null
    let next ← if isFormula then formulaField c record name fieldType current node
      else patch name fieldType current
    .ok (record.set name next)

/-- Whether a scalar deletes what it would patch: a record or an element of a list. -/
def deletes (c : Context) (place : Place) (type : Descriptor) (text : String) : Bool :=
  c.isDelete text && match place, type with
    | .element, _ | _, .record .. => true
    | _, _ => false

/-- The record that a mapping patches. -/
def recordToPatch (type : Descriptor) : Datum → Record
  | .record typeName fields => ⟨typeName, fields⟩
  | _ => type.newFilledRecord

def itemsToPatch : Datum → List Datum
  | .list items => items
  | _ => []

def wholeRecord : Except PatchError Unit × Record → Except PatchError Datum
  | (.ok (), r) => .ok (.ofRecord r)
  | (.error e, _) => .error e

section
variable (c : Context)

mutual

/-- The datum of a field or an element after it was patched by a node. An element that is a record
may be wrapped in a mapping with the name of its type. -/
def patchDatum (place : Place) (name : String) (type : Descriptor) (current : Datum) :
    Node → Except PatchError Datum
  | .scalar text position =>
    if deletes c place type text then .ok type.initial
    else match type with
      | .scalar kind => scalarOfText c place name current kind text position
      | .enumeration typeName variants =>
        variantOfText c place name current typeName variants text position
      | type => .error (.mismatch name type.name (quoted text) position)
  | .sequence nodes position =>
    match type with
    | .list element _ => (patchItems name element (itemsToPatch current) nodes).map .list
    | type => .error (.mismatch name type.name "sequence" position)
  | .mapping entries position =>
    match type with
    | .list element fixed =>
      (patchKeys name element fixed (itemsToPatch current) entries).map .list
    | .record typeName fields identity byValue =>
      let type := Descriptor.record typeName fields identity byValue
      let record := recordToPatch type current
      let patched (_ : Unit) := wholeRecord (patchFields type record entries)
      match place, entries with
      | .element, [(key, .mapping inner _)] =>
        if Text.sameName key typeName then wholeRecord (patchFields type record inner)
        else patched ()
      | _, _ => patched ()
    | type => .error (.mismatch name type.name "mapping" position)

/-- Patches the elements of a list in their order; nodes left over make new elements. -/
def patchItems (name : String) (element : Descriptor) (items : List Datum) :
    List Node → Except PatchError (List Datum)
  | [] => .ok items
  | node :: rest => do
    let first ← patchDatum .element name element (items.headD (freshElement element)) node
    let others ← patchItems name element items.tail rest
    .ok (first :: others)

def patchKeys (name : String) (element : Descriptor) (fixed : Bool) (items : List Datum) :
    List (String × Node) → Except PatchError (List Datum)
  | [] => .ok items
  | (key, node) :: rest => do
    let patch current := patchDatum .element name element current node
    let added (_ : Unit) := match node with
      | .sequence nodes _ => patchItems name element [] nodes
      | node => (patchDatum .element name element (freshElement element) node).map ([·])
    let items ← patchItem c element fixed name patch added items key node.position
    patchKeys name element fixed items rest

/-- Sets fields entry by entry. The fields set before a failure stay set. -/
def patchFields (type : Descriptor) (record : Record) :
    List (String × Node) → Except PatchError Unit × Record
  | [] => (.ok (), record)
  | (key, node) :: rest =>
    let patched := patchField c type record key node fun name fieldType current =>
      patchDatum (.field record) name fieldType current node
    match patched with
    | .ok record => patchFields type record rest
    | .error e => (.error e, record)

end

def patchRecord (type : Descriptor) (record : Record) (entries : List (String × Node)) :
    Except PatchError Record :=
  match patchFields c type record entries with
  | (.ok (), record) => .ok record
  | (.error e, _) => .error e

end

end Emend.Patch
