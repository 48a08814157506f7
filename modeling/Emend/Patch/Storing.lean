import Emend.Patch.Context

/-!
What fields hold after literals and formulas: the value of a formula stored by the type of its
field, and text that is a literal or else a formula.
-/

set_option autoImplicit false

namespace Emend.Patch

/-- The variant that a text names, in any case and between blanks. -/
def variant? (variants : List String) (text : String) : Option Datum :=
  (variants.find? (Text.sameName · (Text.trim text))).map .variant

/-- The value of a formula as a field of the type stores it. -/
def store (name : String) (position : Position) :
    Descriptor → Value → Except PatchError Datum
  | .scalar kind, v =>
    match kind.store v with
    | .ok d => .ok d
    | .error e => .error (.mismatch name kind.name e.message position)
  | .enumeration typeName variants, v =>
    match variant? variants v.toText with
    | some d => .ok d
    | none => .error (.mismatch name typeName (quoted v.toText) position)
  | .record typeName _ _ byValue, v =>
    match v with
    | .null =>
      if byValue then .error (.mismatch name typeName v.typeName position) else .ok .null
    | .record r =>
      if r.typeName = typeName then .ok (.ofRecord r)
      else .error (.mismatch name typeName v.typeName position)
    | v => .error (.mismatch name typeName v.typeName position)
  | .list element fixed, v =>
    match v with
    | .null => .ok .null
    | .tuple items => (items.mapM (store name position element)).map .list
    | v => .error (.mismatch name (Descriptor.list element fixed).name v.typeName position)

/-- Where a value stands that is being patched. -/
inductive Place where
  /-- In a field of this record. -/
  | field (owner : Record)
  /-- In a list. -/
  | element

/-- The names of a formula written where a literal may stand. An element is its own item. -/
def Place.bindings (place : Place) (current : Datum) : Bindings :=
  match place with
  | .field owner => .ofRecord owner (.ofDatum current)
  | .element => [("item", .ofDatum current), ("value", .ofDatum current)]

section
variable (c : Context) (place : Place) (name : String) (current : Datum)

/-- Text for a scalar field: a literal, or a formula. Text fields take everything as it is. -/
def scalarOfText (kind : ScalarKind) (text : String) (position : Position) :
    Except PatchError Datum :=
  match kind with
  | .text => .ok (.text text)
  | .char | .decimal | .dateTime =>
    .error (.mismatch name "a patchable field" kind.name position)
  | .bool | .integer .. | .single | .double =>
    match kind.read text with
    | .ok d => .ok d
    | .error _ =>
      match c.evaluate (place.bindings current) text position with
      | .error e => .error (e.replacedBy (.mismatch name kind.name (quoted text) position))
      | .ok v =>
        match kind.store v with
        | .ok d => .ok d
        | .error e => .error (.mismatch name kind.name e.message position)

/-- Text for a field of an enumeration: the name of a variant, or a formula for it. -/
def variantOfText (typeName : String) (variants : List String) (text : String)
    (position : Position) : Except PatchError Datum :=
  let mismatch := PatchError.mismatch name typeName (quoted text) position
  match variant? variants text with
  | some d => .ok d
  | none =>
    match c.evaluate (place.bindings current) text position with
    | .error e => .error (e.replacedBy mismatch)
    | .ok v =>
      match variant? variants v.toText with
      | some d => .ok d
      | none => .error mismatch

end

end Emend.Patch
