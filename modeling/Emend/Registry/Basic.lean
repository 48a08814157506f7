import Emend.Collection.Rebuild
import Emend.Descriptor
import Emend.Json.Basic

/-!
The types known to a patch run, each with its descriptor and its records.
-/

set_option autoImplicit false

namespace Emend

/-- What is kept of a type: a collection of records, or one record. -/
inductive Stored where
  | collection (c : Collection)
  | single (r : Record)

structure Registration where
  descriptor : Descriptor
  stored : Stored

/-- Types by name, in the order in which they were registered. -/
structure Registry where
  types : List (String × Registration)

namespace Registry

def empty : Registry := ⟨[]⟩

def register (r : Registry) (descriptor : Descriptor) (stored : Stored) : Registry :=
  ⟨Fields.put descriptor.name ⟨descriptor, stored⟩ r.types⟩

def registerOrdered (r : Registry) (descriptor : Descriptor) (records : List Record) : Registry :=
  r.register descriptor (.collection (.ofList descriptor.identity records))

/-- Registers the records even if their identities collide. -/
def registerIndexed (r : Registry) (descriptor : Descriptor) (records : List Record) :
    Except CollectionError Unit × Registry :=
  let (result, c) := Collection.ofListIndexed descriptor.identity records
  (result, r.register descriptor (.collection c))

def registerSingle (r : Registry) (descriptor : Descriptor) (record : Record) : Registry :=
  r.register descriptor (.single record)

/-- The registered name that the given one stands for, in any case. -/
def nameOf? (r : Registry) (name : String) : Option String :=
  if (Fields.find? name r.types).isSome then some name
  else (r.types.find? fun entry => Text.sameName entry.1 name).map (·.1)

def find? (r : Registry) (name : String) : Option (String × Registration) := do
  let name ← r.nameOf? name
  let registration ← Fields.find? name r.types
  some (name, registration)

def update (r : Registry) (name : String) (stored : Stored) : Registry :=
  match Fields.find? name r.types with
  | some registration => ⟨Fields.put name ⟨registration.descriptor, stored⟩ r.types⟩
  | none => r

end Registry

def Stored.toJson : Stored → Json
  | collection c => .list (c.records.map Json.ofRecord)
  | single r => Json.ofRecord r

/-- Collections become lists, single records objects. -/
def Registry.toJson (r : Registry) : Json :=
  .object (r.types.map fun (name, registration) => (name, registration.stored.toJson))

end Emend
