import Emend.Edit
import Emend.Fields
import Emend.Patch.Entries

/-!
Templates: entries kept under a name, which later additions start from.
-/

set_option autoImplicit false

namespace Emend.Patch

def nameKey : String := "$name"

def templateKey : String := "$template"

abbrev Templates := List (String × Entries)

def defineTemplate (i : Instruction) : Edit PatchError Templates Unit := do
  let entries ← i.entries
  match entries.find? nameKey with
  | none => throw (.structural ("template requires a " ++ nameKey) i.position)
  | some node =>
    let name ← scalarText nameKey i.position node
    modify (Fields.put (Text.trim name) (entries.without nameKey))

/-- The entries of the template that is named, and after them the other ones. -/
def expandTemplate (templates : Templates) (entries : Entries) (position : Position) :
    Except PatchError Entries :=
  match entries.find? templateKey with
  | none => .ok entries
  | some node => do
    let name := Text.trim (← scalarText templateKey position node)
    match Fields.find? name templates with
    | some template => .ok (template ++ entries.without templateKey)
    | none => .error (.structural ("unknown template " ++ quoted name) position)

end Emend.Patch
