import Emend.Patch.Instruction

/-!
What instructions read from their payload.
-/

set_option autoImplicit false

namespace Emend.Patch

abbrev Entries := List (String × Node)

namespace Entries

def find? (key : String) (entries : Entries) : Option Node :=
  (List.find? (fun entry => Text.sameName entry.1 key) entries).map (·.2)

def without (key : String) (entries : Entries) : Entries :=
  entries.filter fun entry => !Text.sameName entry.1 key

end Entries

def Instruction.entries (i : Instruction) : Except PatchError Entries :=
  match i.payload with
  | .mapping entries _ => .ok entries
  | node =>
    .error (.structural (i.verb.name ++ " expects a mapping, found a " ++ node.describe)
      i.position)

/-- The text of a node that has to be a scalar. -/
def scalarText (what : String) (position : Position) : Node → Except PatchError String
  | .scalar text _ => .ok text
  | node =>
    .error (.structural (what ++ " must be a scalar, found a " ++ node.describe)
      (node.position.or position))

end Emend.Patch
