import Emend.Patch.Entries
import Emend.Patch.Record

/-!
Shared variables set and removed by an instruction, all together or not at all.
-/

set_option autoImplicit false

namespace Emend.Patch

/-- Writes that wait for the end of an instruction, in their order. -/
inductive Write where
  | set (name : String) (value : Value)
  | erase (name : String)

namespace Write

def name : Write → String
  | set name _ | erase name => name

def value? : Write → Option Value
  | set _ value => some value
  | erase _ => none

def apply (s : Store) : Write → Store
  | set name value => s.insert name value
  | erase name => s.erase name

end Write

/-- The value of a variable after the waiting writes. -/
def waiting? (s : Store) (writes : List Write) (name : String) : Option Value :=
  match writes.reverse.find? (·.name == name) with
  | some write => write.value?
  | none => s.get? name

/-- Every value that waits to be set is bound, and so is the present value of the variable. -/
def stateBindings (s : Store) (writes : List Write) (name : String) : Bindings :=
  let bound := writes.foldl (fun bindings write => match write.value? with
    | some value => Fields.put write.name value bindings
    | none => bindings) []
  Fields.put "value" ((waiting? s writes name).getD .null) bound

/-- The write of one entry. Text that is no formula is kept as it is, unless the key says that it
must be one. -/
def stateWrite (c : Context) (writes : List Write) (key : String) (node : Node)
    (position : Position) : Except PatchError Write := do
  let position := node.position.or position
  let (name, isFormula) := fieldKey key
  let text ← scalarText name position node
  if c.isDelete text then
    match waiting? c.store writes name with
    | some _ => .ok (.erase name)
    | none => .error (.identityConflict ("shared variable " ++ quoted name ++ " is not set") position)
  else
    match c.evaluate (stateBindings c.store writes name) text position with
    | .ok value => .ok (.set name value)
    | .error e =>
      if isFormula || e.interruption?.isSome then .error e else .ok (.set name (.text text))

/-- The writes of all entries; none is carried out before all are known. -/
def stateWrites (c : Context) (position : Position) (writes : List Write) :
    Entries → Except PatchError (List Write)
  | [] => .ok writes
  | (key, node) :: rest => do
    let write ← stateWrite c writes key node position
    stateWrites c position (writes ++ [write]) rest

def setState (c : Context) (i : Instruction) : Except PatchError Store := do
  let writes ← stateWrites c i.position [] (← i.entries)
  .ok (writes.foldl Write.apply c.store)

end Emend.Patch
