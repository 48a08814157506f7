import Emend.Value

/-!
Shared variables: values by name, in the order of the names.
-/

set_option autoImplicit false

namespace Emend

/-- Variables with different names, sorted by name. -/
structure Store where
  entries : List (String × Value)
  deriving Inhabited

namespace Store

def empty : Store := ⟨[]⟩

def get? (s : Store) (name : String) : Option Value := s.entries.lookup name

def contains (s : Store) (name : String) : Bool := (s.get? name).isSome

def size (s : Store) : Nat := s.entries.length

/-- Puts an entry at its place in a sorted list, for one of its name if there is one. -/
def putSorted (name : String) (value : Value) :
    List (String × Value) → List (String × Value)
  | [] => [(name, value)]
  | (key, old) :: rest =>
    if key = name then (name, value) :: rest
    else if name < key then (name, value) :: (key, old) :: rest
    else (key, old) :: putSorted name value rest

def insert (s : Store) (name : String) (value : Value) : Store :=
  ⟨putSorted name value s.entries⟩

def erase (s : Store) (name : String) : Store := ⟨Fields.erase name s.entries⟩

/-- The value of the variable, which is set to `value` unless it is there. -/
def getOrInsert (s : Store) (name : String) (value : Value) : Value × Store :=
  match s.get? name with
  | some present => (present, s)
  | none => (value, s.insert name value)

/-- Sets the variable to `value`, or from the value it has. -/
def insertOrUpdate (s : Store) (name : String) (value : Value) (update : Value → Value) :
    Value × Store :=
  let value := match s.get? name with
    | some present => update present
    | none => value
  (value, s.insert name value)

def ofList (given : List (String × Value)) : Store :=
  given.foldl (fun s entry => s.insert entry.1 entry.2) empty

end Store

end Emend
