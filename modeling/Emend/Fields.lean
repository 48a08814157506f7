import Emend.Text.Split

/-!
Entries by name, in the order in which the names first came.
-/

set_option autoImplicit false

namespace Emend.Fields
variable {α : Type}

def find? (name : String) : List (String × α) → Option α := List.lookup name

/-- The entry with exactly this name, or else the first whose name differs only in case. -/
def findAnyCase? (name : String) (entries : List (String × α)) : Option α :=
  (find? name entries).or ((entries.find? fun entry => Text.sameName entry.1 name).map (·.2))

/-- Replaces the entry of that name in its place, or adds one at the end. -/
def put (name : String) (value : α) : List (String × α) → List (String × α)
  | [] => [(name, value)]
  | (key, old) :: rest =>
    if key = name then (key, value) :: rest else (key, old) :: put name value rest

def erase (name : String) : List (String × α) → List (String × α)
  | [] => []
  | (key, value) :: rest => if key = name then rest else (key, value) :: erase name rest

/-- The last value given for each name, at the place of its first. -/
def ofList (entries : List (String × α)) : List (String × α) :=
  entries.foldl (fun fields entry => put entry.1 entry.2 fields) []

end Emend.Fields
