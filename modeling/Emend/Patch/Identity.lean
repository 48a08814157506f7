import Emend.Collection.Rebuild
import Emend.Patch.Entries
import Emend.Patch.Record

/-!
Identities in instructions: how the entries of an instruction name the record that it means, and
the identity of a record to be added.
-/

set_option autoImplicit false

namespace Emend.Patch

inductive IdentityForm where
  | literal
  /-- By a formula, or for an addition by the name of a shared variable. -/
  | indirect
  deriving Repr, DecidableEq

/-- The key of an identity is the name of its field, in any case and perhaps after `$`. -/
def identityForm? (field key : String) : Option IdentityForm :=
  if Text.sameName key field then some .literal
  else if key.startsWith "$" && Text.sameName (key.drop 1).toString field then some .indirect
  else none

def Entries.withoutIdentity (field : String) (entries : Entries) : Entries :=
  entries.filter fun entry => (identityForm? field entry.1).isNone

section
variable (type : Descriptor) (field : String)

def literalIdentity (text : String) (position : Position) : Except PatchError Datum :=
  match type.field? field with
  | some (_, .scalar kind) =>
    match kind.read (Text.trim text) with
    | .ok d => .ok d
    | .error e => .error (.mismatch field kind.name e.message position)
  | _ => .ok (.text (Text.trim text))

def identityOfValue (v : Value) (position : Position) : Except PatchError Datum :=
  match type.field? field with
  | some (_, fieldType) => store field position fieldType v
  | none => .ok (.text v.toText)

/-- The identity that the first identity entry names. -/
def targetIdentity (c : Context) (entries : Entries) (position : Position) :
    Except PatchError Datum :=
  match List.find? (fun entry => (identityForm? field entry.1).isSome) entries with
  | none => .error (.structural ("missing identity field " ++ quoted field) position)
  | some (key, node) => do
    let position := node.position.or position
    let text ← scalarText field position node
    if key.startsWith "$" then identityOfValue type field (← c.evaluate [] text position) position
    else literalIdentity type field text position

def slotOf (records : Collection) (identity : Datum) (position : Position) :
    Except PatchError Nat :=
  match records.find? identity with
  | some slot => .ok slot
  | none =>
    .error (.identityConflict ("no " ++ type.name ++ " with identity " ++ identity.toText) position)

def locate (records : Collection) (identity : Datum) (position : Position) :
    Except PatchError (Nat × Record) := do
  let slot ← slotOf type records identity position
  match records.get? slot with
  | some r => .ok (slot, r)
  | none => .error (.contract ("slot " ++ toString slot ++ " vanished"))

/-- The identity that an entry gives to a new record. An indirect one is the value of a shared
variable, which gets the next free identity if it is not set. -/
def newIdentity (records : Collection) (s : Store) (form : IdentityForm) (text : String)
    (position : Position) : Except PatchError Datum × Store :=
  match form with
  | .literal => (literalIdentity type field text position, s)
  | .indirect =>
    let (v, s) := s.getOrInsert (Text.trim text) (.number (Float.ofInt records.nextFreeId))
    (identityOfValue type field v position, s)

/-- The identity that the entries give to a new record; the last one counts. -/
def newIdentities (records : Collection) (position : Position) (found : Option Datum) (s : Store) :
    Entries → Except PatchError (Option Datum) × Store
  | [] => (.ok found, s)
  | (key, node) :: rest =>
    match identityForm? field key with
    | none => newIdentities records position found s rest
    | some form =>
      let place := node.position.or position
      match scalarText key place node with
      | .error e => (.error e, s)
      | .ok text =>
        match newIdentity type field records s form text place with
        | (.error e, s) => (.error e, s)
        | (.ok identity, s) => newIdentities records position (some identity) s rest

end

end Emend.Patch
