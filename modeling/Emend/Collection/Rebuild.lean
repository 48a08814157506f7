import Emend.Collection.Basic
import Emend.Comparison

/-!
Rebuilding an indexed collection: its records move together, in the order of their identities,
and the index is made anew.
-/

set_option autoImplicit false

namespace Emend

/-- The order of two identities. Identities that are numbers come first, in their order; all others
are equal, and so are two numbers without an order. -/
def compareIdentities (a b : Option Datum) : Ordering :=
  match a.bind Datum.toFloat?, b.bind Datum.toFloat? with
  | some x, some y => (Value.compareNumbers x y).getD .eq
  | some _, none => .lt
  | none, some _ => .gt
  | none, none => .eq

def identityBefore (a b : Option Datum) : Bool := compareIdentities a b == .lt

namespace Collection

/-- Puts a record into a list that is sorted from the last to the first, before all that do not
come after it. -/
def insertBackwards (before : Record → Record → Bool) (r : Record) : List Record → List Record
  | [] => [r]
  | last :: rest =>
    if before r last then last :: insertBackwards before r rest else r :: last :: rest

/-- Sorts records; those of equal rank keep their order. -/
def sortRecords (before : Record → Record → Bool) (records : List Record) : List Record :=
  (records.foldl (fun sorted r => insertBackwards before r sorted) []).reverse

/-- What an index is built from: the index so far, and how many records had a key taken already
or none at all. -/
structure Indexing where
  index : IdentityIndex
  duplicates : Nat
  missing : Nat

/-- Indexes the records at the slots from `slot` on. Of several with one key the first wins. -/
def indexFrom (c : Collection) : (slot : Nat) → Indexing → List Record → Indexing
  | _, done, [] => done
  | slot, done, r :: rest =>
    let next : Indexing := match c.keyOf? r with
      | none => ⟨done.index, done.duplicates, done.missing + 1⟩
      | some key =>
        if (done.index.get? key).isSome then ⟨done.index, done.duplicates + 1, done.missing⟩
        else ⟨done.index.insert key slot, done.duplicates, done.missing⟩
    indexFrom c (slot + 1) next rest

def sorted (c : Collection) : List Record :=
  sortRecords (fun a b => identityBefore (c.identityOf? a) (c.identityOf? b)) c.records

/-- Compacts the slots, sorts them and builds the index. All records stay even if not all could
be indexed. An ordered collection stays as it is. -/
def rebuild (c : Collection) : Except CollectionError Unit × Collection :=
  match c.slots with
  | .ordered _ => (.ok (), c)
  | .indexed .. =>
    let records := c.sorted
    let done := c.indexFrom 0 ⟨[], 0, 0⟩ records
    let result := if done.duplicates = 0 ∧ done.missing = 0 then .ok ()
      else .error (.inconsistent done.duplicates done.missing)
    (result, ⟨c.identity, .indexed (records.map some) done.index⟩)

def ofListIndexed (identity : Option String) (records : List Record) :
    Except CollectionError Unit × Collection :=
  rebuild ⟨identity, .indexed (records.map some) []⟩

end Collection

end Emend
