import Emend.Datum
import Emend.Edit

/-!
Collections of records. An ordered collection is a list. An indexed one keeps each record in a
slot: removal leaves the slot empty, and an index leads from identities to slots until the slots
are compacted and the index is built anew.
-/

set_option autoImplicit false

namespace Emend

/-- What identities are indexed by. -/
inductive IdentityKey where
  | int (value : Int)
  | text (value : String)
  deriving Repr, DecidableEq

/-- Identities that count as integers have an integer key; null, truth values, records and lists
have none. -/
def IdentityKey.ofDatum? : Datum → Option IdentityKey
  | .null | .bool _ | .record .. | .list _ => none
  | d => match d.toInt? with
    | some i => some (int i)
    | none => some (text d.toText)

abbrev IdentityIndex := List (IdentityKey × Nat)

namespace IdentityIndex

def get? (index : IdentityIndex) (key : IdentityKey) : Option Nat := List.lookup key index

def erase (index : IdentityIndex) (key : IdentityKey) : IdentityIndex :=
  index.filter (·.1 != key)

def insert (index : IdentityIndex) (key : IdentityKey) (slot : Nat) : IdentityIndex :=
  (key, slot) :: index.erase key

end IdentityIndex

inductive CollectionError where
  | duplicate (identity : String)
  | inconsistent (duplicates missing : Nat)
  deriving Repr, DecidableEq

def CollectionError.message : CollectionError → String
  | duplicate identity => "A record with identity " ++ identity ++ " already exists"
  | inconsistent duplicates missing =>
    "Index rebuild found " ++ toString duplicates ++ " duplicate and " ++ toString missing ++
      " missing identities"

inductive Slots where
  | ordered (records : List Record)
  | indexed (slots : List (Option Record)) (index : IdentityIndex)

structure Collection where
  /-- The field that holds the identity of a record. -/
  identity : Option String
  slots : Slots

namespace Collection

def ofList (identity : Option String) (records : List Record) : Collection :=
  ⟨identity, .ordered records⟩

def isIndexed (c : Collection) : Bool :=
  match c.slots with
  | .indexed .. => true
  | .ordered _ => false

/-- The content of every slot; an ordered collection has no empty one. -/
def cells (c : Collection) : List (Option Record) :=
  match c.slots with
  | .ordered records => records.map some
  | .indexed slots _ => slots

def slotCount (c : Collection) : Nat := c.cells.length

/-- Records at the slots from `slot` on. -/
def liveFrom : (slot : Nat) → List (Option Record) → List (Nat × Record)
  | _, [] => []
  | slot, none :: rest => liveFrom (slot + 1) rest
  | slot, some r :: rest => (slot, r) :: liveFrom (slot + 1) rest

def live (c : Collection) : List (Nat × Record) := liveFrom 0 c.cells

def records (c : Collection) : List Record := c.cells.filterMap id

def size (c : Collection) : Nat := c.records.length

def get? (c : Collection) (slot : Nat) : Option Record := (c.cells[slot]?).join

def identityOf? (c : Collection) (r : Record) : Option Datum := c.identity.bind r.getAnyCase?

def hasIdentity (c : Collection) (identity : Datum) (r : Record) : Bool :=
  (c.identityOf? r).any (·.sameIdentity identity)

def scan (c : Collection) (identity : Datum) : Option Nat :=
  (c.live.find? fun entry => c.hasIdentity identity entry.2).map (·.1)

/-- The slot of the same number as the identity, if the record there has it. -/
def direct? (c : Collection) (identity : Datum) : Option Nat :=
  match identity.toInt? with
  | some (.ofNat slot) => if (c.get? slot).any (c.hasIdentity identity) then some slot else none
  | _ => none

/-- The slot of a record with the identity. An indexed collection first looks into the slot of
the same number. -/
def find? (c : Collection) (identity : Datum) : Option Nat :=
  if c.isIndexed then (c.direct? identity).or (c.scan identity) else c.scan identity

def getIndex? (c : Collection) (identity : Datum) : Option Nat :=
  match c.slots with
  | .ordered _ => c.find? identity
  | .indexed _ index => (IdentityKey.ofDatum? identity).bind index.get?

/-- Puts a record into a slot that holds one. The index stays as it is. -/
def replace (c : Collection) (slot : Nat) (r : Record) : Collection :=
  match c.slots with
  | .ordered records => ⟨c.identity, .ordered (records.set slot r)⟩
  | .indexed slots index =>
    if (c.get? slot).isSome then ⟨c.identity, .indexed (slots.set slot (some r)) index⟩ else c

def keyOf? (c : Collection) (r : Record) : Option IdentityKey :=
  (c.identityOf? r).bind IdentityKey.ofDatum?

def push (c : Collection) (r : Record) : Collection :=
  match c.slots with
  | .ordered records => ⟨c.identity, .ordered (records ++ [r])⟩
  | .indexed slots index =>
    let index := match c.keyOf? r with
      | some key => index.insert key slots.length
      | none => index
    ⟨c.identity, .indexed (slots ++ [some r]) index⟩

/-- Adds a record in place and gives its slot. An indexed collection refuses an identity that it
holds. -/
def insertion (r : Record) : Edit CollectionError Collection Nat := do
  let c ← get
  let held := (c.identityOf? r).filter fun identity => c.isIndexed && (c.find? identity).isSome
  match held with
  | some identity => throw (.duplicate identity.toText)
  | none =>
    modify (·.push r)
    return c.slotCount

/-- The slot that a new record gets, and the collection with it. -/
def insert (c : Collection) (r : Record) : Except CollectionError (Nat × Collection) :=
  (insertion r).outcome c

/-- Takes a record out. Later records of an ordered collection move up; an indexed one keeps an
empty slot, and its index drops the key if it led there. -/
def remove (c : Collection) (slot : Nat) : Collection :=
  match c.slots, c.get? slot with
  | _, none => c
  | .ordered records, some _ => ⟨c.identity, .ordered (records.eraseIdx slot)⟩
  | .indexed slots index, some r =>
    let index := match c.keyOf? r with
      | some key => if index.get? key = some slot then index.erase key else index
      | none => index
    ⟨c.identity, .indexed (slots.set slot none) index⟩

/-- One more than the greatest identity that counts as an integer, or zero. -/
def nextFreeId (c : Collection) : Int :=
  match (c.records.filterMap fun r => (c.identityOf? r).bind Datum.toInt?).max? with
  | some greatest => greatest + 1
  | none => 0

end Collection

end Emend
