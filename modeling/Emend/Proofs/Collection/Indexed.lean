import Emend.Proofs.Collection.Distinct
import Mathlib.Data.List.Nodup

/-!
Indexed collections from the empty one on. Whatever records with integers for identities are
inserted, whatever slots are cleared and however often the collection is rebuilt in between, the
index leads from an integer to the slot of the only record with that identity.
-/

set_option autoImplicit false

namespace Emend.Collection

def identityAt? (c : Collection) (slot : Nat) : Option Datum := (c.get? slot).bind c.identityOf?

/-- The identities that records have, in the order of the slots. -/
def givenIdentities (c : Collection) : List Datum := c.records.filterMap c.identityOf?

section
variable {c : Collection}

section
variable {α : Type} {f : Record → Option α}

theorem filterMap_records : c.records.filterMap f = c.cells.filterMap (·.bind f) := by
  unfold records
  rw [List.filterMap_filterMap]
  rfl

theorem bind_get?_eq_some {slot : Nat} {a : α} :
    (c.get? slot).bind f = some a ↔ ∃ cell, c.cells[slot]? = some cell ∧ cell.bind f = some a := by
  unfold get?
  cases c.cells[slot]? with
  | none => simp
  | some cell => simp

theorem mem_filterMap_records {slot : Nat} {a : α} (here : (c.get? slot).bind f = some a) :
    a ∈ c.records.filterMap f := by
  obtain ⟨cell, found, read⟩ := bind_get?_eq_some.mp here
  rw [filterMap_records]
  exact List.mem_filterMap.mpr ⟨cell, List.mem_of_getElem? found, read⟩

theorem slot_unique_of_nodup {s t : Nat} {a : α} (apart : (c.records.filterMap f).Nodup)
    (first : (c.get? s).bind f = some a) (second : (c.get? t).bind f = some a) : s = t := by
  rw [filterMap_records] at apart
  have differ := List.pairwise_iff_getElem.mp (List.pairwise_filterMap.mp apart)
  obtain ⟨a, inFirst, sameFirst⟩ := bind_get?_eq_some.mp first
  obtain ⟨b, inSecond, sameSecond⟩ := bind_get?_eq_some.mp second
  obtain ⟨boundFirst, rfl⟩ := List.getElem?_eq_some_iff.mp inFirst
  obtain ⟨boundSecond, rfl⟩ := List.getElem?_eq_some_iff.mp inSecond
  rcases Nat.lt_trichotomy s t with below | same | above
  · exact absurd rfl (differ s t boundFirst boundSecond below _ sameFirst _ sameSecond)
  · exact same
  · exact absurd rfl (differ t s boundSecond boundFirst above _ sameSecond _ sameFirst)

end

theorem mem_givenIdentities {slot : Nat} {identity : Datum}
    (here : c.identityAt? slot = some identity) : identity ∈ c.givenIdentities :=
  mem_filterMap_records here

theorem slot_unique {s t : Nat} {identity : Datum} (apart : c.givenIdentities.Nodup)
    (first : c.identityAt? s = some identity) (second : c.identityAt? t = some identity) :
    s = t :=
  slot_unique_of_nodup apart first second

end

/-- The identities are integers without repetition, and the index has each of them at the slot of
its record and no others. -/
structure Indexes (c : Collection) : Prop where
  indexed : c.isIndexed
  ints : ∀ identity ∈ c.givenIdentities, ∃ i, identity = .int i
  apart : c.givenIdentities.Nodup
  exact : ∀ i slot, c.getIndex? (.int i) = some slot ↔ c.identityAt? slot = some (.int i)

theorem cells_push (c : Collection) (r : Record) : (c.push r).cells = c.cells ++ [some r] := by
  obtain ⟨identity, slots⟩ := c
  cases slots <;> simp [push, cells]

theorem identityAt?_push (c : Collection) (r : Record) (slot : Nat) :
    (c.push r).identityAt? slot =
      if slot = c.slotCount then c.identityOf? r else c.identityAt? slot := by
  unfold identityAt? get? slotCount
  rw [identityOf?_congr (push_identity c r), cells_push]
  by_cases last : slot = c.cells.length
  · simp [last]
  · rw [if_neg last]
    by_cases below : slot < c.cells.length
    · rw [List.getElem?_append_left below]
    · rw [List.getElem?_eq_none (by simp; omega), List.getElem?_eq_none (by omega)]

theorem givenIdentities_push (c : Collection) (r : Record) :
    (c.push r).givenIdentities = c.givenIdentities ++ (c.identityOf? r).toList := by
  unfold givenIdentities
  rw [identityOf?_congr (push_identity c r), records_push, List.filterMap_append,
    List.filterMap_cons, List.filterMap_nil]
  cases c.identityOf? r <;> rfl

theorem keyAt?_eq (c : Collection) (slot : Nat) :
    c.keyAt? slot = (c.identityAt? slot).bind IdentityKey.ofDatum? := by
  unfold keyAt? identityAt? keyOf?
  rw [Option.bind_assoc]

theorem keyAt?_eq_int {c : Collection} {slot : Nat} {i : Int}
    (ints : ∀ identity ∈ c.givenIdentities, ∃ i, identity = .int i) :
    c.keyAt? slot = some (.int i) ↔ c.identityAt? slot = some (.int i) := by
  rw [keyAt?_eq]
  cases here : c.identityAt? slot with
  | none => simp
  | some identity =>
      obtain ⟨j, rfl⟩ := ints identity (mem_givenIdentities here)
      simp [IdentityKey.ofDatum?, Datum.toInt?]

section
variable {c : Collection} (indexed : c.isIndexed)
include indexed

theorem getIndex?_push (r : Record) (i : Int) :
    (c.push r).getIndex? (.int i) =
      if c.keyOf? r = some (.int i) then some c.slotCount else c.getIndex? (.int i) := by
  obtain ⟨identity, slots⟩ := c
  cases slots with
  | ordered records => cases indexed
  | indexed slots index =>
      simp only [push, getIndex?, slotCount, cells, IdentityKey.ofDatum?, Datum.toInt?,
        Option.bind_some]
      cases keyOf? ⟨identity, .indexed slots index⟩ r with
      | none => simp
      | some key =>
          rw [IdentityIndex.get?_insert]
          simp only [Option.some.injEq, eq_comm]

/-- The index loses the slot only under the key of the record that was there. -/
theorem getIndex?_remove {slot : Nat} {r : Record} (taken : c.get? slot = some r) (i : Int)
    (s : Nat) :
    (c.remove slot).getIndex? (.int i) = some s ↔
      c.getIndex? (.int i) = some s ∧ ¬ (c.keyOf? r = some (.int i) ∧ s = slot) := by
  obtain ⟨identity, slots⟩ := c
  cases slots with
  | ordered records => cases indexed
  | indexed slots index =>
      unfold remove
      rw [taken]
      dsimp only
      have lookup (index : IdentityIndex) (slots : List (Option Record)) :
          getIndex? ⟨identity, .indexed slots index⟩ (.int i) = index.get? (.int i) := rfl
      rw [lookup, lookup]
      cases keyOf? ⟨identity, .indexed slots index⟩ r with
      | none => simp
      | some key =>
          dsimp only
          by_cases leads : index.get? key = some slot
          · rw [if_pos leads, IdentityIndex.get?_erase]
            by_cases same : IdentityKey.int i = key
            · simp [same, leads, eq_comm]
            · have other : ¬ key = .int i := fun equal => same equal.symm
              simp [same, other]
          · rw [if_neg leads]
            constructor
            · intro found
              refine ⟨found, ?_⟩
              rintro ⟨same, rfl⟩
              cases same
              exact leads found
            · exact And.left

theorem identityAt?_remove (slot s : Nat) :
    (c.remove slot).identityAt? s = if s = slot then none else c.identityAt? s := by
  unfold identityAt?
  rw [identityOf?_congr (remove_identity c slot)]
  obtain ⟨identity, slots⟩ := c
  cases slots with
  | ordered records => cases indexed
  | indexed slots index =>
      cases taken : get? ⟨identity, .indexed slots index⟩ slot with
      | none =>
          simp only [remove, taken]
          by_cases same : s = slot
          · rw [same, if_pos rfl, taken]
            rfl
          · rw [if_neg same]
      | some r =>
          simp only [remove, taken]
          by_cases same : s = slot
          · subst same
            rw [if_pos rfl]
            by_cases inside : s < slots.length <;> simp [get?, cells, inside]
          · have other : ¬ slot = s := fun equal => same equal.symm
            simp only [get?, cells, same, ↓reduceIte, List.getElem?_set_ne other]

end

namespace Indexes

theorem empty (field : Option String) : (ofListIndexed field []).2.Indexes where
  indexed := rfl
  ints identity member := by cases member
  apart := List.nodup_nil
  exact i slot := by
    change none = some slot ↔ none = some (Datum.int i)
    simp

variable {c : Collection} (indexes : c.Indexes)
include indexes

theorem push {r : Record}
    (ints : ∀ identity, c.identityOf? r = some identity → ∃ i, identity = .int i)
    (fresh : ∀ identity, c.identityOf? r = some identity → identity ∉ c.givenIdentities) :
    (c.push r).Indexes where
  indexed := by rw [push_isIndexed, indexes.indexed]
  ints identity member := by
    rw [givenIdentities_push] at member
    rcases List.mem_append.mp member with old | new
    · exact indexes.ints identity old
    · exact ints identity (Option.mem_toList.mp new)
  apart := by
    rw [givenIdentities_push, List.nodup_append]
    refine ⟨indexes.apart, Option.toList_nodup _, ?_⟩
    rintro old member _ new rfl
    exact fresh old (Option.mem_toList.mp new) member
  exact i slot := by
    have unused : c.identityAt? c.slotCount = none := by
      unfold identityAt? get? slotCount
      rw [List.getElem?_eq_none (Nat.le_refl _)]
      rfl
    have key : c.keyOf? r = some (.int i) ↔ c.identityOf? r = some (.int i) := by
      unfold keyOf?
      cases given : c.identityOf? r with
      | none => simp
      | some identity =>
          obtain ⟨j, rfl⟩ := ints identity given
          simp [IdentityKey.ofDatum?, Datum.toInt?]
    rw [getIndex?_push indexes.indexed, identityAt?_push]
    by_cases same : c.identityOf? r = some (.int i)
    · rw [if_pos (key.mpr same), same]
      by_cases last : slot = c.slotCount
      · simp [last]
      · have absent : c.identityAt? slot ≠ some (.int i) := by
          intro here
          exact fresh _ same (mem_givenIdentities here)
        simp [last, absent, eq_comm]
    · rw [if_neg (fun given => same (key.mp given)), indexes.exact i slot]
      by_cases last : slot = c.slotCount
      · simp [last, unused, same]
      · rw [if_neg last]

theorem insert {r : Record} {slot : Nat} {after : Collection}
    (ints : ∀ identity, c.identityOf? r = some identity → ∃ i, identity = .int i)
    (inserted : c.insert r = .ok (slot, after)) : after.Indexes := by
  rw [(insert_ok inserted).2]
  refine indexes.push ints fun identity given present => ?_
  obtain ⟨i, rfl⟩ := ints identity given
  have absent : c.find? (.int i) = none := by
    rw [insert_eq] at inserted
    simp only [given, indexes.indexed, Bool.true_and] at inserted
    split at inserted
    · cases inserted
    · rename_i unfound
      simpa using unfound
  have listed : some (Datum.int i) ∈ c.identities := by
    obtain ⟨stored, member, identified⟩ := List.mem_filterMap.mp present
    exact List.mem_map.mpr ⟨stored, member, identified⟩
  have differ := Distinct.fresh_of_find? absent (.int i) listed
  rw [Datum.agrees_int] at differ
  simp at differ

theorem remove (slot : Nat) : (c.remove slot).Indexes := by
  cases taken : c.get? slot with
  | none =>
      have same : c.remove slot = c := by
        unfold Collection.remove
        rw [taken]
      rw [same]
      exact indexes
  | some r =>
      have fewer : (c.remove slot).givenIdentities.Sublist c.givenIdentities := by
        unfold givenIdentities
        rw [identityOf?_congr (remove_identity c slot)]
        exact (records_remove_sublist c slot).filterMap _
      refine ⟨?_, fun identity member => ?_, indexes.apart.sublist fewer, fun i s => ?_⟩
      · rw [remove_isIndexed, indexes.indexed]
      · exact indexes.ints identity (fewer.subset member)
      · rw [getIndex?_remove indexes.indexed taken, identityAt?_remove indexes.indexed,
          indexes.exact i s]
        by_cases same : s = slot
        · subst same
          have key (here : c.identityAt? s = some (.int i)) : c.keyOf? r = some (.int i) := by
            unfold identityAt? at here
            rw [taken, Option.bind_some] at here
            unfold keyOf?
            rw [here]
            rfl
          simp only [↓reduceIte, and_true]
          exact ⟨fun both => absurd (key both.1) both.2, nofun⟩
        · simp [same]

theorem rebuild : c.rebuild.2.Indexes := by
  have field : c.rebuild.2.identity = c.identity := by rw [rebuild_eq indexes.indexed]
  have perm : c.rebuild.2.givenIdentities.Perm c.givenIdentities := by
    unfold givenIdentities
    rw [identityOf?_congr field]
    exact (rebuild_records_perm indexes.indexed).filterMap _
  have ints : ∀ identity ∈ c.rebuild.2.givenIdentities, ∃ i, identity = .int i :=
    fun identity member => indexes.ints identity (perm.subset member)
  have apart : c.rebuild.2.givenIdentities.Nodup := perm.nodup_iff.mpr indexes.apart
  refine ⟨?_, ints, apart, fun i slot => ?_⟩
  · rw [rebuild_eq indexes.indexed]
    rfl
  · rw [(rebuild_exact indexes.indexed (.int i) (.int i) rfl).1 slot]
    simp only [keyAt?_eq_int ints, ne_eq]
    refine ⟨And.left, fun here => ⟨here, fun lower less there => ?_⟩⟩
    exact absurd (slot_unique apart there here) (Nat.ne_of_lt less)

end Indexes

inductive Operation where
  | insert (r : Record)
  | remove (slot : Nat)
  | rebuild

/-- The collection after an operation; a record that is refused leaves it as it was. -/
def Operation.apply (c : Collection) : Operation → Collection
  | insert r =>
    match c.insert r with
    | .ok (_, after) => after
    | .error _ => c
  | remove slot => c.remove slot
  | rebuild => c.rebuild.2

/-- Whether an inserted record holds an integer in the field, if it has the field. -/
def Operation.insertsInt (field : String) : Operation → Bool
  | insert r =>
    match r.getAnyCase? field with
    | none | some (.int _) => true
    | some _ => false
  | remove _ | rebuild => true

/-- The collection after some operations on an empty one. -/
def run (field : String) (operations : List Operation) : Collection :=
  operations.foldl Operation.apply (ofListIndexed (some field) []).2

namespace Operation

theorem apply_identity (c : Collection) (operation : Operation) :
    (operation.apply c).identity = c.identity := by
  cases operation with
  | insert r =>
      dsimp only [apply]
      split
      · rename_i inserted
        rw [(insert_ok inserted).2, push_identity]
      · rfl
  | remove slot => exact remove_identity c slot
  | rebuild =>
      obtain ⟨identity, slots⟩ := c
      cases slots <;> rfl

theorem apply_indexes {c : Collection} {field : String} (indexes : c.Indexes)
    (named : c.identity = some field) (operation : Operation)
    (int : operation.insertsInt field) : (operation.apply c).Indexes := by
  cases operation with
  | insert r =>
      have ints : ∀ identity, c.identityOf? r = some identity → ∃ i, identity = .int i := by
        intro identity given
        unfold identityOf? at given
        rw [named, Option.bind_some] at given
        dsimp only [insertsInt] at int
        rw [given] at int
        split at int
        · contradiction
        · rename_i i same
          exact ⟨i, Option.some.inj same⟩
        · cases int
      dsimp only [apply]
      split
      · rename_i inserted
        exact indexes.insert ints inserted
      · exact indexes
  | remove slot => exact indexes.remove slot
  | rebuild => exact indexes.rebuild

theorem foldl_indexes {c : Collection} {field : String} {operations : List Operation}
    (indexes : c.Indexes) (named : c.identity = some field)
    (ints : operations.all (·.insertsInt field)) :
    (operations.foldl apply c).Indexes ∧ (operations.foldl apply c).identity = some field := by
  induction operations generalizing c with
  | nil => exact ⟨indexes, named⟩
  | cons operation rest ih =>
      rw [List.all_cons, Bool.and_eq_true] at ints
      have next : (operation.apply c).identity = some field := by
        rw [apply_identity, named]
      exact ih (apply_indexes indexes named operation ints.1) next ints.2

end Operation

/-- After any insertions, removals and rebuilds the index has an integer at the slot of the record
with this identity, which is the only one, and nowhere if there is none. -/
theorem run_exact (field : String) (operations : List Operation)
    (ints : operations.all (·.insertsInt field)) (i : Int) :
    (∀ slot, (run field operations).getIndex? (.int i) = some slot ↔
      ∃ r, (run field operations).get? slot = some r ∧ r.getAnyCase? field = some (.int i)) ∧
    ∀ s t a b, (run field operations).get? s = some a → (run field operations).get? t = some b →
      a.getAnyCase? field = some (.int i) → b.getAnyCase? field = some (.int i) → s = t := by
  obtain ⟨indexes, named⟩ := Operation.foldl_indexes (.empty (some field)) rfl ints
  change (run field operations).Indexes at indexes
  change (run field operations).identity = some field at named
  have carried (slot : Nat) : (run field operations).identityAt? slot = some (.int i) ↔
      ∃ r, (run field operations).get? slot = some r ∧ r.getAnyCase? field = some (.int i) := by
    unfold identityAt? identityOf?
    rw [named, Option.bind_eq_some_iff]
    rfl
  refine ⟨fun slot => (indexes.exact i slot).trans (carried slot), ?_⟩
  intro s t a b inFirst inSecond first second
  exact slot_unique indexes.apart ((carried s).mpr ⟨a, inFirst, first⟩)
    ((carried t).mpr ⟨b, inSecond, second⟩)

def vessel (id : Int) (name : String) : Record :=
  ⟨"Ship", [("ShipId", .int id), ("Name", .text name)]⟩

/-- Ships come and go. One is refused since its number is taken, and one has none. -/
def traffic : List Operation :=
  [.insert (vessel 0 "Ann"), .insert (vessel 2 "Bob"), .insert (vessel 2 "Cid"),
    .insert ⟨"Ship", [("Name", .text "Dan")]⟩, .remove 0, .insert (vessel 0 "Eve"), .rebuild,
    .remove 1, .insert (vessel 2 "Fay")]

theorem run_exact_traffic :
    traffic.all (·.insertsInt "ShipId") ∧
    (run "ShipId" traffic).getIndex? (.int 2) = some 3 ∧
    (∀ slot, (run "ShipId" traffic).getIndex? (.int 2) = some slot ↔
      ∃ r, (run "ShipId" traffic).get? slot = some r ∧
        r.getAnyCase? "ShipId" = some (.int 2)) ∧
    ∀ s t a b, (run "ShipId" traffic).get? s = some a → (run "ShipId" traffic).get? t = some b →
      a.getAnyCase? "ShipId" = some (.int 2) → b.getAnyCase? "ShipId" = some (.int 2) → s = t := by
  have ints : traffic.all (·.insertsInt "ShipId") := by decide +kernel
  have last : (run "ShipId" traffic).getIndex? (.int 2) = some 3 := by decide +kernel
  exact ⟨ints, last, run_exact "ShipId" traffic ints 2⟩

end Emend.Collection
