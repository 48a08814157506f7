import Emend.Proofs.Collection.Numbered

/-!
The next free identity. Where all identities are integers that doubles hold, it is one that no record
has, and a record that is pushed with it is found by it: in the slot of its number, if a record with
that identity is there, or else by the scan of all slots, empty or not.
-/

set_option autoImplicit false

namespace Emend.Collection

/-- The records that have an identity have an integer of magnitude below `2 ^ 53`. -/
def HasInts (c : Collection) : Prop :=
  ∀ identity ∈ c.givenIdentities, ∃ i : Int, identity = .int i ∧ i.natAbs < 2 ^ 53

section
variable {c : Collection}

/-- What counts as an integer comes before the next free one. -/
theorem lt_nextFreeId_of_toInt? {identity : Datum} {i : Int} (given : identity ∈ c.givenIdentities)
    (counted : identity.toInt? = some i) : i < c.nextFreeId := by
  have listed : i ∈ c.records.filterMap fun r => (c.identityOf? r).bind Datum.toInt? := by
    obtain ⟨r, member, identified⟩ := List.mem_filterMap.mp given
    exact List.mem_filterMap.mpr ⟨r, member, by rw [identified]; exact counted⟩
  unfold nextFreeId
  cases greatest : (c.records.filterMap fun r => (c.identityOf? r).bind Datum.toInt?).max? with
  | none =>
      rw [List.max?_eq_none_iff.mp greatest] at listed
      cases listed
  | some m =>
      have below := (List.max?_eq_some_iff.mp greatest).2 i listed
      exact Int.lt_add_one_of_le below

theorem lt_nextFreeId {i : Int} (given : .int i ∈ c.givenIdentities) : i < c.nextFreeId :=
  lt_nextFreeId_of_toInt? given rfl

theorem HasInts.nextFreeId_within (ints : c.HasInts) : c.nextFreeId.natAbs ≤ 2 ^ 53 := by
  unfold nextFreeId
  cases greatest : (c.records.filterMap fun r => (c.identityOf? r).bind Datum.toInt?).max? with
  | none => decide
  | some m =>
      obtain ⟨r, member, counted⟩ := List.mem_filterMap.mp (List.max?_eq_some_iff.mp greatest).1
      obtain ⟨x, identified, counted⟩ := Option.bind_eq_some_iff.mp counted
      obtain ⟨i, rfl, small⟩ := ints x (List.mem_filterMap.mpr ⟨r, member, identified⟩)
      cases counted
      dsimp only
      omega

theorem HasInts.fresh (ints : c.HasInts) {identity : Datum} (given : identity ∈ c.givenIdentities) :
    identity.sameIdentity (.int c.nextFreeId) = false := by
  obtain ⟨i, rfl, small⟩ := ints identity given
  change (Float.ofInt i == Float.ofInt c.nextFreeId) = false
  rw [Number.ofInt_beq small.le ints.nextFreeId_within]
  exact decide_eq_false (lt_nextFreeId given).ne

theorem HasInts.find?_push (ints : c.HasInts) {r : Record}
    (identified : c.identityOf? r = some (.int c.nextFreeId)) :
    (c.push r).find? (.int c.nextFreeId) = some c.slotCount := by
  have last : (c.push r).identityAt? c.slotCount = some (.int c.nextFreeId) := by
    rw [identityAt?_push, if_pos rfl, identified]
  have itself : (Datum.int c.nextFreeId).sameIdentity (.int c.nextFreeId) = true :=
    Number.ofInt_beq_self c.nextFreeId
  obtain ⟨slot, found⟩ := Option.isSome_iff_exists.mp (isSome_find? last itself)
  obtain ⟨x, here, same⟩ := of_find? found
  rw [identityAt?_push] at here
  split at here
  · rename_i lastSlot
    rw [found, lastSlot]
  · rw [ints.fresh (mem_givenIdentities here)] at same
    cases same

theorem get?_push_self (c : Collection) (r : Record) : (c.push r).get? c.slotCount = some r := by
  unfold get? slotCount
  rw [cells_push, List.getElem?_concat_length]
  rfl

end

end Emend.Collection
