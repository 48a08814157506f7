import Emend.Proofs.Collection.Distinct

/-!
Records looked up by an identity and put back. The slot that is found depends on the identities, slot
by slot, and on nothing else that the records hold; records put into different slots do not meet.
-/

set_option autoImplicit false

namespace Emend.Collection

theorem find?_liveFrom_congr {α : Type} {key other : Record → α} (p : α → Bool) (start : Nat)
    {cells others : List (Option Record)}
    (same : cells.map (Option.map key) = others.map (Option.map other)) :
    ((liveFrom start cells).find? fun entry => p (key entry.2)).map (·.1) =
      ((liveFrom start others).find? fun entry => p (other entry.2)).map (·.1) := by
  induction cells generalizing others start with
  | nil =>
      rw [List.map_nil, eq_comm, List.map_eq_nil_iff] at same
      rw [same]
      rfl
  | cons cell rest ih =>
      cases others with
      | nil => cases same
      | cons cell' rest' =>
          rw [List.map_cons, List.map_cons, List.cons.injEq] at same
          obtain ⟨head, tail⟩ := same
          have later := ih (start + 1) tail
          cases cell with
          | none =>
              cases cell' with
              | none => exact later
              | some r => cases head
          | some r =>
              cases cell' with
              | none => cases head
              | some r' =>
                  rw [Option.map_some, Option.map_some, Option.some.injEq] at head
                  unfold liveFrom
                  rw [List.find?_cons, List.find?_cons]
                  dsimp only
                  rw [head]
                  split
                  · rfl
                  · exact later

theorem any_get? (c : Collection) (slot : Nat) (p : Option Datum → Bool) :
    (c.get? slot).any (fun r => p (c.identityOf? r)) = (c.identityCells[slot]?).join.any p := by
  unfold get? identityCells
  rw [List.getElem?_map]
  cases c.cells[slot]? with
  | none => rfl
  | some cell => cases cell <;> rfl

variable {c d : Collection}

/-- Collections of one kind with the same identities in their slots find the same slots. -/
theorem find?_congr (indexed : d.isIndexed = c.isIndexed)
    (identities : d.identityCells = c.identityCells) (identity : Datum) :
    d.find? identity = c.find? identity := by
  let like (held : Option Datum) : Bool := held.any (·.sameIdentity identity)
  have scanned : d.scan identity = c.scan identity := find?_liveFrom_congr like 0 identities
  have looked (slot : Nat) : (d.get? slot).any (d.hasIdentity identity) =
      (c.get? slot).any (c.hasIdentity identity) := by
    have left := d.any_get? slot like
    rw [identities] at left
    exact left.trans (c.any_get? slot like).symm
  unfold find? direct?
  simp only [indexed, scanned, looked]

theorem nextFreeId_congr (identities : d.identityCells = c.identityCells) :
    d.nextFreeId = c.nextFreeId := by
  have counted (c : Collection) : (c.records.filterMap fun r => (c.identityOf? r).bind Datum.toInt?) =
      (c.identityCells.filterMap id).filterMap (·.bind Datum.toInt?) := by
    rw [← identities_eq, Collection.identities, List.filterMap_map]
    rfl
  unfold nextFreeId
  rw [counted, counted, identities]

theorem slotCount_replace (c : Collection) (slot : Nat) (r : Record) :
    (c.replace slot r).slotCount = c.slotCount := by
  obtain ⟨identity, slots⟩ := c
  cases slots with
  | ordered records => simp [slotCount, replace, cells]
  | indexed slots index =>
      unfold replace
      dsimp only
      split
      · exact List.length_set
      · rfl

theorem getIndex?_replace {slot : Nat} {r next : Record} (there : c.get? slot = some r)
    (same : c.identityOf? next = c.identityOf? r) (identity : Datum) :
    (c.replace slot next).getIndex? identity = c.getIndex? identity := by
  have found := find?_congr (replace_isIndexed c slot next)
    (identityCells_replace_of_get? there same) identity
  obtain ⟨field, slots⟩ := c
  cases slots with
  | ordered records => exact found
  | indexed slots index =>
      unfold replace
      dsimp only
      split <;> rfl

theorem get?_replace_self {slot : Nat} (taken : (c.get? slot).isSome) (r : Record) :
    (c.replace slot r).get? slot = some r := by
  obtain ⟨old, there⟩ := Option.isSome_iff_exists.mp taken
  unfold get? at there ⊢
  rw [Option.join_eq_some_iff] at there
  rw [cells_replace taken, List.getElem?_set_self (List.getElem?_eq_some_iff.mp there).1]
  rfl

theorem get?_replace_other {slot other : Nat} (differ : slot ≠ other) (r : Record) :
    (c.replace slot r).get? other = c.get? other := by
  obtain ⟨identity, slots⟩ := c
  cases slots with
  | ordered records =>
      simp only [get?, replace, cells, List.getElem?_map, List.getElem?_set_ne differ]
  | indexed slots index =>
      unfold replace
      dsimp only
      split
      · simp only [get?, cells, List.getElem?_set_ne differ]
      · rfl

theorem replace_self {slot : Nat} {r : Record} (there : c.get? slot = some r) :
    c.replace slot r = c := by
  obtain ⟨identity, slots⟩ := c
  unfold get? at there
  rw [Option.join_eq_some_iff] at there
  unfold replace
  cases slots with
  | ordered records =>
      simp only [cells, List.getElem?_map, Option.map_eq_some_iff, Option.some.injEq,
        exists_eq_right] at there
      obtain ⟨inside, here⟩ := List.getElem?_eq_some_iff.mp there
      dsimp only
      rw [← here, List.set_getElem_self]
  | indexed slots index =>
      have found : slots[slot]? = some (some r) := there
      obtain ⟨inside, here⟩ := List.getElem?_eq_some_iff.mp found
      dsimp only
      split
      · rw [← here, List.set_getElem_self]
      · rfl

theorem replace_of_vacant {slot : Nat} (vacant : c.get? slot = none) (r : Record) :
    c.replace slot r = c := by
  obtain ⟨identity, slots⟩ := c
  cases slots with
  | ordered records =>
      have outside : records.length ≤ slot := by
        simpa [get?, cells, Option.join_eq_none_iff] using vacant
      unfold replace
      dsimp only
      rw [List.set_eq_of_length_le outside]
  | indexed slots index =>
      unfold replace
      rw [vacant]
      rfl

theorem replace_comm {slot other : Nat} (differ : slot ≠ other) (r s : Record) :
    (c.replace slot r).replace other s = (c.replace other s).replace slot r := by
  have first := get?_replace_other (c := c) differ r
  have second := get?_replace_other (c := c) differ.symm s
  cases here : c.get? slot with
  | none => rw [replace_of_vacant here, replace_of_vacant (second.trans here)]
  | some old =>
      cases there : c.get? other with
      | none => rw [replace_of_vacant there, replace_of_vacant (first.trans there)]
      | some old' =>
          rw [there] at first
          rw [here] at second
          obtain ⟨identity, slots⟩ := c
          unfold replace at first second ⊢
          cases slots with
          | ordered records =>
              dsimp only
              rw [List.set_comm _ _ differ]
          | indexed slots index =>
              simp only [here, there, Option.isSome_some, ↓reduceIte] at first second ⊢
              rw [first, second, List.set_comm _ _ differ]
              rfl

end Emend.Collection
