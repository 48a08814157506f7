import Emend.Proofs.Collection.Indexed
import Emend.Proofs.Collection.Lookup
import Emend.Proofs.Number.Exact

/-!
Collections whose records are numbered. Identities are compared as doubles; as long as the numbers
are doubles themselves, every number leads to the slot of its record.
-/

set_option autoImplicit false

namespace Emend.Collection

theorem get?_of_live {c : Collection} {slot : Nat} {r : Record} (member : (slot, r) ∈ c.live) :
    c.get? slot = some r := by
  obtain ⟨n, rfl, found⟩ := mem_liveFrom member
  rw [Nat.zero_add]
  exact Option.join_eq_some_iff.mpr found

theorem mem_liveFrom_of (start : Nat) {n : Nat} {r : Record} {cells : List (Option Record)}
    (found : cells[n]? = some (some r)) : (start + n, r) ∈ liveFrom start cells := by
  induction cells generalizing start n with
  | nil => cases found
  | cons cell rest ih =>
      cases n with
      | zero =>
          cases found
          exact List.mem_cons_self
      | succ n =>
          have later := ih (start + 1) (n := n) found
          rw [Nat.add_right_comm] at later
          cases cell with
          | none => exact later
          | some first => exact List.mem_cons_of_mem _ later

theorem live_of_get? {c : Collection} {slot : Nat} {r : Record} (there : c.get? slot = some r) :
    (slot, r) ∈ c.live := by
  have listed := mem_liveFrom_of 0 (Option.join_eq_some_iff.mp there)
  rwa [Nat.zero_add] at listed

theorem live_increasing (c : Collection) : c.live.Pairwise fun a b => a.1 < b.1 := by
  have from_start (cells : List (Option Record)) :
      ∀ start, (liveFrom start cells).Pairwise fun a b => a.1 < b.1 := by
    induction cells with
    | nil => exact fun _ => .nil
    | cons cell rest ih =>
        intro start
        cases cell with
        | none => exact ih (start + 1)
        | some r =>
            refine .cons (fun entry member => ?_) (ih (start + 1))
            obtain ⟨n, same, -⟩ := mem_liveFrom member
            rw [same]
            omega
  exact from_start c.cells 0

theorem hasIdentity_get? {c : Collection} {identity : Datum} {slot : Nat} :
    (c.get? slot).any (c.hasIdentity identity) ↔
      ∃ x, c.identityAt? slot = some x ∧ x.sameIdentity identity := by
  unfold identityAt? hasIdentity
  cases c.get? slot with
  | none => simp
  | some r => exact Option.any_eq_true _ (c.identityOf? r)

theorem of_find? {c : Collection} {identity : Datum} {slot : Nat}
    (found : c.find? identity = some slot) :
    ∃ x, c.identityAt? slot = some x ∧ x.sameIdentity identity := by
  have scanned (here : c.scan identity = some slot) :
      ∃ x, c.identityAt? slot = some x ∧ x.sameIdentity identity := by
    obtain ⟨⟨_, r⟩, first, rfl⟩ := Option.map_eq_some_iff.mp here
    apply hasIdentity_get?.mp
    have same := List.find?_some first
    rw [get?_of_live (List.mem_of_find?_eq_some first)]
    exact same
  unfold find? at found
  split at found
  · rcases Option.or_eq_some_iff.mp found with direct | ⟨-, here⟩
    · unfold direct? at direct
      split at direct
      · split at direct
        · rename_i there
          cases direct
          exact hasIdentity_get?.mp there
        · cases direct
      · cases direct
    · exact scanned here
  · exact scanned found

theorem isSome_find? {c : Collection} {identity x : Datum} {slot : Nat}
    (there : c.identityAt? slot = some x) (same : x.sameIdentity identity) :
    (c.find? identity).isSome := by
  obtain ⟨r, taken, identified⟩ := Option.bind_eq_some_iff.mp there
  have scanned : (c.scan identity).isSome := by
    unfold scan
    rw [Option.isSome_map, List.find?_isSome]
    refine ⟨(slot, r), live_of_get? taken, ?_⟩
    unfold hasIdentity
    rw [identified]
    exact same
  unfold find?
  split
  · rw [Option.isSome_or, scanned, Bool.or_true]
  · exact scanned

/-- The records have these integers for their identities, which differ, also as doubles. -/
structure Numbered (c : Collection) (ids : List Int) : Prop where
  identities : c.identities = ids.map fun i => some (.int i)
  apart : ids.Nodup
  within : ∀ i ∈ ids, i.natAbs ≤ 2 ^ 53

section
variable {c : Collection} {ids : List Int}

theorem Numbered.of_identityCells {d : Collection} (numbered : c.Numbered ids)
    (same : d.identityCells = c.identityCells) : d.Numbered ids where
  identities := by rw [identities_eq, same, ← identities_eq, numbered.identities]
  apart := numbered.apart
  within := numbered.within

theorem Numbered.replace (numbered : c.Numbered ids) {slot : Nat} {r next : Record}
    (there : c.get? slot = some r) (same : c.identityOf? next = c.identityOf? r) :
    (c.replace slot next).Numbered ids :=
  numbered.of_identityCells (identityCells_replace_of_get? there same)

theorem Numbered.exists_number (numbered : c.Numbered ids) {r : Record} (member : r ∈ c.records) :
    ∃ n, c.identityOf? r = some (.int n) := by
  have identified : c.identityOf? r ∈ c.identities := List.mem_map_of_mem member
  rw [numbered.identities] at identified
  obtain ⟨n, -, same⟩ := List.mem_map.mp identified
  exact ⟨n, same.symm⟩

theorem givenIdentities_of_ints (identities : c.identities = ids.map fun i => some (.int i)) :
    c.givenIdentities = ids.map .int := by
  have listed : c.givenIdentities = c.identities.filterMap id := by
    unfold Collection.givenIdentities Collection.identities
    rw [List.filterMap_map]
    rfl
  rw [listed, identities, List.filterMap_map]
  exact congrFun List.filterMap_eq_map ids

theorem Numbered.givenIdentities (numbered : c.Numbered ids) :
    c.givenIdentities = ids.map .int :=
  givenIdentities_of_ints numbered.identities

theorem Numbered.find? (numbered : c.Numbered ids) {slot : Nat} {i : Int}
    (there : c.identityAt? slot = some (.int i)) : c.find? (.int i) = some slot := by
  have listed := numbered.givenIdentities
  have apart : c.givenIdentities.Nodup := by
    rw [listed]
    exact numbered.apart.map fun _ _ => Datum.int.inj
  have member {s : Nat} {x : Datum} (here : c.identityAt? s = some x) : ∃ j ∈ ids, .int j = x :=
    List.mem_map.mp (listed ▸ mem_givenIdentities here)
  have known {s : Nat} {j : Int} (here : c.identityAt? s = some (.int j)) : j.natAbs ≤ 2 ^ 53 := by
    obtain ⟨k, inside, same⟩ := member here
    cases same
    exact numbered.within j inside
  have equal (j : Int) : (Datum.int j).sameIdentity (.int i) = (Float.ofInt j == Float.ofInt i) := rfl
  obtain ⟨s, found⟩ := Option.isSome_iff_exists.mp
    (isSome_find? there (by rw [equal, Number.ofInt_beq_self]))
  obtain ⟨x, here, same⟩ := of_find? found
  obtain ⟨j, inside, rfl⟩ := member here
  rw [equal, Number.ofInt_beq (known here) (known there)] at same
  cases of_decide_eq_true same
  rw [found, slot_unique apart here there]

end

end Emend.Collection
