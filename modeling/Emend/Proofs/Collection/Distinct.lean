import Emend.Proofs.Collection.Edited
import Emend.Proofs.Collection.Rebuild
import Emend.Proofs.Number.Integers

/-!
Collections whose records have different identities. The identities stay different when a record is
inserted, when records are put in the place of others with the same identity, when records are
taken out, and when the collection is rebuilt.
-/

set_option autoImplicit false

namespace Emend

namespace Datum

/-- Equality of content, read in both ways. -/
def agrees (a b : Datum) : Bool := a.same b && b.same a

theorem agrees_comm (a b : Datum) : a.agrees b = b.agrees a := Bool.and_comm _ _

theorem agrees_int (i j : Int) : (int i).agrees (int j) = decide (i = j) := by
  rw [Bool.eq_iff_iff]
  simp only [agrees, same, Bool.and_eq_true, beq_iff_eq, decide_eq_true_eq]
  exact ⟨fun both => both.1, fun equal => ⟨equal, equal.symm⟩⟩

/-- Identities of the same content count as the same, even if the content is a number. -/
theorem sameIdentity_of_same {a b : Datum} (equal : a.same b) : a.sameIdentity b := by
  cases a <;> cases b <;> simp_all [same, sameIdentity, toFloat?, Number.ofInt_beq_self]

end Datum

namespace Collection

theorem records_push (c : Collection) (r : Record) : (c.push r).records = c.records ++ [r] := by
  obtain ⟨identity, slots⟩ := c
  cases slots <;> simp [push, records, cells]

theorem filterMap_set_none_sublist (slots : List (Option Record)) (slot : Nat) :
    ((slots.set slot none).filterMap id).Sublist (slots.filterMap id) := by
  induction slots generalizing slot with
  | nil => exact .slnil
  | cons cell rest ih =>
      cases slot with
      | zero =>
          cases cell with
          | none => exact .refl _
          | some r => exact .cons r (.refl _)
      | succ slot =>
          cases cell with
          | none => exact ih slot
          | some r => exact (ih slot).cons_cons r

theorem records_remove_sublist (c : Collection) (slot : Nat) :
    (c.remove slot).records.Sublist c.records := by
  obtain ⟨identity, slots⟩ := c
  unfold remove
  dsimp only
  split
  · exact .refl _
  · simp only [records, cells, List.filterMap_map, Function.id_comp, List.filterMap_some]
    exact List.eraseIdx_sublist _ _
  · exact filterMap_set_none_sublist _ _

theorem cells_replace {c : Collection} {slot : Nat} (taken : (c.get? slot).isSome) (r : Record) :
    (c.replace slot r).cells = c.cells.set slot (some r) := by
  obtain ⟨identity, slots⟩ := c
  cases slots with
  | ordered records => simp [replace, cells, List.map_set]
  | indexed slots index => simp [replace, cells, taken]

theorem mem_liveFrom {start slot : Nat} {r : Record} {cells : List (Option Record)}
    (member : (slot, r) ∈ liveFrom start cells) :
    ∃ n, slot = start + n ∧ cells[n]? = some (some r) := by
  induction cells generalizing start with
  | nil => cases member
  | cons cell rest ih =>
      have later (inside : (slot, r) ∈ liveFrom (start + 1) rest) :
          ∃ n, slot = start + n ∧ (cell :: rest)[n]? = some (some r) := by
        obtain ⟨n, place, found⟩ := ih inside
        exact ⟨n + 1, by omega, found⟩
      cases cell with
      | none => exact later member
      | some first =>
          rcases List.mem_cons.mp member with here | inside
          · cases here
            exact ⟨0, rfl, rfl⟩
          · exact later inside

theorem map_snd_liveFrom (start : Nat) (cells : List (Option Record)) :
    (liveFrom start cells).map (·.2) = cells.filterMap id := by
  induction cells generalizing start with
  | nil => rfl
  | cons cell rest ih => cases cell <;> simp [liveFrom, ih]

theorem exists_live {c : Collection} {r : Record} (member : r ∈ c.records) :
    ∃ slot, (slot, r) ∈ c.live := by
  rw [records, ← map_snd_liveFrom 0] at member
  obtain ⟨⟨slot, _⟩, inside, rfl⟩ := List.mem_map.mp member
  exact ⟨slot, inside⟩

theorem identityOf?_congr {c d : Collection} (same : d.identity = c.identity) :
    d.identityOf? = c.identityOf? := by
  funext r
  unfold identityOf?
  rw [same]

def identities (c : Collection) : List (Option Datum) := c.records.map c.identityOf?

/-- The identities slot by slot. -/
def identityCells (c : Collection) : List (Option (Option Datum)) :=
  c.cells.map (Option.map c.identityOf?)

theorem identities_eq (c : Collection) : c.identities = c.identityCells.filterMap id := by
  unfold identities identityCells records
  rw [List.filterMap_map, List.map_filterMap]
  rfl

theorem identityCells_of_get? {c : Collection} {slot : Nat} {r : Record}
    (taken : c.get? slot = some r) : c.identityCells[slot]? = some (some (c.identityOf? r)) := by
  unfold get? at taken
  rw [Option.join_eq_some_iff] at taken
  simp [identityCells, taken]

theorem identityCells_of_live {c : Collection} {slot : Nat} {r : Record}
    (member : (slot, r) ∈ c.live) : c.identityCells[slot]? = some (some (c.identityOf? r)) := by
  obtain ⟨n, rfl, found⟩ := mem_liveFrom member
  apply identityCells_of_get?
  simp [get?, found]

theorem identityCells_replace {c : Collection} {slot : Nat} {r : Record}
    (same : c.identityCells[slot]? = some (some (c.identityOf? r))) :
    (c.replace slot r).identityCells = c.identityCells := by
  have taken : (c.get? slot).isSome := by
    simp only [identityCells, List.getElem?_map, Option.map_eq_some_iff] at same
    obtain ⟨cell, found, old, rfl, -⟩ := same
    simp [get?, found]
  unfold identityCells at same ⊢
  rw [cells_replace taken, identityOf?_congr (replace_identity c slot r), List.map_set]
  obtain ⟨inside, here⟩ := List.getElem?_eq_some_iff.mp same
  rw [Option.map_some, ← here, List.set_getElem_self]

theorem identityCells_replace_of_get? {c : Collection} {slot : Nat} {r next : Record}
    (there : c.get? slot = some r) (same : c.identityOf? next = c.identityOf? r) :
    (c.replace slot next).identityCells = c.identityCells := by
  apply identityCells_replace
  rw [same]
  exact identityCells_of_get? there

theorem identityCells_foldl_replace {c : Collection} {patched : List (Nat × Record)}
    (same : ∀ entry ∈ patched,
      c.identityCells[entry.1]? = some (some (c.identityOf? entry.2))) :
    (patched.foldl (fun records (slot, record) => records.replace slot record) c).identityCells =
      c.identityCells := by
  induction patched generalizing c with
  | nil => rfl
  | cons entry rest ih =>
      have first := identityCells_replace (same entry List.mem_cons_self)
      rw [List.foldl_cons, ih, first]
      intro later member
      rw [first, identityOf?_congr (replace_identity c entry.1 entry.2)]
      exact same later (List.mem_cons_of_mem _ member)

/-- Every record has an identity, and no two of them agree. -/
structure Distinct (c : Collection) : Prop where
  present : ∀ identity ∈ c.identities, identity.isSome
  apart : c.identities.Pairwise fun a b =>
    ∀ x y, a = some x → b = some y → x.agrees y = false

namespace Distinct

theorem of_ints {c : Collection} (ints : List Int)
    (identities : c.identities = ints.map fun i => some (.int i)) (differ : ints.Nodup) :
    c.Distinct where
  present identity member := by
    rw [identities] at member
    obtain ⟨i, -, rfl⟩ := List.mem_map.mp member
    rfl
  apart := by
    rw [identities, List.pairwise_map]
    apply differ.imp
    rintro i j other _ _ ⟨⟩ ⟨⟩
    rw [Datum.agrees_int]
    exact decide_eq_false other

theorem of_sublist {c d : Collection} (distinct : c.Distinct)
    (sublist : d.identities.Sublist c.identities) : d.Distinct where
  present identity member := distinct.present identity (sublist.subset member)
  apart := distinct.apart.sublist sublist

theorem of_perm {c d : Collection} (distinct : c.Distinct)
    (perm : d.identities.Perm c.identities) : d.Distinct where
  present identity member := distinct.present identity (perm.subset member)
  apart := by
    refine distinct.apart.perm perm.symm ?_
    intro a b differ x y first second
    rw [Datum.agrees_comm]
    exact differ y x second first

theorem of_identityCells {c d : Collection} (distinct : c.Distinct)
    (same : d.identityCells = c.identityCells) : d.Distinct := by
  have equal : d.identities = c.identities := by rw [identities_eq, identities_eq, same]
  exact distinct.of_perm (.of_eq equal)

theorem remove {c : Collection} (distinct : c.Distinct) (slot : Nat) :
    (c.remove slot).Distinct := by
  apply distinct.of_sublist
  unfold identities
  rw [identityOf?_congr (remove_identity c slot)]
  exact (records_remove_sublist c slot).map _

theorem foldl_remove {c : Collection} (distinct : c.Distinct) (chosen : List (Nat × Record)) :
    (chosen.foldl (fun records (slot, _) => records.remove slot) c).Distinct := by
  induction chosen generalizing c with
  | nil => exact distinct
  | cons entry rest ih => exact ih (distinct.remove entry.1)

theorem push {c : Collection} {r : Record} {identity : Datum} (distinct : c.Distinct)
    (identified : c.identityOf? r = some identity)
    (fresh : ∀ x, some x ∈ c.identities → x.agrees identity = false) : (c.push r).Distinct := by
  have pushed : (c.push r).identities = c.identities ++ [some identity] := by
    unfold identities
    rw [identityOf?_congr (push_identity c r), records_push, List.map_append, List.map_singleton,
      identified]
  constructor
  · intro other member
    rw [pushed] at member
    rcases List.mem_append.mp member with old | new
    · exact distinct.present other old
    · rw [List.mem_singleton.mp new]
      rfl
  · rw [pushed, List.pairwise_append]
    refine ⟨distinct.apart, List.pairwise_singleton _ _, ?_⟩
    rintro _ old _ new x y rfl second
    cases second.symm.trans (List.mem_singleton.mp new)
    exact fresh x old

theorem fresh_of_find? {c : Collection} {identity : Datum} (absent : c.find? identity = none)
    (x : Datum) (member : some x ∈ c.identities) : x.agrees identity = false := by
  obtain ⟨r, inside, identified⟩ := List.mem_map.mp member
  obtain ⟨slot, live⟩ := exists_live inside
  -- A look into the slot of the same number may only find more.
  have unscanned : c.scan identity = none := by
    unfold find? at absent
    split at absent
    · exact (Option.or_eq_none_iff.mp absent).2
    · exact absent
  have unlike := List.find?_eq_none.mp (Option.map_eq_none_iff.mp unscanned) _ live
  simp only [hasIdentity, identified, Option.any_some] at unlike
  have differ : x.same identity = false :=
    Bool.eq_false_iff.mpr fun same => unlike (Datum.sameIdentity_of_same same)
  rw [Datum.agrees, differ, Bool.false_and]

theorem insert {c after : Collection} {r : Record} {slot : Nat} {identity : Datum}
    (distinct : c.Distinct) (indexed : c.isIndexed)
    (identified : c.identityOf? r = some identity) (inserted : c.insert r = .ok (slot, after)) :
    after.Distinct := by
  rw [(insert_ok inserted).2]
  apply distinct.push identified
  apply fresh_of_find?
  rw [insert_eq] at inserted
  simp only [identified, indexed, Bool.true_and] at inserted
  split at inserted
  · cases inserted
  · rename_i absent
    simpa using absent

theorem rebuild {c : Collection} (distinct : c.Distinct) (indexed : c.isIndexed) :
    c.rebuild.2.Distinct := by
  have kept : c.rebuild.2.identity = c.identity := by rw [rebuild_eq indexed]
  apply distinct.of_perm
  unfold identities
  rw [identityOf?_congr kept]
  exact (rebuild_records_perm indexed).map _

end Distinct

end Collection

end Emend
