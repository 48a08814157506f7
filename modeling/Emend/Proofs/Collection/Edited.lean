import Emend.Collection.Basic
import Emend.Proofs.Edit

/-!
Edited collections: records added, put in the place of others and taken out. None of these changes
which field the identity is in and whether there is an index.
-/

set_option autoImplicit false

namespace Emend

namespace Collection

inductive Edited (c : Collection) : Collection → Prop
  | refl : Edited c c
  | push {d : Collection} (r : Record) : Edited c d → Edited c (d.push r)
  | replace {d : Collection} (slot : Nat) (r : Record) : Edited c d → Edited c (d.replace slot r)
  | remove {d : Collection} (slot : Nat) : Edited c d → Edited c (d.remove slot)

theorem push_identity (c : Collection) (r : Record) : (c.push r).identity = c.identity := by
  unfold push
  split <;> rfl

theorem replace_identity (c : Collection) (slot : Nat) (r : Record) :
    (c.replace slot r).identity = c.identity := by
  unfold replace
  split
  · rfl
  · split <;> rfl

theorem remove_identity (c : Collection) (slot : Nat) :
    (c.remove slot).identity = c.identity := by
  unfold remove
  split <;> rfl

theorem push_isIndexed (c : Collection) (r : Record) : (c.push r).isIndexed = c.isIndexed := by
  obtain ⟨identity, slots⟩ := c
  cases slots <;> rfl

theorem replace_isIndexed (c : Collection) (slot : Nat) (r : Record) :
    (c.replace slot r).isIndexed = c.isIndexed := by
  obtain ⟨identity, slots⟩ := c
  cases slots with
  | ordered records => rfl
  | indexed slots index =>
      unfold replace
      dsimp only
      split <;> rfl

theorem remove_isIndexed (c : Collection) (slot : Nat) :
    (c.remove slot).isIndexed = c.isIndexed := by
  obtain ⟨identity, slots⟩ := c
  unfold remove
  dsimp only
  split <;> rfl

theorem Edited.identity {c d : Collection} (edited : c.Edited d) : d.identity = c.identity := by
  induction edited with
  | refl => rfl
  | push r _ ih => rw [push_identity, ih]
  | replace slot r _ ih => rw [replace_identity, ih]
  | remove slot _ ih => rw [remove_identity, ih]

theorem Edited.isIndexed {c d : Collection} (edited : c.Edited d) : d.isIndexed = c.isIndexed := by
  induction edited with
  | refl => rfl
  | push r _ ih => rw [push_isIndexed, ih]
  | replace slot r _ ih => rw [replace_isIndexed, ih]
  | remove slot _ ih => rw [remove_isIndexed, ih]

theorem Edited.trans {c d e : Collection} (first : c.Edited d) (second : d.Edited e) :
    c.Edited e := by
  induction second with
  | refl => exact first
  | push r _ ih => exact ih.push r
  | replace slot r _ ih => exact ih.replace slot r
  | remove slot _ ih => exact ih.remove slot

theorem Edited.foldl_replace {c d : Collection} (edited : c.Edited d)
    (patched : List (Nat × Record)) :
    c.Edited (patched.foldl (fun records (slot, record) => records.replace slot record) d) := by
  induction patched generalizing d with
  | nil => exact edited
  | cons entry rest ih => exact ih (edited.replace entry.1 entry.2)

theorem Edited.foldl_remove {c d : Collection} (edited : c.Edited d)
    (chosen : List (Nat × Record)) :
    c.Edited (chosen.foldl (fun records (slot, _) => records.remove slot) d) := by
  induction chosen generalizing d with
  | nil => exact edited
  | cons entry rest ih => exact ih (edited.remove entry.1)

theorem insertion_on (c : Collection) (r : Record) : (insertion r).on c =
    match (c.identityOf? r).filter fun identity => c.isIndexed && (c.find? identity).isSome with
    | some identity => (.error (.duplicate identity.toText), c)
    | none => (.ok c.slotCount, c.push r) := by
  have read : Edit.on (get : Edit CollectionError Collection Collection) c = (.ok c, c) := rfl
  rw [insertion, Edit.on_bind, read]
  dsimp only
  cases (c.identityOf? r).filter _ <;> rfl

/-- A record is refused before anything is written. -/
theorem insertion_atomic (r : Record) : (insertion r).Atomic := by
  intro c e left failed
  rw [insertion_on] at failed
  split at failed <;> cases failed
  rfl

theorem insert_eq (c : Collection) (r : Record) : c.insert r =
    match c.identityOf? r with
    | some identity =>
      if c.isIndexed && (c.find? identity).isSome then .error (.duplicate identity.toText)
      else .ok (c.slotCount, c.push r)
    | none => .ok (c.slotCount, c.push r) := by
  unfold insert Edit.outcome
  rw [insertion_on]
  cases c.identityOf? r with
  | none => rfl
  | some identity =>
      rw [Option.filter_some]
      dsimp only
      cases c.isIndexed && (c.find? identity).isSome <;> rfl

theorem insert_ok {c after : Collection} {r : Record} {slot : Nat}
    (success : c.insert r = .ok (slot, after)) : slot = c.slotCount ∧ after = c.push r := by
  rw [insert_eq] at success
  split at success
  · split at success
    · cases success
    · cases success
      exact ⟨rfl, rfl⟩
  · cases success
    exact ⟨rfl, rfl⟩

end Collection

end Emend
