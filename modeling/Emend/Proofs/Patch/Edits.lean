import Emend.Patch.Pass
import Emend.Proofs.Collection.Edited
import Emend.Proofs.Patch.InPlace

/-!
What instructions do to a collection: they add records, put records in the place of others and take
records out, and nothing else.
-/

set_option autoImplicit false

namespace Emend.Patch

theorem addRecord_ok {c : Context} {type : Descriptor} {field : String}
    {records after : Collection} {entries : Entries} {identity : Datum} {position : Position}
    (success : (addRecord c type field entries identity position).result records = .ok after) :
    ∃ r slot,
      patchRecord c type (type.newFilledRecord.set field identity)
        (entries.withoutIdentity field) = .ok r ∧
      records.insert r = .ok (slot, after) := by
  rw [addRecord_result] at success
  obtain ⟨r, made, success⟩ := of_bind_ok success
  split at success
  · rename_i slot inserted outcome
    cases success
    exact ⟨r, slot, made, outcome⟩
  · cases success

theorem add_edits {c : Context} {type : Descriptor} {field : String} {records after : Collection}
    {templates : Templates} {i : Instruction}
    (success : (added c type field records i templates).1 = .ok after) : records.Edited after := by
  rw [added_eq] at success
  split at success
  · cases success
  · split at success
    · cases success
    · cases success
    · obtain ⟨r, slot, -, inserted⟩ := addRecord_ok success
      rw [(Collection.insert_ok inserted).2]
      exact .push r .refl

theorem update_edits {c : Context} {type : Descriptor} {field : String}
    {records after : Collection} {i : Instruction}
    (success : (update c type field i).result records = .ok after) : records.Edited after := by
  rw [update_result] at success
  obtain ⟨entries, -, success⟩ := of_bind_ok success
  obtain ⟨identity, -, success⟩ := of_bind_ok success
  obtain ⟨⟨slot, found⟩, -, success⟩ := of_bind_ok success
  obtain ⟨r, -, success⟩ := of_bind_ok success
  cases success
  exact .replace slot r .refl

theorem updateAll_edits {c : Context} {type : Descriptor} {records after : Collection}
    {i : Instruction} (success : (updateAll c type i).result records = .ok after) :
    records.Edited after := by
  rw [updateAll_result] at success
  obtain ⟨entries, -, success⟩ := of_bind_ok success
  obtain ⟨formula, -, success⟩ := of_bind_ok success
  obtain ⟨chosen, -, success⟩ := of_bind_ok success
  obtain ⟨patched, -, success⟩ := of_bind_ok success
  cases success
  exact Collection.Edited.refl.foldl_replace patched

theorem remove_edits {c : Context} {type : Descriptor} {field : String}
    {records after : Collection} {i : Instruction}
    (success : (remove c type field i).result records = .ok after) : records.Edited after := by
  rw [remove_result] at success
  obtain ⟨identity, -, success⟩ := of_bind_ok success
  obtain ⟨slot, -, success⟩ := of_bind_ok success
  cases success
  exact .remove slot .refl

theorem removeAll_edits {c : Context} {records after : Collection} {i : Instruction}
    (success : (removeAll c i).result records = .ok after) : records.Edited after := by
  rw [removeAll_result] at success
  obtain ⟨formula, -, success⟩ := of_bind_ok success
  obtain ⟨chosen, -, success⟩ := of_bind_ok success
  cases success
  exact Collection.Edited.refl.foldl_remove chosen.reverse

/-- What an instruction leaves of the records: the records as they were, or what its verb made of
them. -/
inductive Leaves (c : Context) (type : Descriptor) (field : String) (records : Collection)
    (templates : Templates) (i : Instruction) : Collection → Prop
  | same : Leaves c type field records templates i records
  | add {after : Collection} (verb : i.verb = .add)
      (success : (added c type field records i templates).1 = .ok after) :
      Leaves c type field records templates i after
  | update {after : Collection} (verb : i.verb = .update)
      (success : (update c type field i).result records = .ok after) :
      Leaves c type field records templates i after
  | updateAll {after : Collection} (verb : i.verb = .updateAll)
      (success : (updateAll c type i).result records = .ok after) :
      Leaves c type field records templates i after
  | remove {after : Collection} (verb : i.verb = .remove)
      (success : (remove c type field i).result records = .ok after) :
      Leaves c type field records templates i after
  | removeAll {after : Collection} (verb : i.verb = .removeAll)
      (success : (removeAll c i).result records = .ok after) :
      Leaves c type field records templates i after

theorem Leaves.edited {c : Context} {type : Descriptor} {field : String}
    {records after : Collection} {templates : Templates} {i : Instruction}
    (leaves : Leaves c type field records templates i after) : records.Edited after := by
  cases leaves with
  | same => exact .refl
  | add _ success => exact add_edits success
  | update _ success => exact update_edits success
  | updateAll _ success => exact updateAll_edits success
  | remove _ success => exact remove_edits success
  | removeAll _ success => exact removeAll_edits success

namespace Workspace

/-- The target is a collection with this identity field and this property. -/
def Has (field : String) (P : Collection → Prop) (w : Workspace) : Prop :=
  ∃ records, w.target = .collection field records ∧ P records

/-- The target is still a collection with the same identity field, edited. -/
def Edits (field : String) (records : Collection) (after : Workspace) : Prop :=
  after.Has field records.Edited

theorem Edits.of_target {field : String} {records : Collection} {w : Workspace}
    (target : w.target = .collection field records) : w.Edits field records :=
  ⟨records, target, .refl⟩

theorem keep_has {field : String} {P : Collection → Prop} {α : Type} {w : Workspace}
    {made : Except PatchError α} {put : α → Workspace} (before : w.Has field P)
    (after : ∀ a, made = .ok a → (put a).Has field P) : (w.keep made put).2.Has field P := by
  cases made with
  | ok a => exact after a rfl
  | error e => exact before

theorem stepCollection_leaves (w : Workspace) (c : Context) (type : Descriptor) (field : String)
    (records : Collection) (i : Instruction) (target : w.target = .collection field records) :
    (w.stepCollection c type field records i).2.Has field
      (Leaves c type field records w.templates i) := by
  have before : w.Has field (Leaves c type field records w.templates i) := ⟨records, target, .same⟩
  rw [stepCollection_eq target]
  dsimp only
  split
  case h_1 verb => exact keep_has before fun after made => ⟨after, rfl, .add verb made⟩
  case h_2 verb => exact keep_has before fun after made => ⟨after, rfl, .update verb made⟩
  case h_3 verb => exact keep_has before fun after made => ⟨after, rfl, .updateAll verb made⟩
  case h_4 verb => exact keep_has before fun after made => ⟨after, rfl, .remove verb made⟩
  case h_5 verb => exact keep_has before fun after made => ⟨after, rfl, .removeAll verb made⟩
  all_goals exact before

/-- All that a step can do to the records of a collection. -/
theorem step_leaves (settings : Settings) (type : Descriptor) (w : Workspace) (i : Instruction)
    (field : String) (records : Collection) (target : w.target = .collection field records) :
    (w.step settings type i).2.Has field
      (Leaves ⟨settings, w.store⟩ type field records w.templates i) := by
  have before : w.Has field (Leaves ⟨settings, w.store⟩ type field records w.templates i) :=
    ⟨records, target, .same⟩
  rw [step_eq]
  dsimp only
  split
  · exact keep_has before fun store made => ⟨records, target, .same⟩
  · exact keep_has before fun templates made => ⟨records, target, .same⟩
  · split <;> exact before
  · rename_i here _ _ _
    rw [target] at here
    cases here
    exact stepCollection_leaves w _ type field records i target
  · rename_i here _ _ _
    rw [target] at here
    cases here

theorem step_edits (settings : Settings) (type : Descriptor) (w : Workspace) (i : Instruction)
    (field : String) (records : Collection) (target : w.target = .collection field records) :
    (w.step settings type i).2.Edits field records := by
  obtain ⟨after, there, leaves⟩ := step_leaves settings type w i field records target
  exact ⟨after, there, leaves.edited⟩

end Workspace

end Emend.Patch
