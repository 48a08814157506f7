import Emend.Patch.Patcher
import Emend.Proofs.Collection.Rebuild
import Emend.Proofs.Patch.Edits
import Emend.Proofs.Patch.Failure
import Emend.Proofs.Registry

/-!
Indexed collections after a pass. However a pass ends, the records it leaves are compacted and
their index leads from every key to the first record that has it.
-/

set_option autoImplicit false

namespace Emend.Patch

namespace Pass

theorem run_edits (receive : Receiver) (settings : Settings) (type : Descriptor) (field : String)
    (instructions : List Instruction) (p : Pass) (records : Collection)
    (target : p.workspace.target = .collection field records) :
    (p.run receive settings type instructions).workspace.Edits field records := by
  apply run_keeps (.of_target target)
  rintro i - w ⟨edited, here, first⟩
  obtain ⟨after, there, second⟩ := Workspace.step_edits settings type w i field edited here
  exact ⟨after, there, first.trans second⟩

end Pass

namespace Patcher

theorem applyPass_registry (receive : Receiver) (p : Patcher) (typeName key : String)
    (type : Descriptor) (before : Collection) (field : String) (instructions : List Instruction)
    (registered : p.registry.find? typeName = some (key, ⟨type, .collection before⟩))
    (named : before.identity = some field) :
    (p.applyPass receive typeName instructions).patcher.registry =
      p.registry.update key (stored
        ((Pass.start typeName ⟨.collection field before, p.store, []⟩).run receive p.settings type
          instructions).workspace.target) := by
  unfold applyPass
  rw [registered]
  simp only [target?, named]

/-- What is registered after a pass are the records that its instructions left, rebuilt. -/
theorem applyPass_find? {receive : Receiver} {p : Patcher} {typeName key : String}
    {type : Descriptor} {before left : Collection} {field : String}
    {instructions : List Instruction}
    (registered : p.registry.find? typeName = some (key, ⟨type, .collection before⟩))
    (named : before.identity = some field)
    (target : ((Pass.start typeName ⟨.collection field before, p.store, []⟩).run receive p.settings
      type instructions).workspace.target = .collection field left) :
    (p.applyPass receive typeName instructions).patcher.registry.find? typeName =
      some (key, ⟨type, .collection left.rebuild.2⟩) := by
  rw [applyPass_registry receive p typeName key type before field instructions registered named,
    target, stored]
  exact Registry.find?_update registered _

/-- Let the pass begin with any slots and any index, and end by its last instruction, by a failing
test or by a failing receiver. -/
theorem applyPass_exact (receive : Receiver) (p : Patcher) (typeName key : String)
    (type : Descriptor) (before : Collection) (field : String) (instructions : List Instruction)
    (registered : p.registry.find? typeName = some (key, ⟨type, .collection before⟩))
    (indexed : before.isIndexed) (named : before.identity = some field) :
    ∃ left after : Collection,
      ((Pass.start typeName ⟨.collection field before, p.store, []⟩).run receive p.settings type
        instructions).workspace.target = .collection field left ∧
      (p.applyPass receive typeName instructions).patcher.registry.find? typeName =
        some (key, ⟨type, .collection after⟩) ∧
      after.Compact ∧ after.records.Perm left.records ∧ after.Exact := by
  obtain ⟨left, target, edited⟩ := Pass.run_edits receive p.settings type field instructions
    (Pass.start typeName ⟨.collection field before, p.store, []⟩) before rfl
  have stillIndexed : left.isIndexed := by rw [edited.isIndexed, indexed]
  refine ⟨left, left.rebuild.2, target, ?_, Collection.rebuild_compact stillIndexed,
    Collection.rebuild_records_perm stillIndexed, Collection.rebuild_exact stillIndexed⟩
  rw [applyPass_registry receive p typeName key type before field instructions registered named,
    target, stored]
  exact Registry.find?_update registered _

/-- A convoy with an empty slot and a misleading index, before a pass that fails in one instruction
and takes a ship out in the other. -/
def harbour : Patcher :=
  ⟨⟨[("Ship", ⟨Workspace.shipType, .collection Workspace.convoy⟩)]⟩, .empty, .initial⟩

def departure : List Instruction :=
  [Workspace.nicknames, .ofPayload .remove (.scalar "0" .unknown)]

theorem applyPass_exact_harbour :
    Workspace.convoy.isIndexed ∧ Workspace.convoy.identity = some "ShipId" ∧
    ∃ left after : Collection,
      ((Pass.start "Ship" ⟨.collection "ShipId" Workspace.convoy, .empty, []⟩).run .faithful
        .initial Workspace.shipType departure).workspace.target = .collection "ShipId" left ∧
      (harbour.applyPass .faithful "Ship" departure).patcher.registry.find? "Ship" =
        some ("Ship", ⟨Workspace.shipType, .collection after⟩) ∧
      after.Compact ∧ after.records.Perm left.records ∧ after.Exact :=
  ⟨rfl, rfl, applyPass_exact .faithful harbour "Ship" "Ship" Workspace.shipType Workspace.convoy
    "ShipId" departure rfl rfl rfl⟩

end Patcher

end Emend.Patch
