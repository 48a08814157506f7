import Emend.Patch.Patcher
import Emend.Proofs.Patch.InTurn
import Emend.Proofs.Patch.Reserved

/-!
Shared variables stay sorted by their names, with one entry for each, through every instruction,
pass and document.
-/

set_option autoImplicit false

namespace Emend.Patch

namespace Workspace

theorem keep_sorted {α : Type} {w : Workspace} {made : Except PatchError α} {put : α → Workspace}
    (before : w.store.Sorted) (after : ∀ a, made = .ok a → (put a).store.Sorted) :
    (w.keep made put).2.store.Sorted := by
  cases made with
  | ok a => exact after a rfl
  | error e => exact before

theorem stepCollection_sorted {w : Workspace} {settings : Settings} {type : Descriptor}
    {field : String} {records : Collection} {i : Instruction}
    (here : w.target = .collection field records) (sorted : w.store.Sorted) :
    (w.stepCollection ⟨settings, w.store⟩ type field records i).2.store.Sorted := by
  rw [stepCollection_eq here]
  dsimp only
  split
  case h_1 =>
    have reserves := add_reserves type field records ⟨settings, w.store⟩ w.templates i
    exact keep_sorted (reserves.sorted sorted) fun _ _ => reserves.sorted sorted
  case h_6 | h_7 | h_8 => exact sorted
  all_goals exact keep_sorted sorted fun _ _ => sorted

theorem stepSingle_sorted {w : Workspace} {c : Context} {type : Descriptor} {record : Record}
    {i : Instruction} (here : w.target = .single record) (sorted : w.store.Sorted) :
    (w.stepSingle c type record i).2.store.Sorted := by
  rw [stepSingle_eq here]
  split
  · exact keep_sorted sorted fun _ _ => sorted
  · exact sorted

theorem step_sorted {settings : Settings} {type : Descriptor} {w : Workspace} {i : Instruction}
    (sorted : w.store.Sorted) : (w.step settings type i).2.store.Sorted := by
  rw [step_eq]
  dsimp only
  split
  · exact keep_sorted sorted fun _ made => setState_sorted sorted made
  · exact keep_sorted sorted fun _ _ => sorted
  · split <;> exact sorted
  · exact stepCollection_sorted ‹_› sorted
  · exact stepSingle_sorted ‹_› sorted

end Workspace

theorem Pass.run_sorted {receive : Receiver} {settings : Settings} {type : Descriptor}
    {instructions : List Instruction} {p : Pass} (sorted : p.workspace.store.Sorted) :
    (p.run receive settings type instructions).workspace.store.Sorted :=
  run_keeps (P := fun w => w.store.Sorted) sorted fun _ _ _ => Workspace.step_sorted

namespace Patcher

theorem applyPass_sorted {receive : Receiver} {p : Patcher} {typeName : String}
    {instructions : List Instruction} (sorted : p.store.Sorted) :
    (p.applyPass receive typeName instructions).patcher.store.Sorted := by
  unfold applyPass
  dsimp only
  split
  · exact sorted
  · split
    · exact sorted
    · exact Pass.run_sorted sorted

theorem applySections_sorted {receive : Receiver} {p : Patcher} {found : List Section}
    (sorted : p.store.Sorted) : (p.applySections receive found).patcher.store.Sorted := by
  induction found generalizing p with
  | nil => exact sorted
  | cons s rest ih =>
      unfold applySections
      dsimp only
      split
      · exact applyPass_sorted sorted
      · exact ih (applyPass_sorted sorted)

theorem applyDocument_sorted {receive : Receiver} {p : Patcher} {document : Node}
    (sorted : p.store.Sorted) : (p.applyDocument receive document).patcher.store.Sorted := by
  unfold applyDocument
  split
  · exact sorted
  · exact applySections_sorted sorted

end Patcher

end Emend.Patch
