import Emend.Patch.Pass
import Emend.Proofs.Patch.InPlace

/-!
Instructions that fail. A failure in the middle of the work leaves no trace in the records and the
templates of a pass.
-/

set_option autoImplicit false

namespace Emend.Patch

namespace Workspace

theorem keep_fails {α : Type} (w after : Workspace) (made : Except PatchError α)
    (put : α → Workspace) (error : PatchError)
    (failed : w.keep made put = (.error error, after)) : after = w := by
  cases made with
  | ok a => cases failed
  | error reason =>
      cases failed
      rfl

/-- Shared variables may change; only an addition does that before it fails. -/
structure Untouched (verb : Verb) (w after : Workspace) : Prop where
  target : after.target = w.target
  templates : after.templates = w.templates
  store : verb ≠ .add → after.store = w.store

theorem Untouched.refl (verb : Verb) (w : Workspace) : Untouched verb w w :=
  ⟨rfl, rfl, fun _ => rfl⟩

theorem stepCollection_fails (w after : Workspace) (c : Context) (type : Descriptor)
    {field : String} {records : Collection} (here : w.target = .collection field records)
    (i : Instruction) (error : PatchError)
    (failed : w.stepCollection c type field records i = (.error error, after)) :
    Untouched i.verb w after := by
  rw [stepCollection_eq here] at failed
  dsimp only at failed
  split at failed
  case h_1 verb =>
    -- The store was threaded through before the record was made.
    rw [keep_fails _ _ _ _ _ failed, verb]
    exact ⟨rfl, rfl, fun other => absurd rfl other⟩
  case h_6 => cases failed
  case h_7 => cases failed
  case h_8 => cases failed
  all_goals
    rw [keep_fails _ _ _ _ _ failed]
    exact .refl _ _

theorem stepSingle_fails (w after : Workspace) (c : Context) (type : Descriptor) {record : Record}
    (here : w.target = .single record) (i : Instruction) (error : PatchError)
    (failed : w.stepSingle c type record i = (.error error, after)) : after = w := by
  rw [stepSingle_eq here] at failed
  split at failed
  · exact keep_fails _ _ _ _ _ failed
  · cases failed
    rfl

theorem step_fails (settings : Settings) (type : Descriptor) (w after : Workspace)
    (i : Instruction) (error : PatchError)
    (failed : w.step settings type i = (.error error, after)) : Untouched i.verb w after := by
  rw [step_eq] at failed
  dsimp only at failed
  split at failed
  · rw [keep_fails _ _ _ _ _ failed]
    exact .refl _ _
  · rw [keep_fails _ _ _ _ _ failed]
    exact .refl _ _
  · split at failed <;> cases failed
    exact .refl _ _
  · rename_i here _ _ _
    exact stepCollection_fails w after _ type here i error failed
  · rename_i here _ _ _
    rw [stepSingle_fails w after _ type here i error failed]
    exact .refl _ _

theorem keep_not_stopped {α : Type} (w after : Workspace) (made : Except PatchError α)
    (put : α → Workspace) (reason : Diagnostic) :
    w.keep made put ≠ (.ok (.stopped reason), after) := by
  intro stopped
  cases made <;> cases stopped

theorem stepCollection_not_stopped (w after : Workspace) (c : Context) (type : Descriptor)
    {field : String} {records : Collection} (here : w.target = .collection field records)
    (i : Instruction) (reason : Diagnostic) :
    w.stepCollection c type field records i ≠ (.ok (.stopped reason), after) := by
  rw [stepCollection_eq here]
  dsimp only
  split
  case h_6 => intro stopped; cases stopped
  case h_7 => intro stopped; cases stopped
  case h_8 => intro stopped; cases stopped
  all_goals exact keep_not_stopped _ _ _ _ _

theorem stepSingle_not_stopped (w after : Workspace) (c : Context) (type : Descriptor)
    {record : Record} (here : w.target = .single record) (i : Instruction) (reason : Diagnostic) :
    w.stepSingle c type record i ≠ (.ok (.stopped reason), after) := by
  rw [stepSingle_eq here]
  split
  · exact keep_not_stopped _ _ _ _ _
  · intro stopped
    cases stopped

/-- Only a test ends a document, and it changes nothing. -/
theorem step_stopped (settings : Settings) (type : Descriptor) (w after : Workspace)
    (i : Instruction) (reason : Diagnostic)
    (stopped : w.step settings type i = (.ok (.stopped reason), after)) :
    i.verb = .test ∧ test ⟨settings, w.store⟩ type.name i = .ok (some reason) ∧ after = w := by
  rw [step_eq] at stopped
  dsimp only at stopped
  split at stopped
  · exact absurd stopped (keep_not_stopped _ _ _ _ _)
  · exact absurd stopped (keep_not_stopped _ _ _ _ _)
  · rename_i verb
    split at stopped
    · cases stopped
    · rename_i failed
      cases stopped
      exact ⟨verb, failed, rfl⟩
    · cases stopped
  · rename_i here _ _ _
    exact absurd stopped (stepCollection_not_stopped _ _ _ _ here _ _)
  · rename_i here _ _ _
    exact absurd stopped (stepSingle_not_stopped _ _ _ _ here _ _)

/-- A failing instruction of any kind leaves the records with their slots and index, or the single
record, and the templates exactly as they were. All but an addition leave the shared variables
alone, too. -/
theorem step_error_untouched (settings : Settings) (type : Descriptor) (w after : Workspace)
    (i : Instruction) (error : PatchError)
    (failed : w.step settings type i = (.error error, after)) :
    after.target = w.target ∧ after.templates = w.templates ∧
      (i.verb ≠ .add → after.store = w.store) :=
  have untouched := step_fails settings type w after i error failed
  ⟨untouched.target, untouched.templates, untouched.store⟩

/-- Ships with an empty slot and an index that leads astray. Only the first has a nickname. -/
def convoy : Collection :=
  ⟨some "ShipId", .indexed
    [some ⟨"Ship", [("ShipId", .int 0), ("Name", .text "Ann"), ("Nick", .text "Ada")]⟩, none,
      some ⟨"Ship", [("ShipId", .int 2), ("Name", .text "Bob")]⟩]
    [(.int 0, 0), (.int 7, 1)]⟩

def shipType : Descriptor :=
  .record "Ship" [("ShipId", .scalar (.integer 32 true)), ("Name", .scalar .text)] (some "ShipId")
    false

def nicknames : Instruction :=
  .ofPayload .updateAll (.mapping
    [("$where", .scalar "value >= 0" .unknown), ("$Name", .scalar "item.Nick" .unknown)] .unknown)

/-- The first ship is renamed before the second one fails. -/
theorem step_error_untouched_updateAll :
    ∃ error after,
      step .initial shipType ⟨.collection "ShipId" convoy, .empty, []⟩ nicknames =
        (.error error, after) ∧
      after.target = .collection "ShipId" convoy ∧ after.templates = [] := by
  have fails : (step .initial shipType ⟨.collection "ShipId" convoy, .empty, []⟩
      nicknames).1.isOk = false := by decide +kernel
  match outcome : step .initial shipType ⟨.collection "ShipId" convoy, .empty, []⟩ nicknames with
  | (.ok done, after) =>
      rw [outcome] at fails
      cases fails
  | (.error error, after) =>
      have untouched := step_error_untouched _ _ _ _ _ _ outcome
      exact ⟨error, after, rfl, untouched.1, untouched.2.1⟩

end Workspace

namespace Pass

@[simp] theorem finish_workspace (p : Pass) (ending : Ending) :
    (p.finish ending).workspace = p.workspace := by
  unfold finish
  split <;> rfl

@[simp] theorem tell_workspace (receive : Receiver) (p : Pass) (d : Diagnostic) :
    (p.tell receive d).workspace = p.workspace := by
  unfold tell
  split
  · rfl
  · exact finish_workspace _ _

theorem step_workspace (receive : Receiver) (settings : Settings) (type : Descriptor) (p : Pass)
    (i : Instruction) :
    (p.step receive settings type i).workspace = (p.workspace.step settings type i).2 := by
  unfold step
  split
  rename_i outcome w made
  rw [made]
  dsimp only
  split
  · simp only [tell_workspace]
  · simp only [tell_workspace, finish_workspace]
  · split
    · simp only [finish_workspace]
    · split <;> simp only [tell_workspace, finish_workspace]

/-- A run keeps of the workspace what every step keeps. -/
theorem run_keeps {receive : Receiver} {settings : Settings} {type : Descriptor}
    {P : Workspace → Prop} {instructions : List Instruction} {p : Pass} (before : P p.workspace)
    (step : ∀ i ∈ instructions, ∀ w : Workspace, P w → P (w.step settings type i).2) :
    P (p.run receive settings type instructions).workspace := by
  induction instructions generalizing p with
  | nil => exact before
  | cons i rest ih =>
      unfold run
      split
      · refine ih ?_ fun later member => step later (List.mem_cons_of_mem _ member)
        rw [step_workspace]
        exact step i List.mem_cons_self _ before
      · exact before

end Pass

end Emend.Patch
