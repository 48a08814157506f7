import Emend.Patch.Step
import Emend.Proofs.Collection.Edited

/-!
Instructions that work in place. Each verb reads and computes all that it needs before it writes, and
nothing fails after that, so an instruction leaves either what it was to make or what was there.
-/

set_option autoImplicit false

namespace Emend.Patch
open Edit

section
variable (c : Context) (type : Descriptor) (field : String) (records : Collection) (i : Instruction)

theorem addRecord_atomic (entries : Entries) (identity : Datum) (position : Position) :
    (addRecord c type field entries identity position).Atomic :=
  .lift_bind _ fun r => .discard (.adapt _ (Collection.insertion_atomic r))

theorem update_atomic : (update c type field i).Atomic :=
  .lift_bind _ fun _ => .lift_bind _ fun _ => .get_bind fun _ => .lift_bind _ fun _ =>
    .lift_bind _ fun _ => .of_modify _

theorem updateAll_atomic : (updateAll c type i).Atomic :=
  .lift_bind _ fun _ => .lift_bind _ fun _ => .get_bind fun _ => .lift_bind _ fun _ =>
    .lift_bind _ fun patched =>
      .of_forM (fun (records : Collection) (entry : Nat × Record) => records.replace entry.1 entry.2) patched

theorem remove_atomic : (remove c type field i).Atomic :=
  .lift_bind _ fun _ => .get_bind fun _ => .lift_bind _ fun _ => .of_modify _

theorem removeAll_atomic : (removeAll c i).Atomic :=
  .lift_bind _ fun _ => .get_bind fun _ => .lift_bind _ fun chosen =>
    .of_forM (fun (records : Collection) (entry : Nat × Record) => records.remove entry.1) chosen.reverse

theorem updateSingle_atomic : (updateSingle c type i).Atomic :=
  .lift_bind _ fun _ => .get_bind fun _ => .lift_bind _ fun _ => .of_set _

theorem defineTemplate_atomic : (defineTemplate i).Atomic := by
  refine .lift_bind _ fun entries => ?_
  cases entries.find? nameKey with
  | none => exact .of_throw _
  | some node => exact .lift_bind _ fun _ => .of_modify _

theorem addRecord_result (entries : Entries) (identity : Datum) (position : Position) :
    (addRecord c type field entries identity position).result records = (do
      let start := type.newFilledRecord.set field identity
      let record ← patchRecord c type start (entries.withoutIdentity field)
      match records.insert record with
      | .ok (_, records) => .ok records
      | .error e => .error (.identityConflict e.message position)) := by
  unfold addRecord
  rw [result_lift_bind]
  refine bind_congr fun record => ?_
  rw [result_discard_adapt, ← Collection.insert]
  cases records.insert record <;> rfl

theorem update_result : (update c type field i).result records = (do
    let entries ← i.entries
    let identity ← targetIdentity type field c entries i.position
    let (slot, record) ← locate type records identity i.position
    let record ← patchRecord c type record (entries.withoutIdentity field)
    .ok (records.replace slot record)) := by
  unfold update
  simp only [result_lift_bind, result_get_bind, result_modify]

theorem updateAll_result : (updateAll c type i).result records = (do
    let entries ← i.entries
    let formula ← i.predicate entries ("update-all requires a " ++ predicateKey ++ " predicate")
    let chosen ← matching c records formula i.position
    let patched ← chosen.mapM fun (slot, record) =>
      (patchRecord c type record (entries.without predicateKey)).map (slot, ·)
    .ok (patched.foldl (fun records (slot, record) => records.replace slot record) records)) := by
  unfold updateAll
  simp only [result_lift_bind, result_get_bind]
  exact bind_congr fun _ => bind_congr fun _ => bind_congr fun _ => bind_congr fun patched =>
    result_forM (fun (records : Collection) (entry : Nat × Record) => records.replace entry.1 entry.2)
      patched records

theorem remove_result : (remove c type field i).result records = (do
    let identity ← identityToRemove c type field i
    let slot ← slotOf type records identity i.position
    .ok (records.remove slot)) := by
  unfold remove
  simp only [result_lift_bind, result_get_bind, result_modify]

theorem removeAll_result : (removeAll c i).result records = (do
    let formula ← i.formulaToRemove
    let chosen ← matching c records formula i.position
    .ok (chosen.reverse.foldl (fun records (slot, _) => records.remove slot) records)) := by
  unfold removeAll
  simp only [result_lift_bind, result_get_bind]
  exact bind_congr fun _ => bind_congr fun chosen =>
    result_forM (fun (records : Collection) (entry : Nat × Record) => records.remove entry.1)
      chosen.reverse records

theorem updateSingle_result (r : Record) : (updateSingle c type i).result r = (do
    patchRecord c type r (← i.entries)) := by
  unfold updateSingle
  simp only [result_lift_bind, result_get_bind]
  refine bind_congr fun entries => ?_
  cases patchRecord c type r entries <;> rfl

theorem defineTemplate_result (templates : Templates) : (defineTemplate i).result templates = (do
    let entries ← i.entries
    match entries.find? nameKey with
    | none => .error (.structural ("template requires a " ++ nameKey) i.position)
    | some node => do
      let name ← scalarText nameKey i.position node
      .ok (Fields.put (Text.trim name) (entries.without nameKey) templates)) := by
  unfold defineTemplate
  rw [result_lift_bind]
  refine bind_congr fun entries => ?_
  cases entries.find? nameKey with
  | none => rfl
  | some node => exact result_lift_bind _ _ _

/-- What an addition makes of the records, or why it failed, and the shared variables after it. -/
def added (templates : Templates) : Except PatchError Collection × Store :=
  match add c type field templates i records with
  | (.ok _, left, s) => (.ok left, s)
  | (.error e, _, s) => (.error e, s)

theorem added_eq (templates : Templates) : added c type field records i templates =
    match i.newEntries templates with
    | .error e => (.error e, c.store)
    | .ok entries =>
      match newIdentities type field records i.position none c.store entries with
      | (.error e, s) => (.error e, s)
      | (.ok none, s) =>
        (.error (.structural ("add requires " ++ quoted field ++ " or " ++ quoted ("$" ++ field))
          i.position), s)
      | (.ok (some identity), s) =>
        ((addRecord ⟨c.settings, s⟩ type field entries identity i.position).result records, s) := by
  unfold added add
  cases i.newEntries templates with
  | error e => rfl
  | ok entries =>
      dsimp only
      rcases newIdentities type field records i.position none c.store entries with ⟨_ | _ | identity, s⟩
      · rfl
      · rfl
      · dsimp only [result]
        rcases (addRecord ⟨c.settings, s⟩ type field entries identity i.position).on records with
          ⟨_ | _, left⟩ <;> rfl

/-- A record is added only after its identity and its fields are known. -/
theorem add_untouched {templates : Templates} {e : PatchError} {left : Collection} {s : Store}
    (failed : add c type field templates i records = (.error e, left, s)) : left = records := by
  unfold add at failed
  split at failed
  · cases failed
    rfl
  · split at failed
    · cases failed
      rfl
    · cases failed
      rfl
    · rename_i entries _ _ identity s' _
      dsimp only at failed
      cases done : (addRecord ⟨c.settings, s'⟩ type field entries identity i.position).on records with
      | mk outcome left' =>
          rw [done] at failed
          cases failed
          exact addRecord_atomic _ type field entries identity i.position records e _ done

end

namespace Workspace

/-- The workspace with what an instruction made, or as it was. -/
def keep {α : Type} (w : Workspace) (made : Except PatchError α) (put : α → Workspace) :
    Except PatchError Outcome × Workspace :=
  match made with
  | .ok a => (.ok .applied, put a)
  | .error e => (.error e, w)

theorem carry_eq {σ : Type} {work : Edit PatchError σ Unit} (atomic : work.Atomic) {part : σ}
    {w : Workspace} {put : σ → Workspace} (here : put part = w) :
    carry work part put = w.keep (work.result part) put := by
  unfold carry
  rw [atomic.on_eq]
  cases work.result part with
  | ok left => rfl
  | error e =>
      rw [← here]
      rfl

variable {w : Workspace} {c : Context} {type : Descriptor} {i : Instruction}

theorem stepCollection_eq {field : String} {records : Collection}
    (here : w.target = .collection field records) :
    w.stepCollection c type field records i =
      let put (records : Collection) : Workspace := { w with target := .collection field records }
      match i.verb with
      | .add =>
        let (made, store) := added c type field records i w.templates
        { w with store := store }.keep made fun records => { put records with store := store }
      | .update => w.keep ((update c type field i).result records) put
      | .updateAll => w.keep ((updateAll c type i).result records) put
      | .remove => w.keep ((remove c type field i).result records) put
      | .removeAll => w.keep ((removeAll c i).result records) put
      | .state | .template | .test => (.ok .applied, w) := by
  have same : { w with target := .collection field records } = w := by rw [← here]
  unfold stepCollection
  cases i.verb with
  | add =>
      dsimp only [added]
      cases made : add c type field w.templates i records with
      | mk done rest =>
          obtain ⟨left, store⟩ := rest
          cases done with
          | ok _ => rfl
          | error e =>
              cases add_untouched c type field records i made
              dsimp only [keep]
              rw [here]
              rfl
  | update => exact carry_eq (update_atomic c type field i) same
  | updateAll => exact carry_eq (updateAll_atomic c type i) same
  | remove => exact carry_eq (remove_atomic c type field i) same
  | removeAll => exact carry_eq (removeAll_atomic c i) same
  | state | template | test => rfl

theorem stepSingle_eq {record : Record} (here : w.target = .single record) :
    w.stepSingle c type record i =
      match i.verb with
      | .update =>
        w.keep ((updateSingle c type i).result record) fun record =>
          { w with target := .single record }
      | verb =>
        (.error (.structural (verb.name ++ " needs a collection but " ++ type.name ++
          " is a single record") i.position), w) := by
  have same : { w with target := .single record } = w := by rw [← here]
  unfold stepSingle
  cases i.verb with
  | update => exact carry_eq (updateSingle_atomic c type i) same
  | _ => rfl

/-- A step, with all that works in place told by its result. -/
theorem step_eq (settings : Settings) : w.step settings type i =
    let c : Context := ⟨settings, w.store⟩
    match i.verb, w.target with
    | .state, _ => w.keep (setState c i) fun store => { w with store := store }
    | .template, _ =>
      w.keep ((defineTemplate i).result w.templates) fun templates => { w with templates := templates }
    | .test, _ =>
      match test c type.name i with
      | .ok none => (.ok .applied, w)
      | .ok (some reason) => (.ok (.stopped reason), w)
      | .error e => (.error e, w)
    | _, .collection field records => w.stepCollection c type field records i
    | _, .single record => w.stepSingle c type record i := by
  unfold step
  cases i.verb with
  | state =>
      dsimp only
      cases setState ⟨settings, w.store⟩ i <;> rfl
  | template => exact carry_eq (defineTemplate_atomic i) rfl
  | test => rfl
  | _ => cases w.target <;> rfl

end Workspace

end Emend.Patch
