import Emend.Proofs.Collection.NextFree
import Emend.Proofs.Formula.Paths
import Emend.Proofs.Patch.OneByOne
import Emend.Proofs.Patch.Reserved

/-!
Identities by variables. An addition takes the text of an indirect identity for the name of a shared
variable, an update for a formula. The two meet where the text is a name: the addition sets the
variable to the next free identity, and an update by the same text finds the record that was added.
-/

set_option autoImplicit false

namespace Emend.Patch

/-- The entries that give an identity. -/
def Entries.identities (field : String) (entries : Entries) : Entries :=
  entries.filter fun entry => (identityForm? field entry.1).isSome

/-- The identity is given by this text, indirectly and in the first place. -/
def Entries.LedBy (field text : String) (entries : Entries) : Prop :=
  ∃ key position, (entries.identities field).head? = some (key, .scalar text position) ∧
    identityForm? field key = some .indirect

/-- The identity is given by this text, indirectly and nowhere else. -/
def Entries.OnlyBy (field text : String) (entries : Entries) : Prop :=
  ∃ key position, entries.identities field = [(key, .scalar text position)] ∧
    identityForm? field key = some .indirect

theorem startsWith_of_indirect {field key : String}
    (form : identityForm? field key = some .indirect) :
    key.startsWith "$" = true := by
  unfold identityForm? at form
  split at form
  · cases form
  · split at form
    · rename_i marked
      exact (Bool.and_eq_true_iff.mp marked).1
    · cases form

section
variable {type : Descriptor} {field : String} {records : Collection} {path : List String}

theorem identityOfValue_ofInt {n : Int} (holds : HoldsNumbers type field [n])
    (within : n.natAbs ≤ 2 ^ 53) (position : Position) :
    identityOfValue type field (.ofDatum (.int n)) position = .ok (.int n) := by
  obtain ⟨declared, bits, signed, typed, width, bounded⟩ := holds
  obtain ⟨above, below⟩ := bounded n List.mem_cons_self
  unfold identityOfValue
  rw [typed]
  dsimp only
  rw [store, ScalarKind.store_int width within above below]

theorem newIdentities_identities (type : Descriptor) (field : String) (records : Collection)
    (position : Position) (found : Option Datum) (s : Store) (entries : Entries) :
    newIdentities type field records position found s entries =
      newIdentities type field records position found s (entries.identities field) := by
  induction entries generalizing found s with
  | nil => rfl
  | cons entry rest ih =>
      obtain ⟨key, node⟩ := entry
      unfold Entries.identities
      cases form : identityForm? field key with
      | none =>
          rw [newIdentities, form, List.filter_cons_of_neg (by simp [form])]
          exact ih found s
      | some form' =>
          rw [List.filter_cons_of_pos (by simp [form])]
          simp only [newIdentities, form, ih]
          rfl

/-- A variable that is not set gets the next free identity, which is that of the new record. -/
theorem newIdentities_onlyBy (ints : records.HasInts)
    (holds : HoldsNumbers type field [records.nextFreeId]) (named : Formula.isPath path = true)
    {s : Store} (unset : s.get? (".".intercalate path) = none) {entries : Entries}
    (only : entries.OnlyBy field (".".intercalate path)) (position : Position) :
    newIdentities type field records position none s entries =
      (.ok (some (.int records.nextFreeId)),
        s.insert (".".intercalate path) (.ofDatum (.int records.nextFreeId))) := by
  obtain ⟨key, place, single, form⟩ := only
  have inserted : s.getOrInsert (".".intercalate path) (.number (Float.ofInt records.nextFreeId)) =
      (.ofDatum (.int records.nextFreeId),
        s.insert (".".intercalate path) (.ofDatum (.int records.nextFreeId))) := by
    unfold Store.getOrInsert
    rw [unset]
    rfl
  rw [newIdentities_identities, single, newIdentities, form]
  simp only [scalarText, newIdentity, Formula.trim_path named, inserted,
    identityOfValue_ofInt holds ints.nextFreeId_within, newIdentities]

theorem targetIdentity_ledBy (type : Descriptor) {c : Context}
    (allowed : 1 ≤ c.settings.formulaOptions.depthLimit) (named : Formula.isPath path = true) {v : Value}
    (given : c.store.get? (".".intercalate path) = some v) {entries : Entries}
    (led : entries.LedBy field (".".intercalate path)) (position : Position) :
    ∃ place, targetIdentity type field c entries position = identityOfValue type field v place := by
  obtain ⟨key, place, first, form⟩ := led
  rw [Entries.identities, List.head?_filter] at first
  have known : Formula.Scope.value? (c.scope []) (".".intercalate path) = some v := by
    simpa [Formula.Scope.value?, Context.scope, Formula.Provider.get?, Fields.findAnyCase?]
      using given
  have evaluated (position : Position) :
      c.evaluate [] (".".intercalate path) position = .ok v := by
    unfold Context.evaluate Context.formula
    rw [Formula.evaluate_path named allowed known]
  refine ⟨place.or position, ?_⟩
  unfold targetIdentity
  rw [first]
  dsimp only
  rw [scalarText, ok_bind, startsWith_of_indirect form, if_pos rfl, evaluated, ok_bind]
  rfl

/-- What an addition by a name does: the record is the last one, and the variable has its identity. -/
theorem add_onlyBy (ints : records.HasInts) (indexed : records.identity = some field)
    (holds : HoldsNumbers type field [records.nextFreeId]) (named : Formula.isPath path = true)
    {c : Context} (unset : c.store.get? (".".intercalate path) = none) {templates : Templates}
    {i : Instruction} {entries : Entries} (made : i.newEntries templates = .ok entries)
    (only : entries.OnlyBy field (".".intercalate path)) {after : Collection} {s : Store}
    (success : added c type field records i templates = (.ok after, s)) :
    ∃ r, after = records.push r ∧ records.identityOf? r = some (.int records.nextFreeId) ∧
      s = c.store.insert (".".intercalate path) (.ofDatum (.int records.nextFreeId)) := by
  rw [added_eq, made] at success
  dsimp only at success
  rw [newIdentities_onlyBy ints holds named unset only] at success
  obtain ⟨added, rfl⟩ := Prod.mk.inj success
  obtain ⟨r, slot, patched, inserted⟩ := addRecord_ok added
  refine ⟨r, (Collection.insert_ok inserted).2, ?_, rfl⟩
  rw [patchRecord_identityOf? indexed (fun _ => spares_withoutIdentity) patched]
  unfold Collection.identityOf?
  rw [indexed]
  exact Fields.findAnyCase?_put_self _ _ _

/-- An update by the name of a variable that has the identity of the last record locates it. -/
theorem located_ledBy (ints : records.HasInts)
    (holds : HoldsNumbers type field [records.nextFreeId]) (named : Formula.isPath path = true)
    {c : Context} (allowed : 1 ≤ c.settings.formulaOptions.depthLimit)
    (given : c.store.get? (".".intercalate path) = some (.ofDatum (.int records.nextFreeId)))
    {r : Record} (identified : records.identityOf? r = some (.int records.nextFreeId))
    {i : Instruction} {entries : Entries} (payload : i.entries = .ok entries)
    (led : entries.LedBy field (".".intercalate path)) :
    i.located c type field (records.push r) = .ok (records.slotCount, r) := by
  obtain ⟨place, meant⟩ := targetIdentity_ledBy type allowed named given led i.position
  unfold Instruction.located
  rw [payload, ok_bind, meant, identityOfValue_ofInt holds ints.nextFreeId_within, ok_bind]
  unfold locate slotOf
  rw [ints.find?_push identified, ok_bind, Collection.get?_push_self]

end

namespace Workspace

theorem of_step_add {settings : Settings} {type : Descriptor} {w after : Workspace} {field : String}
    {records : Collection} {i : Instruction} (target : w.target = .collection field records)
    (adds : i.verb = .add) (success : w.step settings type i = (.ok .applied, after)) :
    ∃ made s, added ⟨settings, w.store⟩ type field records i w.templates = (.ok made, s) ∧
      after = ⟨.collection field made, s, w.templates⟩ := by
  simp only [step_eq, adds, target, stepCollection_eq target] at success
  cases outcome : added ⟨settings, w.store⟩ type field records i w.templates with
  | mk done s =>
      rw [outcome] at success
      cases done with
      | error e => cases success
      | ok made =>
          cases success
          exact ⟨made, s, rfl, rfl⟩

theorem step_update_located {settings : Settings} {type : Descriptor} {w : Workspace}
    {field : String} {records : Collection} {i : Instruction} {slot : Nat} {r : Record}
    (target : w.target = .collection field records) (verb : i.verb = .update)
    (located : i.located ⟨settings, w.store⟩ type field records = .ok (slot, r)) :
    w.step settings type i = w.keep (i.patched ⟨settings, w.store⟩ type field r) fun next =>
      { w with target := .collection field (records.replace slot next) } := by
  rw [step_update settings type target verb, update_eq, located, ok_bind]
  dsimp only
  cases i.patched ⟨settings, w.store⟩ type field r <;> rfl

/-- If an addition by the name of a variable that is not set succeeds, the variable has the identity
of the new record, which no record had before, and every update by that name finds the new record. -/
theorem step_add_indirect {settings : Settings} {type : Descriptor} {w after : Workspace}
    {field : String} {records : Collection} {path : List String} {i : Instruction}
    {entries : Entries} (target : w.target = .collection field records)
    (indexed : records.identity = some field) (ints : records.HasInts)
    (holds : HoldsNumbers type field [records.nextFreeId])
    (allowed : 1 ≤ settings.formulaOptions.depthLimit) (named : Formula.isPath path = true)
    (unset : w.store.get? (".".intercalate path) = none) (adds : i.verb = .add)
    (made : i.newEntries w.templates = .ok entries)
    (only : entries.OnlyBy field (".".intercalate path))
    (success : w.step settings type i = (.ok .applied, after)) :
    ∃ r identity, after.target = .collection field (records.push r) ∧
      records.identityOf? r = some identity ∧
      after.store.get? (".".intercalate path) = some (.ofDatum identity) ∧
      (∀ earlier ∈ records.givenIdentities, earlier.sameIdentity identity = false) ∧
      ∀ (u : Instruction) (entries : Entries), u.verb = .update → u.entries = .ok entries →
        entries.LedBy field (".".intercalate path) →
        u.located ⟨settings, after.store⟩ type field (records.push r) =
          .ok (records.slotCount, r) ∧
        after.step settings type u =
          after.keep (u.patched ⟨settings, after.store⟩ type field r) fun next =>
            { after with
              target := .collection field ((records.push r).replace records.slotCount next) } := by
  obtain ⟨made', s, outcome, rfl⟩ := of_step_add target adds success
  obtain ⟨r, rfl, identified, rfl⟩ := add_onlyBy ints indexed holds named unset made only outcome
  have given : (w.store.insert (".".intercalate path)
      (.ofDatum (.int records.nextFreeId))).get? (".".intercalate path) =
      some (.ofDatum (.int records.nextFreeId)) := by
    rw [Store.get?_insert, if_pos rfl]
  refine ⟨r, .int records.nextFreeId, rfl, identified, given,
    fun earlier member => ints.fresh member, fun u entries verb payload led => ?_⟩
  have located := located_ledBy (c := ⟨settings, _⟩) ints holds named allowed given identified
    payload led
  exact ⟨located, step_update_located rfl verb located⟩

/-- A ship whose number a variable is to have. -/
def commissioned : Entries :=
  [("Name", .scalar "Victory" .unknown), ("$ShipId", .scalar "fleet.Flagship" .unknown)]

def commissioning : Instruction := .ofPayload .add (.mapping commissioned .unknown)

/-- The same ship, by its variable. -/
def refitted : Entries :=
  [("$ShipId", .scalar "fleet.Flagship" .unknown), ("Name", .scalar "Temeraire" .unknown)]

def refitting : Instruction := .ofPayload .update (.mapping refitted .unknown)

theorem convoy_hasInts : convoy.HasInts := by
  have small : ∀ n ∈ [(0 : Int), 2], n.natAbs < 2 ^ 53 := by decide
  intro identity given
  rw [convoy_numbered.givenIdentities] at given
  obtain ⟨n, listed, rfl⟩ := List.mem_map.mp given
  exact ⟨n, rfl, small n listed⟩

theorem identityForm?_dollar : identityForm? "ShipId" "$ShipId" = some .indirect := by cbv

theorem commissioned_onlyBy : commissioned.OnlyBy "ShipId" "fleet.Flagship" := by
  have other : identityForm? "ShipId" "Name" = none := by cbv
  refine ⟨"$ShipId", .unknown, ?_, identityForm?_dollar⟩
  unfold Entries.identities commissioned
  rw [List.filter_cons_of_neg (by rw [other]; decide),
    List.filter_cons_of_pos (by rw [identityForm?_dollar]; rfl), List.filter_nil]

theorem refitted_ledBy : refitted.LedBy "ShipId" "fleet.Flagship" := by
  refine ⟨"$ShipId", .unknown, ?_, identityForm?_dollar⟩
  unfold Entries.identities refitted
  rw [List.filter_cons_of_pos (by rw [identityForm?_dollar]; rfl), List.head?_cons]

/-- The convoy before the ship is added. -/
def harboured : Workspace := ⟨.collection "ShipId" convoy, .empty, []⟩

/-- The new ship comes after two others and a slot that is empty. -/
theorem step_add_indirect_commissioning :
    convoy.HasInts ∧ HoldsNumbers shipType "ShipId" [convoy.nextFreeId] ∧
    Formula.isPath ["fleet", "Flagship"] = true ∧
    ∃ after r identity, harboured.step .initial shipType commissioning = (.ok .applied, after) ∧
      convoy.identityOf? r = some identity ∧
      after.store.get? "fleet.Flagship" = some (.ofDatum identity) ∧
      refitting.located ⟨.initial, after.store⟩ shipType "ShipId" (convoy.push r) =
        .ok (convoy.slotCount, r) := by
  have holds : HoldsNumbers shipType "ShipId" [convoy.nextFreeId] :=
    ⟨"ShipId", 32, true, rfl, by decide, by decide⟩
  have named : Formula.isPath ["fleet", "Flagship"] = true := by decide +kernel
  have text : ".".intercalate ["fleet", "Flagship"] = "fleet.Flagship" := by decide +kernel
  have untemplated : (commissioned.find? templateKey).isNone := by decide +kernel
  have made : commissioning.newEntries harboured.templates = .ok commissioned := by
    change expandTemplate [] commissioned .unknown = _
    unfold expandTemplate
    rw [Option.isNone_iff_eq_none.mp untemplated]
  have applied : (match (harboured.step .initial shipType commissioning).1 with
      | .ok .applied => true
      | _ => false) = true := by decide +kernel
  generalize outcome : harboured.step .initial shipType commissioning = result at applied ⊢
  obtain ⟨answer, after⟩ := result
  obtain rfl : answer = .ok .applied := by
    rcases answer with e | answer
    · cases applied
    · cases answer <;> first | rfl | cases applied
  obtain ⟨r, identity, -, identified, given, -, located⟩ :=
    step_add_indirect rfl rfl convoy_hasInts holds (by decide) named rfl rfl made
      (text.symm ▸ commissioned_onlyBy) outcome
  rw [text] at given located
  exact ⟨convoy_hasInts, holds, named, after, r, identity, rfl, identified, given,
    (located refitting refitted rfl rfl refitted_ledBy).1⟩

end Workspace

end Emend.Patch
