import Emend.Proofs.Collection.Lookup
import Emend.Proofs.Patch.Distinct

/-!
Updates of single records. An update writes the slot that its identity leads to and reads nothing of
the other records but their identities, which no update changes. So two updates that are led to
different slots do not notice each other, whichever of them comes first.
-/

set_option autoImplicit false

namespace Emend.Patch

section
variable (c : Context) (type : Descriptor) (field : String)

/-- The slot that the identity in an instruction leads to, and the record there. -/
def Instruction.located (records : Collection) (i : Instruction) :
    Except PatchError (Nat × Record) := do
  let identity ← targetIdentity type field c (← i.entries) i.position
  locate type records identity i.position

def Instruction.slot? (records : Collection) (i : Instruction) : Option Nat :=
  (i.located c type field records).toOption.map (·.1)

/-- The record after the entries of an instruction other than its identity. -/
def Instruction.patched (i : Instruction) (r : Record) : Except PatchError Record := do
  let entries ← i.entries
  patchRecord c type r (entries.withoutIdentity field)

end

section
variable {c : Context} {type : Descriptor} {field : String} {records : Collection}
  {i : Instruction}

theorem update_eq (c : Context) (type : Descriptor) (field : String) (records : Collection)
    (i : Instruction) :
    (update c type field i).result records = (do
      let (slot, r) ← i.located c type field records
      let next ← i.patched c type field r
      .ok (records.replace slot next)) := by
  rw [update_result]
  unfold Instruction.located Instruction.patched
  cases i.entries with
  | error e => rfl
  | ok entries =>
      simp only [ok_bind, bind_assoc]

theorem get?_of_located {slot : Nat} {r : Record}
    (located : i.located c type field records = .ok (slot, r)) : records.get? slot = some r := by
  obtain ⟨entries, -, located⟩ := of_bind_ok located
  obtain ⟨identity, -, located⟩ := of_bind_ok located
  exact get?_of_locate located

theorem slot?_of_located {slot : Nat} {r : Record}
    (located : i.located c type field records = .ok (slot, r)) :
    i.slot? c type field records = some slot := by
  unfold Instruction.slot?
  rw [located]
  rfl

theorem patched_identityOf? {r next : Record} (named : records.identity = some field)
    (patched : i.patched c type field r = .ok next) :
    records.identityOf? next = records.identityOf? r := by
  obtain ⟨entries, -, patched⟩ := of_bind_ok patched
  exact patchRecord_identityOf? named (fun _ => spares_withoutIdentity) patched

/-- What a successful update has done. -/
structure Updates (c : Context) (type : Descriptor) (field : String) (i : Instruction)
    (records after : Collection) (slot : Nat) (r next : Record) : Prop where
  located : i.located c type field records = .ok (slot, r)
  patched : i.patched c type field r = .ok next
  replaced : after = records.replace slot next

theorem of_update_ok {after : Collection} (success : (update c type field i).result records = .ok after) :
    ∃ slot r next, Updates c type field i records after slot r next := by
  rw [update_eq] at success
  obtain ⟨⟨slot, r⟩, located, success⟩ := of_bind_ok success
  obtain ⟨next, patched, success⟩ := of_bind_ok success
  cases success
  exact ⟨slot, r, next, located, patched, rfl⟩

/-- A record is found where it was after another one was put in a slot with its identity. -/
theorem locate_replace {slot : Nat} {r next : Record} (there : records.get? slot = some r)
    (same : records.identityOf? next = records.identityOf? r) (type : Descriptor)
    (identity : Datum) (position : Position) :
    locate type (records.replace slot next) identity position =
      (locate type records identity position).map fun (found, old) =>
        (found, if found = slot then next else old) := by
  have identities := Collection.identityCells_replace_of_get? there same
  have taken : (records.get? slot).isSome := by rw [there]; rfl
  unfold locate slotOf
  rw [Collection.find?_congr (Collection.replace_isIndexed records slot next) identities]
  cases records.find? identity with
  | none => rfl
  | some found =>
      rw [ok_bind, ok_bind]
      by_cases here : found = slot
      · subst here
        simp only [Collection.get?_replace_self taken, there, Except.map, ↓reduceIte]
      · simp only [Collection.get?_replace_other (Ne.symm here)]
        cases records.get? found <;> simp [Except.map, here]

theorem located_replace {slot : Nat} {r next : Record} (there : records.get? slot = some r)
    (same : records.identityOf? next = records.identityOf? r) (i : Instruction) :
    i.located c type field (records.replace slot next) =
      (i.located c type field records).map fun (found, old) =>
        (found, if found = slot then next else old) := by
  unfold Instruction.located
  cases i.entries with
  | error e => rfl
  | ok entries =>
      rw [ok_bind, ok_bind]
      cases targetIdentity type field c entries i.position with
      | error e => rfl
      | ok identity => exact locate_replace there same type identity i.position

theorem update_replace {slot : Nat} {r next : Record} (there : records.get? slot = some r)
    (same : records.identityOf? next = records.identityOf? r)
    (apart : i.slot? c type field records ≠ some slot) :
    (update c type field i).result (records.replace slot next) =
      ((update c type field i).result records).map (·.replace slot next) := by
  rw [update_eq, update_eq, located_replace there same]
  cases located : i.located c type field records with
  | error e => rfl
  | ok found =>
      obtain ⟨other, old⟩ := found
      have differ : other ≠ slot := by
        rintro rfl
        exact apart (slot?_of_located located)
      change (i.patched c type field (if other = slot then next else old) >>= _) =
        Except.map _ (i.patched c type field old >>= _)
      rw [if_neg differ]
      cases i.patched c type field old with
      | error e => rfl
      | ok x => exact congrArg Except.ok (Collection.replace_comm differ.symm next x)

/-- What an update does is the same before and after an update of a record in another slot. -/
theorem Updates.other {j : Instruction} {after : Collection} {slot : Nat} {r next : Record}
    (done : Updates c type field j records after slot r next)
    (named : records.identity = some field) (apart : i.slot? c type field records ≠ some slot) :
    (update c type field i).result after =
      ((update c type field i).result records).map (·.replace slot next) := by
  rw [done.replaced]
  exact update_replace (get?_of_located done.located) (patched_identityOf? named done.patched) apart

end

namespace Workspace

theorem step_update {w : Workspace} {field : String} {records : Collection} {i : Instruction}
    (settings : Settings) (type : Descriptor) (here : w.target = .collection field records)
    (verb : i.verb = .update) :
    w.step settings type i = w.keep ((update ⟨settings, w.store⟩ type field i).result records)
      fun records => { w with target := .collection field records } := by
  simp only [step_eq, verb, here, stepCollection_eq here]

theorem step_update_other {settings : Settings} {type : Descriptor} {w : Workspace} {field : String}
    {records after : Collection} {i j : Instruction} {slot : Nat} {r next : Record}
    (done : Updates ⟨settings, w.store⟩ type field j records after slot r next)
    (named : records.identity = some field) (verb : i.verb = .update)
    (apart : i.slot? ⟨settings, w.store⟩ type field records ≠ some slot) :
    let between : Workspace := { w with target := .collection field after }
    between.step settings type i =
      between.keep (((update ⟨settings, w.store⟩ type field i).result records).map (·.replace slot next))
        fun records => { w with target := .collection field records } := by
  intro between
  rw [step_update settings type (w := between) rfl verb, done.other named apart]

/-- Two updates that are not led to one slot succeed or fail in either order as each does alone, with
the same error, and leave the same records, variables and templates. -/
theorem step_update_comm (settings : Settings) (type : Descriptor) {w : Workspace} {field : String}
    {records : Collection} {i j : Instruction} (here : w.target = .collection field records)
    (named : records.identity = some field) (first : i.verb = .update) (second : j.verb = .update)
    (apart : ∀ slot, i.slot? ⟨settings, w.store⟩ type field records = some slot →
      j.slot? ⟨settings, w.store⟩ type field records ≠ some slot) :
    ∃ after,
      (w.step settings type i).2.step settings type j = ((w.step settings type j).1, after) ∧
      (w.step settings type j).2.step settings type i = ((w.step settings type i).1, after) := by
  have one := step_update settings type here first
  have other := step_update settings type here second
  cases made : (update ⟨settings, w.store⟩ type field i).result records with
  | error e =>
      rw [made] at one
      rw [one]
      cases also : (update ⟨settings, w.store⟩ type field j).result records with
      | error e' =>
          rw [also] at other
          rw [other]
          exact ⟨w, other, one⟩
      | ok after' =>
          rw [also] at other
          rw [other]
          obtain ⟨slot', r', next', done'⟩ := of_update_ok also
          refine ⟨_, other, ?_⟩
          have unlike : i.slot? ⟨settings, w.store⟩ type field records ≠ some slot' :=
            fun same => apart slot' same (slot?_of_located done'.located)
          refine (step_update_other done' named first unlike).trans ?_
          rw [made]
          rfl
  | ok after =>
      rw [made] at one
      rw [one]
      obtain ⟨slot, r, next, done⟩ := of_update_ok made
      have unlike : j.slot? ⟨settings, w.store⟩ type field records ≠ some slot :=
        apart slot (slot?_of_located done.located)
      have later := step_update_other done named second unlike
      cases also : (update ⟨settings, w.store⟩ type field j).result records with
      | error e' =>
          rw [also] at other later
          rw [other]
          exact ⟨_, later, one⟩
      | ok after' =>
          rw [also] at other later
          rw [other]
          obtain ⟨slot', r', next', done'⟩ := of_update_ok also
          have unlike' : i.slot? ⟨settings, w.store⟩ type field records ≠ some slot' :=
            fun same => apart slot' same (slot?_of_located done'.located)
          have differ : slot ≠ slot' := fun same =>
            unlike (by rw [same]; exact slot?_of_located done'.located)
          refine ⟨_, later, (step_update_other done' named first unlike').trans ?_⟩
          rw [made, done.replaced, done'.replaced]
          exact congrArg (fun records : Collection =>
            (Except.ok Outcome.applied, { w with target := .collection field records }))
            (Collection.replace_comm differ next next')

/-- The first ship is to bear its nickname and the number of the other one. -/
def christening : Instruction :=
  .ofPayload .update (.mapping
    [("ShipId", .scalar "0" .unknown), ("$Name", .scalar "item.Nick .. Next" .unknown)] .unknown)

/-- The ship whose number the variable tells is to be renamed, and to have a berth, which is no field
of a ship. -/
def mooring : Instruction :=
  .ofPayload .update (.mapping
    [("$ShipId", .scalar "Next" .unknown), ("Name", .scalar "Moored" .unknown),
      ("Berth", .scalar "Next" .unknown)] .unknown)

/-- The convoy, and the number of its second ship. -/
def flotilla : Workspace := ⟨.collection "ShipId" convoy, .ofList [("Next", .number 2)], []⟩

/-- The first update succeeds and the second fails, in either order. -/
theorem step_update_comm_flotilla :
    christening.verb = .update ∧ mooring.verb = .update ∧ convoy.identity = some "ShipId" ∧
    christening.slot? ⟨.initial, flotilla.store⟩ shipType "ShipId" convoy = some 0 ∧
    mooring.slot? ⟨.initial, flotilla.store⟩ shipType "ShipId" convoy = some 2 ∧
    ∃ after e, (flotilla.step .initial shipType christening).1.isOk ∧
      (flotilla.step .initial shipType christening).2.step .initial shipType mooring =
        (.error e, after) ∧
      (flotilla.step .initial shipType mooring).2.step .initial shipType christening =
        ((flotilla.step .initial shipType christening).1, after) := by
  have first : christening.slot? ⟨.initial, flotilla.store⟩ shipType "ShipId" convoy = some 0 := by
    decide +kernel
  have second : mooring.slot? ⟨.initial, flotilla.store⟩ shipType "ShipId" convoy = some 2 := by
    decide +kernel
  have fails : (errorOf? (flotilla.step .initial shipType mooring).1).map (·.message) =
      some "Field 'Berth' at <unknown>: expected a field of Ship, found unknown field" := by
    decide +kernel
  obtain ⟨e, failed, -⟩ := of_errorOf?_map fails
  obtain ⟨after, one, other⟩ := step_update_comm (w := flotilla) (i := christening) (j := mooring)
    .initial shipType rfl rfl rfl rfl fun slot here there => by
      cases first.symm.trans here
      cases second.symm.trans there
  rw [failed] at one
  exact ⟨rfl, rfl, rfl, first, second, after, e, by decide +kernel, one, other⟩

end Workspace

end Emend.Patch
