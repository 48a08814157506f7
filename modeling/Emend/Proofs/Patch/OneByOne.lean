import Emend.Proofs.Collection.Numbered
import Emend.Proofs.Number.Numeral
import Emend.Proofs.Patch.Located
import Emend.Proofs.Patch.Stored

/-!
Updates of all chosen records, made one by one. Where the records are numbered, the update of all
records on which a formula is true does what an update of each of them by its number does, in the
order of the slots.
-/

set_option autoImplicit false

namespace Emend

namespace ScalarKind

/-- A double is no narrower than the bounds of any width. -/
theorem asDouble_contains : ∀ bits ∈ [8, 16, 32, 64], ∀ signed,
    asDouble (bounds bits signed).1 ≤ (bounds bits signed).1 ∧
      (bounds bits signed).2 ≤ asDouble (bounds bits signed).2 := by
  decide

theorem toInteger_ofInt {bits : Nat} {signed : Bool} {n : Int} (width : bits ∈ [8, 16, 32, 64])
    (within : n.natAbs ≤ 2 ^ 53) (above : (bounds bits signed).1 ≤ n)
    (below : n ≤ (bounds bits signed).2) : toInteger bits signed (Float.ofInt n) = .ok n := by
  obtain ⟨least, greatest⟩ := asDouble_contains bits width signed
  have kept : Datum.clamp n = n :=
    clamp_of_mem (by unfold Datum.leastInt; omega) (by unfold Datum.greatestInt; omega)
  rw [toInteger_of_rounded (Number.roundInt?_ofInt .halfAway within), if_pos (by omega), kept]

theorem store_int {bits : Nat} {signed : Bool} {n : Int} (width : bits ∈ [8, 16, 32, 64])
    (within : n.natAbs ≤ 2 ^ 53) (above : (bounds bits signed).1 ≤ n)
    (below : n ≤ (bounds bits signed).2) :
    (integer bits signed).store (.ofDatum (.int n)) = .ok (.int n) := by
  change (integer bits signed).store (.number (Float.ofInt n)) = _
  rw [store_number, toInteger_ofInt width within above below]
  rfl

theorem read_toString {bits : Nat} {signed : Bool} {n : Int} (width : bits ∈ [8, 16, 32, 64])
    (within : n.natAbs ≤ 2 ^ 53) (above : (bounds bits signed).1 ≤ n)
    (below : n ≤ (bounds bits signed).2) :
    (integer bits signed).read (toString n) = .ok (.int n) := by
  rw [read_of_parseNumber? (Value.parseNumber?_toString within)]
  exact store_int width within above below

end ScalarKind

namespace Patch

/-- The field is for integers, and wide enough for all of these. -/
def HoldsNumbers (type : Descriptor) (field : String) (ids : List Int) : Prop :=
  ∃ declared bits signed, type.field? field = some (declared, .scalar (.integer bits signed)) ∧
    bits ∈ [8, 16, 32, 64] ∧
    ∀ n ∈ ids, (ScalarKind.bounds bits signed).1 ≤ n ∧ n ≤ (ScalarKind.bounds bits signed).2

/-- The number that the field has for an identity. -/
def numberOf? (field : String) (r : Record) : Option Int :=
  match r.getAnyCase? field with
  | some (.int n) => some n
  | _ => none

/-- The update of the record with this number. -/
def updateOf (key : String) (fields : Entries) (position : Position) (n : Int) : Instruction :=
  .ofPayload .update (.mapping ((key, .scalar (toString n) position) :: fields) position)

/-- The records on which a formula is true, in the order of the slots. -/
def chosenRecords (c : Context) (records : Collection) (formula : String) (position : Position) :
    List Record :=
  records.records.filter fun r =>
    (c.evaluateBool (choiceBindings records r) formula position).toOption = some true

section
variable {c : Context} {type : Descriptor} {field key : String} {fields : Entries} {ids : List Int}
  {position : Position} {n : Int}

theorem literalIdentity_toString (holds : HoldsNumbers type field ids) (listed : n ∈ ids)
    (within : n.natAbs ≤ 2 ^ 53) (place : Position) :
    literalIdentity type field (toString n) place = .ok (.int n) := by
  obtain ⟨declared, bits, signed, typed, width, bounded⟩ := holds
  obtain ⟨above, below⟩ := bounded n listed
  unfold literalIdentity
  rw [typed]
  dsimp only
  rw [(Text.isNumeral_toString n).trim, ScalarKind.read_toString width within above below]

variable (literal : identityForm? field key = some .literal) (plain : key.startsWith "$" = false)
  (spared : ∀ entry ∈ fields, identityForm? field entry.1 = none)

include literal in
theorem find?_updateOf :
    List.find? (fun entry => (identityForm? field entry.1).isSome)
      ((key, .scalar (toString n) position) :: fields) =
        some (key, .scalar (toString n) position) := by
  rw [List.find?_cons, literal]
  rfl

include literal plain in
theorem located_updateOf {records : Collection} {slot : Nat} {r : Record}
    (numbered : records.Numbered ids) (holds : HoldsNumbers type field ids)
    (there : records.get? slot = some r) (identified : records.identityOf? r = some (.int n)) :
    (updateOf key fields position n).located c type field records = .ok (slot, r) := by
  have here : records.identityAt? slot = some (.int n) := by
    unfold Collection.identityAt?
    rw [there]
    exact identified
  have listed : n ∈ ids := by
    have member := Collection.mem_givenIdentities here
    rw [numbered.givenIdentities] at member
    obtain ⟨m, inside, same⟩ := List.mem_map.mp member
    cases same
    exact inside
  change ((targetIdentity type field c ((key, .scalar (toString n) position) :: fields) position) >>=
    (locate type records · position)) = _
  have named : targetIdentity type field c ((key, .scalar (toString n) position) :: fields) position =
      .ok (.int n) := by
    unfold targetIdentity
    rw [find?_updateOf literal]
    dsimp only
    rw [scalarText, ok_bind, plain, if_neg Bool.false_ne_true]
    exact literalIdentity_toString holds listed (numbered.within n listed) _
  rw [named, ok_bind]
  unfold locate slotOf
  rw [numbered.find? here, ok_bind, there]

include literal spared in
theorem patched_updateOf (r : Record) :
    (updateOf key fields position n).patched c type field r = patchRecord c type r fields := by
  have others : Entries.withoutIdentity field ((key, .scalar (toString n) position) :: fields) =
      fields := by
    unfold Entries.withoutIdentity
    rw [List.filter_cons_of_neg (by rw [literal]; exact Bool.false_ne_true)]
    exact List.filter_eq_self.mpr fun entry member => by rw [spared entry member]; rfl
  change patchRecord c type r _ = _
  rw [others]

include literal plain spared in
theorem update_updateOf {records : Collection} {slot : Nat} {r next : Record}
    (numbered : records.Numbered ids) (holds : HoldsNumbers type field ids)
    (there : records.get? slot = some r) (identified : records.identityOf? r = some (.int n))
    (patches : patchRecord c type r fields = .ok next) :
    (update c type field (updateOf key fields position n)).result records =
      .ok (records.replace slot next) := by
  rw [update_eq, located_updateOf literal plain numbered holds there identified, ok_bind]
  dsimp only
  rw [patched_updateOf literal spared, patches, ok_bind]

end

theorem of_select_ok {choose : Record → Except PatchError Bool}
    {entries chosen : List (Nat × Record)} (success : select choose entries = .ok chosen) :
    (∀ entry ∈ entries, ∃ b, choose entry.2 = .ok b) ∧
      chosen.map (·.2) = (entries.map (·.2)).filter fun r => (choose r).toOption = some true := by
  induction entries generalizing chosen with
  | nil =>
      cases success
      exact ⟨fun _ member => (List.not_mem_nil member).elim, rfl⟩
  | cons entry rest ih =>
      obtain ⟨flag, here, success⟩ := of_bind_ok success
      obtain ⟨others, made, success⟩ := of_bind_ok success
      obtain ⟨decided, filtered⟩ := ih made
      refine ⟨List.forall_mem_cons.mpr ⟨⟨flag, here⟩, decided⟩, ?_⟩
      cases success
      cases flag with
      | true =>
          rw [List.map_cons, List.filter_cons_of_pos (by simp [here, Except.toOption])]
          exact congrArg (entry.2 :: ·) filtered
      | false =>
          rw [List.map_cons, List.filter_cons_of_neg (by simp [here, Except.toOption])]
          exact filtered

/-- What a successful update of all records has done, if its entries and its formula are known. -/
theorem of_updateAll_ok {c : Context} {type : Descriptor} {records after : Collection}
    {i : Instruction} {entries : Entries} {formula : String} {place spot : Position}
    (payload : i.payload = .mapping entries place)
    (predicate : entries.find? predicateKey = some (.scalar formula spot))
    (success : (updateAll c type i).result records = .ok after) :
    ∃ chosen patched, matching c records formula i.position = .ok chosen ∧
      (chosen.mapM fun (slot, r) =>
        (patchRecord c type r (entries.without predicateKey)).map (slot, ·)) = .ok patched ∧
      after = patched.foldl (fun records (slot, record) => records.replace slot record) records := by
  have given : i.entries = .ok entries := by
    unfold Instruction.entries
    rw [payload]
  have read (missing : String) : i.predicate entries missing = .ok formula := by
    unfold Instruction.predicate
    rw [predicate]
    rfl
  rw [updateAll_result] at success
  rw [given, ok_bind, read, ok_bind] at success
  obtain ⟨chosen, matched, success⟩ := of_bind_ok success
  obtain ⟨patched, made, success⟩ := of_bind_ok success
  cases success
  exact ⟨chosen, patched, matched, made, rfl⟩

theorem Pass.step_faithful {settings : Settings} {type : Descriptor} {p : Pass} {i : Instruction}
    {w : Workspace} (applied : p.workspace.step settings type i = (.ok .applied, w)) :
    ∃ told, p.step .faithful settings type i =
      ⟨w, { p.report with applied := p.report.applied + 1 }, told⟩ := by
  unfold Pass.step
  rw [applied]
  exact ⟨_, rfl⟩

section
variable {settings : Settings} {type : Descriptor} {field key : String} {fields : Entries}
  {ids : List Int} (position : Position)
  (literal : identityForm? field key = some .literal) (plain : key.startsWith "$" = false)
  (spared : ∀ entry ∈ fields, identityForm? field entry.1 = none)
include literal plain spared

/-- The update of the record with a number puts that record back. -/
theorem step_updateOf {p : Pass} {current : Collection} {slot : Nat} {r next : Record} {n : Int}
    (here : p.workspace.target = .collection field current) (numbered : current.Numbered ids)
    (holds : HoldsNumbers type field ids) (there : current.get? slot = some r)
    (identified : current.identityOf? r = some (.int n))
    (patches : patchRecord ⟨settings, p.workspace.store⟩ type r fields = .ok next) :
    ∃ told, p.step .faithful settings type (updateOf key fields position n) =
      ⟨{ p.workspace with target := .collection field (current.replace slot next) },
        { p.report with applied := p.report.applied + 1 }, told⟩ := by
  have applied := Workspace.step_update settings type here
    (i := updateOf key fields position n) rfl
  rw [update_updateOf literal plain spared numbered holds there identified patches] at applied
  exact Pass.step_faithful applied

/-- The induction is on the records that are left. They are found as they were, since the identities
are still the same and the slots are others. -/
theorem run_updatesOf {p : Pass} {current : Collection} {chosen patched : List (Nat × Record)}
    {numbers : List Int} (here : p.workspace.target = .collection field current)
    (running : p.report.ending = .completed) (named : current.identity = some field)
    (numbered : current.Numbered ids) (holds : HoldsNumbers type field ids)
    (there : ∀ entry ∈ chosen, current.get? entry.1 = some entry.2)
    (apart : chosen.Pairwise fun a b => a.1 < b.1)
    (identified : chosen.map (·.2.getAnyCase? field) = numbers.map fun n => some (.int n))
    (made : (chosen.mapM fun (slot, r) =>
      (patchRecord ⟨settings, p.workspace.store⟩ type r fields).map (slot, ·)) = .ok patched) :
    let pass := p.run .faithful settings type (numbers.map (updateOf key fields position))
    pass.workspace = { p.workspace with
      target := .collection field
        (patched.foldl (fun records (slot, record) => records.replace slot record) current) } ∧
      pass.report = { p.report with applied := p.report.applied + numbers.length } := by
  induction chosen generalizing p current patched numbers with
  | nil =>
      cases numbers with
      | cons n rest => cases identified
      | nil =>
          cases made
          obtain ⟨⟨target, store, templates⟩, report, diagnostics⟩ := p
          cases here
          exact ⟨rfl, rfl⟩
  | cons entry rest ih =>
      obtain ⟨slot, r⟩ := entry
      cases numbers with
      | nil => cases identified
      | cons n others =>
          rw [List.map_cons, List.map_cons, List.cons.injEq] at identified
          rw [List.mapM_cons] at made
          obtain ⟨entry, first, made⟩ := of_bind_ok made
          obtain ⟨next, patches, rfl⟩ := of_map_ok first
          obtain ⟨later, rest_made, made⟩ := of_bind_ok made
          cases made
          obtain ⟨before, after⟩ := List.pairwise_cons.mp apart
          have taken : current.get? slot = some r := there _ List.mem_cons_self
          have number : current.identityOf? r = some (.int n) := by
            unfold Collection.identityOf?
            rw [named]
            exact identified.1
          have same : current.identityOf? next = current.identityOf? r :=
            patchRecord_identityOf? named
              (fun entry member => spares_of_identityForm? (spared entry member)) patches
          obtain ⟨told, stepped⟩ :=
            step_updateOf position literal plain spared here numbered holds taken number patches
          let between : Workspace :=
            { p.workspace with target := .collection field (current.replace slot next) }
          let report := { p.report with applied := p.report.applied + 1 }
          have onward := ih (p := ⟨between, report, told⟩) rfl running
            ((Collection.replace_identity current slot next).trans named)
            (numbered.replace taken same)
            (fun entry member => by
              rw [Collection.get?_replace_other (Nat.ne_of_lt (before entry member))]
              exact there entry (List.mem_cons_of_mem _ member))
            after identified.2 rest_made
          rw [List.map_cons, Pass.run, running, stepped]
          refine ⟨onward.1, onward.2.trans ?_⟩
          rw [List.length_cons, Nat.add_right_comm]
          rfl

end

theorem map_getAnyCase? {field : String} {records : List Record}
    (numbered : ∀ r ∈ records, ∃ n, r.getAnyCase? field = some (.int n)) :
    records.map (·.getAnyCase? field) =
      (records.filterMap (numberOf? field)).map fun n => some (.int n) := by
  induction records with
  | nil => rfl
  | cons r rest ih =>
      obtain ⟨n, here⟩ := numbered r List.mem_cons_self
      have number : numberOf? field r = some n := by
        unfold numberOf?
        rw [here]
      rw [List.filterMap_cons_some number, List.map_cons, List.map_cons, here,
        ih fun later member => numbered later (List.mem_cons_of_mem _ member)]

namespace Workspace

theorem step_updateAll {w : Workspace} {field : String} {records : Collection} {i : Instruction}
    (settings : Settings) (type : Descriptor) (here : w.target = .collection field records)
    (verb : i.verb = .updateAll) :
    w.step settings type i = w.keep ((updateAll ⟨settings, w.store⟩ type i).result records)
      fun records => { w with target := .collection field records } := by
  simp only [step_eq, verb, here, stepCollection_eq here]

/-- If the update of all records on which a formula is true succeeds, the formula has a value on every
record, and an update of each chosen record by its number, in the order of the slots, is applied and
leaves the same. -/
theorem step_updateAll_oneByOne (settings : Settings) (type : Descriptor) {w after : Workspace}
    {field key formula : String} {records : Collection} {ids : List Int} {i : Instruction}
    {entries : Entries} {place spot : Position} (position : Position)
    (here : w.target = .collection field records) (named : records.identity = some field)
    (numbered : records.Numbered ids) (holds : HoldsNumbers type field ids)
    (verb : i.verb = .updateAll) (payload : i.payload = .mapping entries place)
    (predicate : entries.find? predicateKey = some (.scalar formula spot))
    (spared : ∀ entry ∈ entries.without predicateKey, identityForm? field entry.1 = none)
    (literal : identityForm? field key = some .literal) (plain : key.startsWith "$" = false)
    (success : w.step settings type i = (.ok .applied, after)) :
    let c : Context := ⟨settings, w.store⟩
    let numbers :=
      (chosenRecords c records formula i.position).filterMap (numberOf? field)
    let pass := (Pass.start type.name w).run .faithful settings type
      (numbers.map (updateOf key (entries.without predicateKey) position))
    (∀ r ∈ records.records, ∃ b,
      c.evaluateBool (choiceBindings records r) formula i.position = .ok b) ∧
    pass.workspace = after ∧ pass.report = ⟨type.name, numbers.length, 0, .completed⟩ := by
  intro c numbers pass
  rw [step_updateAll settings type here verb] at success
  cases made : (updateAll c type i).result records with
  | error e =>
      rw [made] at success
      cases success
  | ok done =>
      rw [made] at success
      have left : { w with target := .collection field done } = after := congrArg Prod.snd success
      obtain ⟨chosen, patched, matched, each, rfl⟩ := of_updateAll_ok payload predicate made
      obtain ⟨decided, filtered⟩ := of_select_ok matched
      have listed : records.live.map (·.2) = records.records := Collection.map_snd_liveFrom 0 _
      rw [listed] at filtered
      have live := (select_sublist matched).subset
      have ints : ∀ r ∈ records.records, ∃ n, r.getAnyCase? field = some (.int n) := by
        intro r member
        obtain ⟨n, identified⟩ := numbered.exists_number member
        unfold Collection.identityOf? at identified
        rw [named] at identified
        exact ⟨n, identified⟩
      have identified : chosen.map (·.2.getAnyCase? field) = numbers.map fun n => some (.int n) := by
        refine Eq.trans ?_ (map_getAnyCase? fun r member => ints r (List.mem_of_mem_filter member))
        unfold chosenRecords
        rw [← filtered, List.map_map]
        rfl
      obtain ⟨workspace, report⟩ := run_updatesOf position literal plain spared
        (p := .start type.name w) here rfl named numbered holds
        (fun entry member => Collection.get?_of_live (live member))
        (records.live_increasing.sublist (select_sublist matched)) identified each
      refine ⟨?_, workspace.trans left, report.trans ?_⟩
      · intro r member
        rw [← listed] at member
        obtain ⟨entry, inside, rfl⟩ := List.mem_map.mp member
        exact decided entry inside
      · exact congrArg (fun n => (⟨type.name, n, 0, .completed⟩ : PassReport)) (Nat.zero_add _)

/-- Every ship whose number is not past the variable bears it in its name. -/
def numberingEntries : Entries :=
  [("$Name", .scalar "item.Name .. Next" .unknown), ("$where", .scalar "value <= Next" .unknown)]

def numbering : Instruction := .ofPayload .updateAll (.mapping numberingEntries .unknown)

theorem convoy_numbered : convoy.Numbered [0, 2] := ⟨rfl, by decide, by decide⟩

theorem shipType_holds : HoldsNumbers shipType "ShipId" [0, 2] :=
  ⟨"ShipId", 32, true, rfl, by decide, by decide⟩

theorem numberingEntries_predicate :
    numberingEntries.find? predicateKey = some (.scalar "value <= Next" .unknown) := by
  have other : Text.sameName "$Name" predicateKey = false := by cbv
  have this : Text.sameName "$where" predicateKey = true := by cbv
  simp only [numberingEntries, Entries.find?, List.find?_cons, other, this, Option.map_some]

/-- Both ships are renamed, as by an update of the first and one of the second. -/
theorem step_updateAll_oneByOne_flotilla :
    convoy.Numbered [0, 2] ∧ HoldsNumbers shipType "ShipId" [0, 2] ∧
    ∃ after, flotilla.step .initial shipType numbering = (.ok .applied, after) ∧
      ((Pass.start "Ship" flotilla).run .faithful .initial shipType
        ([0, 2].map (updateOf "ShipId" (numberingEntries.without predicateKey)
          .unknown))).workspace = after := by
  have succeeds : (flotilla.step .initial shipType numbering).1.isOk := by decide +kernel
  have numbers : (chosenRecords ⟨.initial, flotilla.store⟩ convoy "value <= Next"
      numbering.position).filterMap (numberOf? "ShipId") = [0, 2] := by decide +kernel
  have success : ∃ after, flotilla.step .initial shipType numbering = (.ok .applied, after) := by
    have stepped := step_updateAll (w := flotilla) (i := numbering) .initial shipType rfl rfl
    rw [stepped] at succeeds ⊢
    cases made : (updateAll ⟨.initial, flotilla.store⟩ shipType numbering).result convoy with
    | error e =>
        rw [made] at succeeds
        cases succeeds
    | ok done => exact ⟨_, rfl⟩
  have spared : ∀ entry ∈ numberingEntries.without predicateKey,
      identityForm? "ShipId" entry.1 = none := by decide +kernel
  have literal : identityForm? "ShipId" "ShipId" = some .literal := if_pos (beq_self_eq_true _)
  have plain : "ShipId".startsWith "$" = false := by decide +kernel
  obtain ⟨after, success⟩ := success
  obtain ⟨-, workspace, -⟩ := step_updateAll_oneByOne .initial shipType (i := numbering) .unknown
    rfl rfl convoy_numbered shipType_holds rfl rfl numberingEntries_predicate spared literal plain
    success
  rw [numbers] at workspace
  exact ⟨convoy_numbered, shipType_holds, after, success, workspace⟩

end Workspace

end Patch

end Emend
