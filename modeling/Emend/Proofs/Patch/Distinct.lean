import Emend.Proofs.Collection.Distinct
import Emend.Proofs.Patch.ExactIndex
import Emend.Proofs.Patch.KeptFields

/-!
Identities after a pass. Additions refuse an identity that is taken, and updates of one record leave
its identity alone. An update of all chosen records writes every field that its entries name: only
where the identity is not among them do the identities of a collection stay different.
-/

set_option autoImplicit false

namespace Emend.Patch


/-- Whether an update of all chosen records writes their identities. -/
def Instruction.setsIdentity (field : String) (i : Instruction) : Bool :=
  match i.verb, i.payload with
  | .updateAll, .mapping entries _ =>
    (Entries.without predicateKey entries).any fun entry => (identityForm? field entry.1).isSome
  | _, _ => false

/-- Indexed by the identities in this field, which differ. -/
structure Keyed (field : String) (records : Collection) : Prop where
  indexed : records.isIndexed
  named : records.identity = some field
  distinct : records.Distinct

/-- A record that is patched without its identity keeps it. -/
theorem patchRecord_identityOf? {c : Context} {type : Descriptor} {field : String}
    {records : Collection} {r next : Record} {entries : Entries}
    (named : records.identity = some field) (spares : ∀ entry ∈ entries, Spares field entry.1)
    (success : patchRecord c type r entries = .ok next) :
    records.identityOf? next = records.identityOf? r := by
  unfold Collection.identityOf?
  rw [named]
  exact patchRecord_keeps spares success

theorem spares_of_setsIdentity {field : String} {i : Instruction} {entries : Entries}
    (verb : i.verb = .updateAll) (apart : i.setsIdentity field = false)
    (payload : i.entries = .ok entries) :
    ∀ entry ∈ entries.without predicateKey, Spares field entry.1 := by
  unfold Instruction.entries at payload
  unfold Instruction.setsIdentity at apart
  rw [verb] at apart
  intro entry member
  apply spares_of_identityForm?
  split at payload
  · rename_i found
    cases payload
    rw [found] at apart
    simpa using List.any_eq_false.mp apart entry member
  · cases payload

theorem get?_of_locate {type : Descriptor} {records : Collection} {identity : Datum}
    {position : Position} {slot : Nat} {r : Record}
    (located : locate type records identity position = .ok (slot, r)) :
    records.get? slot = some r := by
  obtain ⟨place, -, located⟩ := of_bind_ok located
  split at located
  · rename_i there
    cases located
    exact there
  · cases located

theorem select_sublist {choose : Record → Except PatchError Bool}
    {entries chosen : List (Nat × Record)} (success : select choose entries = .ok chosen) :
    chosen.Sublist entries := by
  induction entries generalizing chosen with
  | nil =>
      cases success
      exact .slnil
  | cons entry rest ih =>
      obtain ⟨flag, -, success⟩ := of_bind_ok success
      obtain ⟨others, made, success⟩ := of_bind_ok success
      cases success
      split
      · exact (ih made).cons_cons entry
      · exact (ih made).cons entry

section
variable {c : Context} {type : Descriptor} {field : String} {records after : Collection}
  {i : Instruction} (keyed : Keyed field records)
include keyed

theorem add_distinct {templates : Templates}
    (success : (added c type field records i templates).1 = .ok after) : after.Distinct := by
  rw [added_eq] at success
  split at success
  · cases success
  · split at success
    · cases success
    · cases success
    · rename_i identity _ _
      obtain ⟨r, slot, made, inserted⟩ := addRecord_ok success
      have identified : records.identityOf? r = some identity := by
        rw [patchRecord_identityOf? keyed.named (fun _ => spares_withoutIdentity) made]
        unfold Collection.identityOf?
        rw [keyed.named]
        exact Fields.findAnyCase?_put_self _ _ _
      exact keyed.distinct.insert keyed.indexed identified inserted

theorem update_distinct (success : (update c type field i).result records = .ok after) :
    after.Distinct := by
  rw [update_result] at success
  obtain ⟨entries, -, success⟩ := of_bind_ok success
  obtain ⟨identity, -, success⟩ := of_bind_ok success
  obtain ⟨⟨slot, r⟩, located, success⟩ := of_bind_ok success
  obtain ⟨next, made, success⟩ := of_bind_ok success
  cases success
  apply keyed.distinct.of_identityCells
  exact Collection.identityCells_replace_of_get? (get?_of_locate located)
    (patchRecord_identityOf? keyed.named (fun _ => spares_withoutIdentity) made)

theorem updateAll_distinct (verb : i.verb = .updateAll) (apart : i.setsIdentity field = false)
    (success : (updateAll c type i).result records = .ok after) : after.Distinct := by
  rw [updateAll_result] at success
  obtain ⟨entries, payload, success⟩ := of_bind_ok success
  obtain ⟨formula, -, success⟩ := of_bind_ok success
  obtain ⟨chosen, matched, success⟩ := of_bind_ok success
  obtain ⟨patched, made, success⟩ := of_bind_ok success
  cases success
  apply keyed.distinct.of_identityCells
  apply Collection.identityCells_foldl_replace
  -- All were chosen before the first one was replaced, so each is compared with its old record.
  intro entry member
  obtain ⟨⟨slot, r⟩, inside, paired⟩ := of_mapM_ok made entry member
  obtain ⟨next, patches, rfl⟩ := of_map_ok paired
  dsimp only
  rw [patchRecord_identityOf? keyed.named (spares_of_setsIdentity verb apart payload) patches]
  exact Collection.identityCells_of_live ((select_sublist matched).subset inside)

theorem remove_distinct (success : (remove c type field i).result records = .ok after) :
    after.Distinct := by
  rw [remove_result] at success
  obtain ⟨identity, -, success⟩ := of_bind_ok success
  obtain ⟨slot, -, success⟩ := of_bind_ok success
  cases success
  exact keyed.distinct.remove slot

theorem removeAll_distinct (success : (removeAll c i).result records = .ok after) : after.Distinct := by
  rw [removeAll_result] at success
  obtain ⟨formula, -, success⟩ := of_bind_ok success
  obtain ⟨chosen, -, success⟩ := of_bind_ok success
  cases success
  exact keyed.distinct.foldl_remove chosen.reverse

theorem Keyed.kept {templates : Templates}
    (leaves : Leaves c type field records templates i after)
    (apart : i.setsIdentity field = false) : Keyed field after where
  indexed := leaves.edited.isIndexed.trans keyed.indexed
  named := leaves.edited.identity.trans keyed.named
  distinct := by
    cases leaves with
    | same => exact keyed.distinct
    | add _ success => exact add_distinct keyed success
    | update _ success => exact update_distinct keyed success
    | updateAll verb success => exact updateAll_distinct keyed verb apart success
    | remove _ success => exact remove_distinct keyed success
    | removeAll _ success => exact removeAll_distinct keyed success

end

theorem Pass.run_keyed {receive : Receiver} {settings : Settings} {type : Descriptor}
    {field : String} {instructions : List Instruction} {p : Pass}
    (keyed : p.workspace.Has field (Keyed field))
    (apart : ∀ i ∈ instructions, i.setsIdentity field = false) :
    (p.run receive settings type instructions).workspace.Has field (Keyed field) := by
  apply run_keeps keyed
  rintro i member w ⟨records, here, keyed⟩
  obtain ⟨after, there, leaves⟩ := Workspace.step_leaves settings type w i field records here
  exact ⟨after, there, keyed.kept leaves (apart i member)⟩

namespace Patcher

/-- However a pass over an indexed collection ends, and whichever of its instructions fail: if the
identities were different before, they are different after it, provided that no update of all chosen
records sets the identity. -/
theorem applyPass_distinct (receive : Receiver) (p : Patcher) (typeName key : String)
    (type : Descriptor) (before : Collection) (field : String) (instructions : List Instruction)
    (registered : p.registry.find? typeName = some (key, ⟨type, .collection before⟩))
    (indexed : before.isIndexed) (named : before.identity = some field)
    (distinct : before.Distinct) (apart : ∀ i ∈ instructions, i.setsIdentity field = false) :
    ∃ after : Collection,
      (p.applyPass receive typeName instructions).patcher.registry.find? typeName =
        some (key, ⟨type, .collection after⟩) ∧ after.Distinct := by
  let start := Pass.start typeName ⟨.collection field before, p.store, []⟩
  have keyed : start.workspace.Has field (Keyed field) := ⟨before, rfl, indexed, named, distinct⟩
  obtain ⟨left, target, leftKeyed⟩ := Pass.run_keyed keyed apart
  exact ⟨left.rebuild.2, applyPass_find? registered named target,
    leftKeyed.distinct.rebuild leftKeyed.indexed⟩

theorem convoy_distinct : Workspace.convoy.Distinct :=
  .of_ints [0, 2] rfl (by decide)

theorem applyPass_distinct_harbour :
    Workspace.convoy.isIndexed ∧ Workspace.convoy.identity = some "ShipId" ∧
    Workspace.convoy.Distinct ∧ (∀ i ∈ departure, i.setsIdentity "ShipId" = false) ∧
    ∃ after : Collection,
      (harbour.applyPass .faithful "Ship" departure).patcher.registry.find? "Ship" =
        some ("Ship", ⟨Workspace.shipType, .collection after⟩) ∧ after.Distinct := by
  have apart : ∀ i ∈ departure, i.setsIdentity "ShipId" = false := by decide +kernel
  exact ⟨rfl, rfl, convoy_distinct, apart, applyPass_distinct .faithful harbour "Ship" "Ship"
    Workspace.shipType Workspace.convoy "ShipId" departure rfl rfl rfl convoy_distinct apart⟩

/-- Every ship is to get the same number. -/
def renumbering : Instruction :=
  .ofPayload .updateAll (.mapping
    [("$where", .scalar "true" .unknown), ("ShipId", .scalar "7" .unknown)] .unknown)

/-- Whether two records are registered, with identities that agree. -/
def agreeingPair (p : Patcher) (typeName : String) : Bool :=
  match p.registry.find? typeName with
  | some (_, ⟨_, .collection records⟩) =>
    match records.identities with
    | [some a, some b] => a.agrees b
    | _ => false
  | _ => false

theorem of_agreeingPair {p : Patcher} {typeName key : String} {type : Descriptor}
    {records : Collection} (pair : p.agreeingPair typeName)
    (registered : p.registry.find? typeName = some (key, ⟨type, .collection records⟩)) :
    ∃ a b, records.identities = [some a, some b] ∧ a.agrees b := by
  unfold agreeingPair at pair
  rw [registered] at pair
  dsimp only at pair
  split at pair
  · rename_i a b identities
    exact ⟨a, b, identities, pair⟩
  · cases pair

/-- Both ships of the harbour have the number afterwards. -/
theorem applyPass_renumbering :
    Workspace.convoy.isIndexed ∧ Workspace.convoy.identities = [some (.int 0), some (.int 2)] ∧
    ∃ after : Collection,
      (harbour.applyPass .faithful "Ship" [renumbering]).patcher.registry.find? "Ship" =
        some ("Ship", ⟨Workspace.shipType, .collection after⟩) ∧
      ∃ a b, after.identities = [some a, some b] ∧ a.agrees b := by
  obtain ⟨left, target, -⟩ := Pass.run_edits .faithful .initial Workspace.shipType "ShipId"
    [renumbering] (.start "Ship" ⟨.collection "ShipId" Workspace.convoy, .empty, []⟩)
    Workspace.convoy rfl
  have registered : harbour.registry.find? "Ship" =
      some ("Ship", ⟨Workspace.shipType, .collection Workspace.convoy⟩) := rfl
  have found := applyPass_find? registered rfl target
  exact ⟨rfl, rfl, left.rebuild.2, found, of_agreeingPair (by decide +kernel) found⟩

end Patcher

end Emend.Patch
