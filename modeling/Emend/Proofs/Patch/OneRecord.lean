import Emend.Proofs.Patch.Repeated

/-!
What an update of one record leaves alone. Whatever keys its entries have and whatever its formulas
give, it changes no other slot, and the record keeps its identity; so every identity leads where it led
before, by the records as well as by the index.
-/

set_option autoImplicit false

namespace Emend.Patch

section
variable {c : Context} {type : Descriptor} {field : String} {i : Instruction}
  {records after : Collection} {slot : Nat} {r next : Record}
  (done : Updates c type field i records after slot r next)
include done

theorem Updates.slots : after.slotCount = records.slotCount ∧ after.get? slot = some next ∧
    ∀ other ≠ slot, after.get? other = records.get? other := by
  have there := get?_of_located done.located
  rw [done.replaced]
  refine ⟨Collection.slotCount_replace records slot next, ?_, fun other differ => ?_⟩
  · exact Collection.get?_replace_self (by rw [there]; rfl) next
  · exact Collection.get?_replace_other differ.symm next

variable (named : records.identity = some field)
include named

theorem Updates.identityCells : after.identityCells = records.identityCells := by
  rw [done.replaced]
  exact Collection.identityCells_replace_of_get? (get?_of_located done.located)
    (patched_identityOf? named done.patched)

theorem Updates.identityOf? : after.identityOf? next = records.identityOf? r := by
  rw [done.replaced, Collection.identityOf?_congr (Collection.replace_identity records slot next)]
  exact patched_identityOf? named done.patched

theorem Updates.lookups : (∀ identity, after.find? identity = records.find? identity) ∧
    (∀ identity, after.getIndex? identity = records.getIndex? identity) ∧
    after.nextFreeId = records.nextFreeId := by
  have same := done.identityCells named
  rw [done.replaced] at same ⊢
  refine ⟨?_, ?_, Collection.nextFreeId_congr same⟩
  · exact Collection.find?_congr (Collection.replace_isIndexed records slot next) same
  · exact Collection.getIndex?_replace (get?_of_located done.located)
      (patched_identityOf? named done.patched)

end

namespace Workspace

/-- An update that is applied changes the record that its identity leads to and nothing else: neither
another slot nor a shared variable, and not the identity of that record. All identities are found
where they were, and the next free one is the same. -/
theorem step_update_oneRecord (settings : Settings) (type : Descriptor) {w left : Workspace}
    {field : String} {records : Collection} {i : Instruction}
    (here : w.target = .collection field records) (named : records.identity = some field)
    (verb : i.verb = .update) (applied : w.step settings type i = (.ok .applied, left)) :
    ∃ slot r next after, i.located ⟨settings, w.store⟩ type field records = .ok (slot, r) ∧
      left = { w with target := .collection field after } ∧
      records.get? slot = some r ∧ after.get? slot = some next ∧
      after.identityOf? next = records.identityOf? r ∧
      after.slotCount = records.slotCount ∧
      (∀ other ≠ slot, after.get? other = records.get? other) ∧
      (∀ identity, after.find? identity = records.find? identity) ∧
      (∀ identity, after.getIndex? identity = records.getIndex? identity) ∧
      after.nextFreeId = records.nextFreeId := by
  rw [step_update settings type here verb] at applied
  cases made : (update ⟨settings, w.store⟩ type field i).result records with
  | error e =>
      rw [made] at applied
      cases applied
  | ok after =>
      rw [made] at applied
      obtain ⟨slot, r, next, done⟩ := of_update_ok made
      obtain ⟨count, self, others⟩ := done.slots
      obtain ⟨found, indexed, free⟩ := done.lookups named
      exact ⟨slot, r, next, after, done.located, (congrArg Prod.snd applied).symm,
        get?_of_located done.located, self, done.identityOf? named, count, others, found, indexed,
        free⟩

/-- Two docks and a slot that is empty. -/
def quays : Collection :=
  let dock (id : Int) : Option Record :=
    some ⟨"Dock", [("DockId", .int id), ("Keeper", .null), ("Piers", .list [.list [.int 3]])]⟩
  ⟨some "DockId", .indexed [none, dock 4, dock 9] [(.int 4, 1), (.int 9, 2)]⟩

/-- The dock whose number the variable tells gets a keeper of that age and a longer pier. Its number
is given once more, as that of the other dock. -/
def extension : Instruction :=
  .ofPayload .update (.mapping
    [("$DockId", .scalar "Next" .unknown),
      ("Keeper", .mapping [("$Age", .scalar "Next" .unknown)] .unknown),
      ("DockId", .scalar "9" .unknown),
      ("Piers", .mapping [("0", .mapping [("1", .scalar "5" .unknown)] .unknown)] .unknown)]
    .unknown)

/-- The docks, and the number of the first of them. -/
def dockyard : Workspace := ⟨.collection "DockId" quays, .ofList [("Next", .number 4)], []⟩

theorem step_update_oneRecord_dockyard :
    quays.identity = some "DockId" ∧ extension.verb = .update ∧
    ∃ after next, dockyard.step .initial dockType extension =
        (.ok .applied, { dockyard with target := .collection "DockId" after }) ∧
      after.get? 1 = some next ∧ after.identityOf? next = some (.int 4) ∧
      after.get? 2 = quays.get? 2 ∧ after.getIndex? (.int 4) = some 1 ∧
      after.nextFreeId = quays.nextFreeId := by
  have succeeds : ((update ⟨.initial, dockyard.store⟩ dockType "DockId" extension).result quays).isOk := by
    decide +kernel
  obtain ⟨made, success⟩ := of_isOk succeeds
  have verb : extension.verb = .update := by decide
  have applied : dockyard.step .initial dockType extension =
      (.ok .applied, { dockyard with target := .collection "DockId" made }) := by
    rw [step_update (w := dockyard) .initial dockType rfl verb, success]
    rfl
  have leads : extension.slot? ⟨.initial, dockyard.store⟩ dockType "DockId" quays = some 1 := by
    decide +kernel
  obtain ⟨slot, r, next, after, located, final, there, self, same, -, others, -, indexed, free⟩ :=
    step_update_oneRecord (w := dockyard) .initial dockType rfl rfl verb applied
  cases (slot?_of_located located).symm.trans leads
  cases there
  rw [final] at applied
  exact ⟨rfl, verb, after, next, applied, self, same, others 2 (by decide), indexed _, free⟩

end Workspace

end Emend.Patch
