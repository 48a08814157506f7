import Emend.Proofs.Collection.Vacated
import Emend.Proofs.Patch.OneByOne

/-!
Removals of all records on which a formula is true. The formula is evaluated on every record before
the first one is removed, so a record on which it has no value keeps all of them.
-/

set_option autoImplicit false

namespace Emend.Patch

section
variable {choose : Record → Except PatchError Bool} {entries : List (Nat × Record)}

theorem select_eq_filter {p : Record → Bool}
    (decided : ∀ entry ∈ entries, choose entry.2 = .ok (p entry.2)) :
    select choose entries = .ok (entries.filter fun entry => p entry.2) := by
  induction entries with
  | nil => rfl
  | cons entry rest ih =>
      obtain ⟨here, later⟩ := List.forall_mem_cons.mp decided
      unfold select
      rw [here, ih later, ok_bind, ok_bind, List.filter_cons]

theorem select_error {entry : Nat × Record} {e : PatchError} (member : entry ∈ entries)
    (failed : choose entry.2 = .error e) : ∃ e, select choose entries = .error e := by
  cases made : select choose entries with
  | error e => exact ⟨e, rfl⟩
  | ok chosen =>
      obtain ⟨b, decided⟩ := (of_select_ok made).1 entry member
      cases failed.symm.trans decided

end

section
variable {c : Context} {records : Collection} {i : Instruction} {formula : String}
  (given : i.formulaToRemove = .ok formula)
include given

theorem removeAll_eq : (removeAll c i).result records = (matching c records formula i.position).map
    fun chosen => chosen.reverse.foldl (fun records entry => records.remove entry.1) records := by
  rw [removeAll_result, given, ok_bind]
  cases matching c records formula i.position <;> rfl

end

namespace Workspace

theorem step_removeAll {w : Workspace} {field : String} {records : Collection} {i : Instruction}
    (settings : Settings) (type : Descriptor) (here : w.target = .collection field records)
    (verb : i.verb = .removeAll) :
    w.step settings type i = w.keep ((removeAll ⟨settings, w.store⟩ i).result records)
      fun records => { w with target := .collection field records } := by
  simp only [step_eq, verb, here, stepCollection_eq here]

/-- A formula that is true or false on every record removes the records on which it is true and leaves
the others as they are, in their order; the slots of an indexed collection stay where they are. A
formula that has no value on one of the records, or that cannot be read, removes none. -/
theorem step_removeAll_exact (settings : Settings) (type : Descriptor) {w : Workspace}
    {field formula : String} {records : Collection} {i : Instruction}
    (here : w.target = .collection field records) (verb : i.verb = .removeAll)
    (given : i.formulaToRemove = .ok formula) :
    let holds (r : Record) : Except PatchError Bool :=
      Context.evaluateBool ⟨settings, w.store⟩ (choiceBindings records r) formula i.position
    (∀ p : Record → Bool, (∀ r ∈ records.records, holds r = .ok (p r)) →
      ∃ after, w.step settings type i =
          (.ok .applied, { w with target := .collection field after }) ∧
        after.identity = records.identity ∧ after.isIndexed = records.isIndexed ∧
        after.records = records.records.filter (!p ·) ∧
        (records.isIndexed → ∀ slot, after.get? slot = (records.get? slot).filter (!p ·))) ∧
    ∀ r ∈ records.records, ∀ e, holds r = .error e →
      ∃ first, w.step settings type i = (.error first, w) := by
  intro holds
  have listed : records.live.map (·.2) = records.records := Collection.map_snd_liveFrom 0 _
  rw [step_removeAll settings type here verb, removeAll_eq given]
  constructor
  · intro p decided
    have matched : matching ⟨settings, w.store⟩ records formula i.position =
        .ok (records.live.filter fun entry => p entry.2) := by
      refine select_eq_filter fun entry member => decided entry.2 ?_
      rw [← listed]
      exact List.mem_map_of_mem member
    rw [matched]
    exact ⟨_, rfl, Collection.foldl_remove_live⟩
  · intro r member e failed
    rw [← listed] at member
    obtain ⟨entry, live, rfl⟩ := List.mem_map.mp member
    obtain ⟨first, unmatched⟩ := select_error live failed
    refine ⟨first, ?_⟩
    unfold matching
    rw [unmatched]
    rfl

/-- The ships on which a formula is true are to go. -/
def retirement (formula : String) : Instruction :=
  .ofPayload .removeAll (.scalar formula .unknown)

/-- The ship whose number comes before the variable goes, and the other one stays in its slot. A
formula that is cut short removes no ship. -/
theorem step_removeAll_exact_flotilla :
    (retirement "value < Next").formulaToRemove = .ok "value < Next" ∧
    (∃ after, flotilla.step .initial shipType (retirement "value < Next") =
        (.ok .applied, { flotilla with target := .collection "ShipId" after }) ∧
      after.records = [⟨"Ship", [("ShipId", .int 2), ("Name", .text "Bob")]⟩] ∧
      after.get? 0 = none ∧ after.get? 2 = convoy.get? 2) ∧
    ∃ e, flotilla.step .initial shipType (retirement "value <") = (.error e, flotilla) := by
  let c : Context := ⟨.initial, flotilla.store⟩
  let isFirst (r : Record) : Bool := (r.getAnyCase? "ShipId").any (·.sameIdentity (.int 0))
  have decided : ∀ r ∈ convoy.records,
      (c.evaluateBool (choiceBindings convoy r) "value < Next" .unknown).toOption.map
        (· == isFirst r) = some true := by
    decide +kernel
  have short : ∃ r ∈ convoy.records,
      (c.evaluateBool (choiceBindings convoy r) "value <" .unknown).isOk = false :=
    ⟨⟨"Ship", [("ShipId", .int 2), ("Name", .text "Bob")]⟩, .tail _ (.head _), by decide +kernel⟩
  obtain ⟨after, applied, -, -, left, slots⟩ := (step_removeAll_exact (w := flotilla)
    (i := retirement "value < Next") .initial shipType rfl rfl rfl).1 isFirst fun r member => by
      obtain ⟨b, holds, same⟩ := of_toOption_map (decided r member)
      rw [← beq_iff_eq.mp same]
      exact holds
  refine ⟨rfl, ⟨after, applied, left, slots rfl 0, slots rfl 2⟩, ?_⟩
  obtain ⟨r, member, failed⟩ := short
  cases read : c.evaluateBool (choiceBindings convoy r) "value <" .unknown with
  | ok b =>
      rw [read] at failed
      cases failed
  | error e =>
      exact (step_removeAll_exact (w := flotilla) (i := retirement "value <") .initial shipType rfl
        rfl rfl).2 r member e read

end Workspace

end Emend.Patch
