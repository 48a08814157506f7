import Emend.Proofs.Collection.Numbered
import Emend.Proofs.Patch.InPlace

/-!
Errors of instructions. Whatever stands in a document, an instruction that fails does so by an error
of the document and not by a broken contract: the slot that an identity leads to always holds a
record.
-/

set_option autoImplicit false

namespace Emend

theorem Collection.exists_of_find? {c : Collection} {identity : Datum} {slot : Nat}
    (found : c.find? identity = some slot) : ∃ r, c.get? slot = some r := by
  obtain ⟨x, there, -⟩ := of_find? found
  obtain ⟨r, taken, -⟩ := Option.bind_eq_some_iff.mp there
  exact ⟨r, taken⟩

namespace Patch

/-- Fails, if at all, without breaking a contract. -/
def KeepsContract {α : Type} (x : Except PatchError α) : Prop :=
  ∀ e, x = .error e → e.kind ≠ .contract

namespace KeepsContract
variable {α β : Type}

theorem ok (a : α) : KeepsContract (.ok a) := fun _ failed => nomatch failed

theorem error {e : PatchError} (other : e.kind ≠ .contract) :
    KeepsContract (.error e : Except PatchError α) := by
  rintro _ ⟨⟩
  exact other

theorem mismatch (field expected found : String) (position : Position) :
    KeepsContract (.error (.mismatch field expected found position) : Except PatchError α) :=
  error nofun

theorem structural (reason : String) (position : Position) :
    KeepsContract (.error (.structural reason position) : Except PatchError α) := error nofun

theorem identityConflict (reason : String) (position : Position) :
    KeepsContract (.error (.identityConflict reason position) : Except PatchError α) := error nofun

theorem formula (e : Formula.FormulaError) (source : String) (position : Position) :
    KeepsContract (.error (.formula e source position) : Except PatchError α) := by
  apply error
  cases e <;> exact nofun

theorem replacedBy {e other : PatchError} (first : e.kind ≠ .contract) (later : other.kind ≠ .contract) :
    KeepsContract (.error (e.replacedBy other) : Except PatchError α) := by
  apply error
  unfold PatchError.replacedBy
  split
  · exact first
  · exact later

theorem bind {x : Except PatchError α} {next : α → Except PatchError β} (first : KeepsContract x)
    (later : ∀ a, KeepsContract (next a)) : KeepsContract (x >>= next) := by
  cases x with
  | error e => exact error (first e rfl)
  | ok a => exact later a

theorem map {x : Except PatchError α} (first : KeepsContract x) (f : α → β) :
    KeepsContract (x.map f) := by
  cases x with
  | error e => exact error (first e rfl)
  | ok a => exact ok _

theorem mapM {f : α → Except PatchError β} (each : ∀ a, KeepsContract (f a)) (items : List α) :
    KeepsContract (items.mapM f) := by
  induction items with
  | nil => exact ok []
  | cons item rest ih =>
      rw [List.mapM_cons]
      exact bind (each item) fun _ => bind ih fun _ => ok _

end KeepsContract
open KeepsContract

section
variable (c : Context)

theorem evaluate_keepsContract (bindings : Bindings) (text : String) (position : Position) :
    KeepsContract (c.evaluate bindings text position) := by
  unfold Context.evaluate
  split
  · exact ok _
  · exact formula _ _ _

theorem evaluateBool_keepsContract (bindings : Bindings) (text : String) (position : Position) :
    KeepsContract (c.evaluateBool bindings text position) := by
  unfold Context.evaluateBool
  split
  · exact ok _
  · exact formula _ _ _

theorem scalarText_keepsContract (what : String) (position : Position) (node : Node) :
    KeepsContract (scalarText what position node) := by
  unfold scalarText
  split
  · exact ok _
  · exact structural _ _

theorem entries_keepsContract (i : Instruction) : KeepsContract i.entries := by
  unfold Instruction.entries
  split
  · exact ok _
  · exact structural _ _

theorem store_keepsContract (name : String) (position : Position) :
    (type : Descriptor) → (v : Value) → KeepsContract (store name position type v)
  | .scalar kind, v => by
      unfold store
      split
      · exact ok _
      · exact mismatch _ _ _ _
  | .enumeration typeName variants, v => by
      unfold store
      split
      · exact ok _
      · exact mismatch _ _ _ _
  | .record typeName fields identity byValue, v => by
      unfold store
      split
      · split
        · exact mismatch _ _ _ _
        · exact ok _
      · split
        · exact ok _
        · exact mismatch _ _ _ _
      · exact mismatch _ _ _ _
  | .list element fixed, v => by
      unfold store
      split
      · exact ok _
      · exact (mapM (store_keepsContract name position element) _).map _
      · exact mismatch _ _ _ _

section
variable (place : Place) (name : String) (current : Datum)

theorem scalarOfText_keepsContract (kind : ScalarKind) (text : String) (position : Position) :
    KeepsContract (scalarOfText c place name current kind text position) := by
  unfold scalarOfText
  split
  · exact ok _
  · exact mismatch _ _ _ _
  · exact mismatch _ _ _ _
  · exact mismatch _ _ _ _
  all_goals
    split
    · exact ok _
    · split
      · rename_i e failed
        exact replacedBy (evaluate_keepsContract c _ _ _ e failed) nofun
      · split
        · exact ok _
        · exact mismatch _ _ _ _

theorem variantOfText_keepsContract (typeName : String) (variants : List String) (text : String)
    (position : Position) :
    KeepsContract (variantOfText c place name current typeName variants text position) := by
  unfold variantOfText
  dsimp only
  split
  · exact ok _
  · split
    · rename_i e failed
      exact replacedBy (evaluate_keepsContract c _ _ _ e failed) nofun
    · split
      · exact ok _
      · exact mismatch _ _ _ _

end

theorem formulaField_keepsContract (r : Record) (name : String) (type : Descriptor)
    (current : Datum) (node : Node) :
    KeepsContract (formulaField c r name type current node) := by
  unfold formulaField
  split
  · exact (evaluate_keepsContract c _ _ _).bind fun _ => store_keepsContract _ _ _ _
  · exact mismatch _ _ _ _

theorem patchField_keepsContract (type : Descriptor) (r : Record) (key : String) (node : Node)
    {patch : String → Descriptor → Datum → Except PatchError Datum}
    (each : ∀ name fieldType current, KeepsContract (patch name fieldType current)) :
    KeepsContract (patchField c type r key node patch) := by
  unfold patchField
  dsimp only
  split
  · exact mismatch _ _ _ _
  · split
    · exact (formulaField_keepsContract c _ _ _ _ _).bind fun _ => ok _
    · exact (each _ _ _).bind fun _ => ok _

section
variable (element : Descriptor) (fixed : Bool) (name : String)

theorem fillTo_keepsContract (items : List Datum) (index : Nat) (position : Position) :
    KeepsContract (fillTo c element fixed name items index position) := by
  unfold fillTo
  split
  · exact ok _
  · split
    · exact structural _ _
    · split
      · exact structural _ _
      · exact ok _

theorem chosen_keepsContract (items : List Datum) (formula : String) (position : Position) :
    KeepsContract (chosen c items formula position) :=
  mapM (fun _ => evaluateBool_keepsContract c _ _ _) _

variable {patch : Datum → Except PatchError Datum}
  (each : ∀ current, KeepsContract (patch current))
include each

theorem patchChosen_keepsContract (flags : List Bool) (items : List Datum) :
    KeepsContract (patchChosen patch flags items) := by
  induction flags generalizing items with
  | nil => exact ok items
  | cons flag rest ih =>
      cases items with
      | nil => cases flag <;> exact ok []
      | cons item others =>
          cases flag with
          | true => exact (each item).bind fun _ => (ih others).bind fun _ => ok _
          | false => exact (ih others).bind fun _ => ok _

theorem patchAt_keepsContract (items : List Datum) (index : Nat) (position : Position) :
    KeepsContract (patchAt c element fixed name patch items index position) := by
  refine (fillTo_keepsContract c element fixed name items index position).bind fun items => ?_
  split
  · exact (each _).bind fun _ => ok _
  · exact (each _).bind fun _ => ok _

theorem patchItem_keepsContract {added : Unit → Except PatchError (List Datum)}
    (more : KeepsContract (added ())) (items : List Datum) (key : String) (position : Position) :
    KeepsContract (patchItem c element fixed name patch added items key position) := by
  unfold patchItem
  split
  · exact more.map _
  · exact (chosen_keepsContract c _ _ _).bind fun _ => patchChosen_keepsContract each _ _
  · exact patchAt_keepsContract c element fixed name each _ _ _
  · exact structural _ _

end

theorem wholeRecord_keepsContract {made : Except PatchError Unit × Record}
    (each : KeepsContract made.1) : KeepsContract (wholeRecord made) := by
  obtain ⟨outcome, r⟩ := made
  cases outcome with
  | ok _ => exact ok _
  | error e => exact error (each e rfl)

mutual

theorem patchDatum_keepsContract (place : Place) (name : String) (type : Descriptor)
    (current : Datum) : (node : Node) → KeepsContract (patchDatum c place name type current node)
  | .scalar text position => by
    unfold patchDatum
    split
    · exact ok _
    · split
      · exact scalarOfText_keepsContract c _ _ _ _ _ _
      · exact variantOfText_keepsContract c _ _ _ _ _ _ _
      · exact mismatch _ _ _ _
  | .sequence nodes position => by
    unfold patchDatum
    split
    · exact (patchItems_keepsContract name _ _ nodes).map _
    · exact mismatch _ _ _ _
  | .mapping entries position => by
    unfold patchDatum
    split
    · exact (patchKeys_keepsContract name _ _ _ entries).map _
    · dsimp only
      split
      · split
        · exact wholeRecord_keepsContract (patchFields_keepsContract _ _ _)
        · exact wholeRecord_keepsContract (patchFields_keepsContract _ _ _)
      · exact wholeRecord_keepsContract (patchFields_keepsContract _ _ entries)
    · exact mismatch _ _ _ _
termination_by node => sizeOf node

theorem patchItems_keepsContract (name : String) (element : Descriptor) (items : List Datum) :
    (nodes : List Node) → KeepsContract (patchItems c name element items nodes)
  | [] => by
    unfold patchItems
    exact ok _
  | node :: rest => by
    unfold patchItems
    exact (patchDatum_keepsContract .element name element _ node).bind fun _ =>
      (patchItems_keepsContract name element _ rest).bind fun _ => ok _
termination_by nodes => sizeOf nodes

theorem patchKeys_keepsContract (name : String) (element : Descriptor) (fixed : Bool)
    (items : List Datum) :
    (entries : List (String × Node)) →
      KeepsContract (patchKeys c name element fixed items entries)
  | [] => by
    unfold patchKeys
    exact ok _
  | (key, node) :: rest => by
    unfold patchKeys
    have each (current : Datum) := patchDatum_keepsContract .element name element current node
    refine (patchItem_keepsContract c element fixed name each ?_ _ _ _).bind fun items =>
      patchKeys_keepsContract name element fixed items rest
    cases node with
    | sequence nodes position => exact patchItems_keepsContract name element [] nodes
    | scalar | mapping => exact (each _).map _
termination_by entries => sizeOf entries

theorem patchFields_keepsContract (type : Descriptor) (r : Record) :
    (entries : List (String × Node)) → KeepsContract (patchFields c type r entries).1
  | [] => by
    unfold patchFields
    exact ok _
  | (key, node) :: rest => by
    have first := patchField_keepsContract c type r key node fun name fieldType current =>
      patchDatum_keepsContract (.field r) name fieldType current node
    unfold patchFields
    dsimp only
    split
    · exact patchFields_keepsContract type _ rest
    · rename_i e failed
      exact error (first e failed)
termination_by entries => sizeOf entries

end

theorem patchRecord_keepsContract (type : Descriptor) (r : Record) (entries : Entries) :
    KeepsContract (patchRecord c type r entries) := by
  have each := patchFields_keepsContract c type r entries
  unfold patchRecord
  split
  · exact ok _
  · rename_i e r failed
    rw [failed] at each
    exact error (each e rfl)

theorem stateWrite_keepsContract (writes : List Write) (key : String) (node : Node)
    (position : Position) : KeepsContract (stateWrite c writes key node position) := by
  refine (scalarText_keepsContract _ _ _).bind fun text => ?_
  have evaluated := evaluate_keepsContract c (stateBindings c.store writes (fieldKey key).1) text
    (node.position.or position)
  split
  · split
    · exact ok _
    · exact identityConflict _ _
  · split
    · exact ok _
    · rename_i e failed
      split
      · exact error (evaluated e failed)
      · exact ok _

theorem stateWrites_keepsContract (position : Position) (writes : List Write) (entries : Entries) :
    KeepsContract (stateWrites c position writes entries) := by
  induction entries generalizing writes with
  | nil => exact ok writes
  | cons entry rest ih => exact (stateWrite_keepsContract c _ _ _ _).bind fun _ => ih _

theorem setState_keepsContract (i : Instruction) : KeepsContract (setState c i) :=
  (entries_keepsContract i).bind fun _ =>
    (stateWrites_keepsContract c _ _ _).bind fun _ => ok _

theorem defineTemplate_keepsContract (templates : Templates) (i : Instruction) :
    KeepsContract ((defineTemplate i).result templates) := by
  rw [defineTemplate_result]
  refine (entries_keepsContract i).bind fun entries => ?_
  split
  · exact structural _ _
  · exact (scalarText_keepsContract _ _ _).bind fun _ => ok _

theorem newEntries_keepsContract (i : Instruction) (templates : Templates) :
    KeepsContract (i.newEntries templates) := by
  refine (entries_keepsContract i).bind fun entries => ?_
  unfold expandTemplate
  split
  · exact ok _
  · refine (scalarText_keepsContract _ _ _).bind fun name => ?_
    dsimp only
    split
    · exact ok _
    · exact structural _ _

theorem test_keepsContract (typeName : String) (i : Instruction) :
    KeepsContract (test c typeName i) := by
  unfold test
  induction i.formulas with
  | nil => exact ok _
  | cons node rest ih =>
      unfold firstFailure
      dsimp only
      split
      · exact ih
      · exact ok _
      · rename_i e failed
        split
        · refine error ?_
          exact (scalarText_keepsContract _ _ _).bind
            (fun _ => evaluateBool_keepsContract c _ _ _) e failed
        · exact ok _

variable (type : Descriptor) (field : String) (records : Collection)

theorem literalIdentity_keepsContract (text : String) (position : Position) :
    KeepsContract (literalIdentity type field text position) := by
  unfold literalIdentity
  split
  · split
    · exact ok _
    · exact mismatch _ _ _ _
  · exact ok _

theorem identityOfValue_keepsContract (v : Value) (position : Position) :
    KeepsContract (identityOfValue type field v position) := by
  unfold identityOfValue
  split
  · exact store_keepsContract _ _ _ _
  · exact ok _

theorem targetIdentity_keepsContract (entries : Entries) (position : Position) :
    KeepsContract (targetIdentity type field c entries position) := by
  unfold targetIdentity
  split
  · exact structural _ _
  · refine (scalarText_keepsContract _ _ _).bind fun text => ?_
    split
    · exact (evaluate_keepsContract c _ _ _).bind fun _ => identityOfValue_keepsContract type _ _ _
    · exact literalIdentity_keepsContract type _ _ _

theorem slotOf_keepsContract (identity : Datum) (position : Position) :
    KeepsContract (slotOf type records identity position) := by
  unfold slotOf
  split
  · exact ok _
  · exact identityConflict _ _

/-- A slot that was found does not vanish. -/
theorem locate_keepsContract (identity : Datum) (position : Position) :
    KeepsContract (locate type records identity position) := by
  unfold locate slotOf
  cases found : records.find? identity with
  | none => exact identityConflict _ _
  | some slot =>
      obtain ⟨r, there⟩ := Collection.exists_of_find? found
      rw [ok_bind, there]
      exact ok _

theorem newIdentity_keepsContract (s : Store) (form : IdentityForm) (text : String)
    (position : Position) :
    KeepsContract (newIdentity type field records s form text position).1 := by
  cases form with
  | literal => exact literalIdentity_keepsContract type field text position
  | indirect => exact identityOfValue_keepsContract type field _ position

theorem newIdentities_keepsContract (position : Position) (found : Option Datum) (s : Store)
    (entries : Entries) :
    KeepsContract (newIdentities type field records position found s entries).1 := by
  induction entries generalizing found s with
  | nil => exact ok found
  | cons entry rest ih =>
      obtain ⟨key, node⟩ := entry
      unfold newIdentities
      split
      · exact ih found s
      · rename_i form formed
        dsimp only
        split
        · rename_i e failed
          exact error (scalarText_keepsContract _ _ _ e failed)
        · rename_i text read
          have given := newIdentity_keepsContract type field records s form text
            (node.position.or position)
          split
          · rename_i e s' failed
            rw [failed] at given
            exact error (given e rfl)
          · exact ih _ _

theorem addRecord_keepsContract (entries : Entries) (identity : Datum) (position : Position) :
    KeepsContract ((addRecord c type field entries identity position).result records) := by
  rw [addRecord_result]
  refine (patchRecord_keepsContract c type _ _).bind fun r => ?_
  split
  · exact ok _
  · exact identityConflict _ _

theorem add_keepsContract (templates : Templates) (i : Instruction) :
    KeepsContract (added c type field records i templates).1 := by
  rw [added_eq]
  split
  · rename_i e failed
    exact error (newEntries_keepsContract i templates e failed)
  · rename_i entries _
    have given := newIdentities_keepsContract type field records i.position none c.store entries
    split
    · rename_i e s failed
      rw [failed] at given
      exact error (given e rfl)
    · exact structural _ _
    · exact addRecord_keepsContract _ type field records _ _ _

theorem update_keepsContract (i : Instruction) :
    KeepsContract ((update c type field i).result records) := by
  rw [update_result]
  exact (entries_keepsContract i).bind fun _ =>
    (targetIdentity_keepsContract c type field _ _).bind fun _ =>
      (locate_keepsContract type records _ _).bind fun _ =>
        (patchRecord_keepsContract c type _ _).bind fun _ => ok _

theorem predicate_keepsContract (i : Instruction) (entries : Entries) (missing : String) :
    KeepsContract (i.predicate entries missing) := by
  unfold Instruction.predicate
  split
  · exact structural _ _
  · exact scalarText_keepsContract _ _ _

theorem matching_keepsContract (formula : String) (position : Position) :
    KeepsContract (matching c records formula position) := by
  unfold matching
  induction records.live with
  | nil => exact ok []
  | cons entry rest ih =>
      exact (evaluateBool_keepsContract c _ _ _).bind fun _ => ih.bind fun _ => ok _

theorem updateAll_keepsContract (i : Instruction) :
    KeepsContract ((updateAll c type i).result records) := by
  rw [updateAll_result]
  exact (entries_keepsContract i).bind fun _ =>
    (predicate_keepsContract i _ _).bind fun _ =>
      (matching_keepsContract c records _ _).bind fun _ =>
        (mapM (fun _ => (patchRecord_keepsContract c type _ _).map _) _).bind fun _ => ok _

theorem remove_keepsContract (i : Instruction) :
    KeepsContract ((remove c type field i).result records) := by
  rw [remove_result]
  refine .bind ?_ fun identity => (slotOf_keepsContract type records identity i.position).bind
    fun _ => ok _
  unfold identityToRemove
  split
  · exact literalIdentity_keepsContract type field _ _
  · exact (entries_keepsContract i).bind fun _ => targetIdentity_keepsContract c type field _ _

theorem updateSingle_keepsContract (r : Record) (i : Instruction) :
    KeepsContract ((updateSingle c type i).result r) := by
  rw [updateSingle_result]
  exact (entries_keepsContract i).bind fun _ => patchRecord_keepsContract c type _ _

theorem removeAll_keepsContract (i : Instruction) :
    KeepsContract ((removeAll c i).result records) := by
  rw [removeAll_result]
  refine .bind ?_ fun _ => (matching_keepsContract c records _ _).bind fun _ => ok _
  unfold Instruction.formulaToRemove
  split
  · exact ok _
  · exact (entries_keepsContract i).bind fun _ => predicate_keepsContract i _ _

end

namespace Workspace

theorem keep_keepsContract {α : Type} {made : Except PatchError α} (each : KeepsContract made)
    (w : Workspace) (put : α → Workspace) : KeepsContract (w.keep made put).1 := by
  cases made with
  | ok a => exact ok _
  | error e => exact error (each e rfl)

/-- No instruction breaks a contract, whatever the records, the shared variables and the templates
are. -/
theorem step_keepsContract (settings : Settings) (type : Descriptor) (w : Workspace)
    (i : Instruction) : KeepsContract (w.step settings type i).1 := by
  rw [step_eq]
  dsimp only
  split
  · exact keep_keepsContract (setState_keepsContract _ i) _ _
  · exact keep_keepsContract (defineTemplate_keepsContract _ i) _ _
  · split
    · exact ok _
    · exact ok _
    · rename_i e failed
      exact error (test_keepsContract _ type.name i e failed)
  · rename_i here _ _ _
    rw [stepCollection_eq here]
    dsimp only
    split
    case h_1 => exact keep_keepsContract (add_keepsContract _ type _ _ _ i) _ _
    case h_2 => exact keep_keepsContract (update_keepsContract _ type _ _ i) _ _
    case h_3 => exact keep_keepsContract (updateAll_keepsContract _ type _ i) _ _
    case h_4 => exact keep_keepsContract (remove_keepsContract _ type _ _ i) _ _
    case h_5 => exact keep_keepsContract (removeAll_keepsContract _ _ i) _ _
    all_goals exact ok _
  · rename_i here _ _ _
    rw [stepSingle_eq here]
    split
    · exact keep_keepsContract (updateSingle_keepsContract _ type _ i) _ _
    · exact structural _ _

end Workspace

end Patch

end Emend
