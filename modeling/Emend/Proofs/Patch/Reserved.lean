import Emend.Proofs.Patch.Failure
import Emend.Proofs.Store

/-!
Shared variables that additions reserve. The identity of a new record may be the value of a shared
variable, which then gets the next free identity before the record is made. If the record cannot be
made the variable stays: a skipped addition leaves the shared variables alone only where all that
it names for its identity are set already.
-/

set_option autoImplicit false

namespace Emend.Patch

/-- The variables that an identity entry names. -/
def IdentityForm.reserved : IdentityForm → String → List String
  | .literal, _ => []
  | .indirect, text => [Text.trim text]

/-- The variables that the entries of a new record name for its identity. -/
def Entries.reserved (field : String) (entries : Entries) : List String :=
  entries.flatMap fun entry =>
    match identityForm? field entry.1, entry.2 with
    | some form, .scalar text _ => form.reserved text
    | _, _ => []

/-- The variables that an addition names for the identity of its record, in templates too. -/
def Instruction.reserved (i : Instruction) (field : String) (templates : Templates) :
    List String :=
  match i.newEntries templates with
  | .ok entries => entries.reserved field
  | .error _ => []

/-- All variables keep their values and their order, and only variables of these names come to be
set, to one identity. -/
structure Reserves (names : List String) (identity : Int) (before after : Store) : Prop where
  keeps : ∀ name v, before.get? name = some v → after.get? name = some v
  reserved : ∀ name v, before.get? name = none → after.get? name = some v →
    name ∈ names ∧ v = .number (Float.ofInt identity)
  sorted : before.Sorted → after.Sorted

namespace Reserves

theorem refl (names : List String) (identity : Int) (s : Store) : Reserves names identity s s where
  keeps _ _ present := present
  reserved _ _ absent present := by
    rw [absent] at present
    cases present
  sorted inOrder := inOrder

theorem trans {names : List String} {identity : Int} {before mid after : Store}
    (first : Reserves names identity before mid) (second : Reserves names identity mid after) :
    Reserves names identity before after where
  keeps name v present := second.keeps name v (first.keeps name v present)
  reserved name v absent present := by
    cases between : mid.get? name with
    | none => exact second.reserved name v between present
    | some w =>
        have kept := second.keeps name w between
        rw [present] at kept
        cases kept
        exact first.reserved name v absent between
  sorted inOrder := second.sorted (first.sorted inOrder)

theorem mono {names more : List String} {identity : Int} {before after : Store}
    (reserves : Reserves names identity before after) (subset : names ⊆ more) :
    Reserves more identity before after where
  keeps := reserves.keeps
  reserved name v absent present :=
    (reserves.reserved name v absent present).imp_left (subset ·)
  sorted := reserves.sorted

theorem of_getOrInsert (s : Store) (name : String) (identity : Int) :
    Reserves [name] identity s (s.getOrInsert name (.number (Float.ofInt identity))).2 where
  keeps other v present := by
    rw [Store.getOrInsert_get?, if_neg, present]
    rintro ⟨rfl, absent⟩
    rw [present] at absent
    cases absent
  reserved other v absent present := by
    rw [Store.getOrInsert_get?] at present
    split at present
    · rename_i reserved
      cases present
      exact ⟨List.mem_singleton.mpr reserved.1, rfl⟩
    · rw [absent] at present
      cases present
  sorted inOrder := inOrder.getOrInsert _ _

theorem get?_eq {names : List String} {identity : Int} {before after : Store}
    (reserves : Reserves names identity before after)
    (present : ∀ name ∈ names, (before.get? name).isSome) (name : String) :
    after.get? name = before.get? name := by
  cases old : before.get? name with
  | some v => exact reserves.keeps name v old
  | none =>
      cases new : after.get? name with
      | none => rfl
      | some v =>
          have isSet := present name (reserves.reserved name v old new).1
          rw [old] at isSet
          cases isSet

end Reserves

section
variable (type : Descriptor) (field : String) (records : Collection)

theorem newIdentity_reserves (s : Store) (form : IdentityForm) (text : String)
    (position : Position) :
    Reserves (form.reserved text) records.nextFreeId s
      (newIdentity type field records s form text position).2 := by
  cases form with
  | literal => exact .refl _ _ s
  | indirect => exact .of_getOrInsert s (Text.trim text) records.nextFreeId

/-- The induction is on the entries; each of them reserves at most the variable that it names. -/
theorem newIdentities_reserves (position : Position) (found : Option Datum) (s : Store)
    (entries : Entries) :
    Reserves (entries.reserved field) records.nextFreeId s
      (newIdentities type field records position found s entries).2 := by
  induction entries generalizing found s with
  | nil => exact .refl _ _ s
  | cons entry rest ih =>
      obtain ⟨key, node⟩ := entry
      have later (found : Option Datum) (s : Store) :
          Reserves (Entries.reserved field ((key, node) :: rest)) records.nextFreeId s
            (newIdentities type field records position found s rest).2 := by
        apply (ih found s).mono
        exact List.subset_append_right _ _
      unfold newIdentities
      split
      · exact later found s
      · rename_i form formed
        dsimp only
        cases node with
        | sequence _ _ | mapping _ _ => exact .refl _ _ s
        | scalar text place =>
            have subset : form.reserved text ⊆
                Entries.reserved field ((key, .scalar text place) :: rest) := by
              simp [Entries.reserved, formed]
            have here := (newIdentity_reserves type field records s form text
              (place.or position)).mono subset
            simp only [scalarText, Node.position]
            split
            · rename_i failed
              rw [failed] at here
              exact here
            · rename_i identity after made
              rw [made] at here
              exact here.trans (later (some identity) after)

theorem add_reserves (c : Context) (templates : Templates) (i : Instruction) :
    Reserves (i.reserved field templates) records.nextFreeId c.store
      (added c type field records i templates).2 := by
  rw [added_eq]
  unfold Instruction.reserved
  cases i.newEntries templates with
  | error e => exact .refl _ _ _
  | ok entries =>
      have reserves := newIdentities_reserves type field records i.position none c.store entries
      dsimp only
      split <;> rename_i outcome <;> rw [outcome] at reserves <;> exact reserves

end

namespace Workspace

/-- What a failed addition leaves behind. -/
theorem step_add_reserves {settings : Settings} {type : Descriptor} {w after : Workspace}
    {i : Instruction} {field : String} {records : Collection} {error : PatchError}
    (target : w.target = .collection field records) (adds : i.verb = .add)
    (failed : w.step settings type i = (.error error, after)) :
    Reserves (i.reserved field w.templates) records.nextFreeId w.store after.store := by
  have reserves := add_reserves type field records ⟨settings, w.store⟩ w.templates i
  simp only [step_eq, adds, target, stepCollection_eq target] at failed
  rw [keep_fails _ _ _ _ _ failed]
  exact reserves

/-- An addition that fails, for whatever reason and at whatever field, leaves every shared variable
as it was, if the variables that it names for the identity of its record are set already. -/
theorem step_add_error_store {settings : Settings} {type : Descriptor} {w after : Workspace}
    {i : Instruction} {field : String} {records : Collection} {error : PatchError}
    (target : w.target = .collection field records) (adds : i.verb = .add)
    (present : ∀ name ∈ i.reserved field w.templates, (w.store.get? name).isSome)
    (failed : w.step settings type i = (.error error, after)) (name : String) :
    after.store.get? name = w.store.get? name :=
  (step_add_reserves target adds failed).get?_eq present name

/-- A ship whose identity is kept in a variable, with a field that ships do not have. -/
def launch : Instruction :=
  .ofPayload .add (.mapping
    [("$ShipId", .scalar "Flagship" .unknown), ("Crew", .scalar "9" .unknown)] .unknown)

def registered : Store := ⟨[("Flagship", .number 3)]⟩

theorem step_add_error_store_launch :
    launch.verb = .add ∧
    (∀ name ∈ launch.reserved "ShipId" [], (registered.get? name).isSome) ∧
    ∃ error after,
      step .initial shipType ⟨.collection "ShipId" convoy, registered, []⟩ launch =
        (.error error, after) ∧
      ∀ name, after.store.get? name = registered.get? name := by
  have present : ∀ name ∈ launch.reserved "ShipId" [], (registered.get? name).isSome := by
    decide +kernel
  have fails : (step .initial shipType ⟨.collection "ShipId" convoy, registered, []⟩
      launch).1.isOk = false := by decide +kernel
  match outcome : step .initial shipType ⟨.collection "ShipId" convoy, registered, []⟩ launch with
  | (.ok done, after) =>
      rw [outcome] at fails
      cases fails
  | (.error error, after) =>
      exact ⟨rfl, present, error, after, rfl, step_add_error_store rfl rfl present outcome⟩

/-- The ship is not added, but its identity stays reserved in a variable that was not set. -/
theorem step_add_error_reserved :
    ∃ error after,
      step .initial shipType ⟨.collection "ShipId" convoy, .empty, []⟩ launch =
        (.error error, after) ∧
      Store.empty.get? "Flagship" = none ∧ (after.store.get? "Flagship").isSome := by
  have fails : (step .initial shipType ⟨.collection "ShipId" convoy, .empty, []⟩
      launch).1.isOk = false := by decide +kernel
  have leaves : ((step .initial shipType ⟨.collection "ShipId" convoy, .empty, []⟩
      launch).2.store.get? "Flagship").isSome := by decide +kernel
  match outcome : step .initial shipType ⟨.collection "ShipId" convoy, .empty, []⟩ launch with
  | (.ok done, after) =>
      rw [outcome] at fails
      cases fails
  | (.error error, after) =>
      rw [outcome] at leaves
      exact ⟨error, after, rfl, rfl, leaves⟩

end Workspace

end Emend.Patch
