import Emend.Proofs.Patch.InPlace
import Emend.Proofs.Patch.InTurn
import Mathlib.Logic.Function.Basic

/-!
Shared variables set all together or not at all. An instruction that fails leaves them as they were.
One that succeeds leaves every variable as the last entry of its name says, and the others alone.
-/

set_option autoImplicit false

namespace Emend.Patch

def Entries.named (entries : Entries) : List String := entries.map fun entry => (fieldKey entry.1).1

/-- The variables as the entries read so far will leave them, and the values that these entries gave,
which formulas see as names. The variables themselves are untouched as yet. -/
structure Draft where
  current : String → Option Value
  given : Bindings

namespace Draft

def start (s : Store) : Draft := ⟨s.get?, []⟩

/-- The names for the formula of a variable: what was given, and over it the value that the variable
has by now. -/
def names (d : Draft) (name : String) : Bindings :=
  Fields.put "value" ((d.current name).getD .null) d.given

def put (d : Draft) (name : String) (outcome : Option Value) : Draft where
  current := Function.update d.current name outcome
  given := match outcome with
    | some v => Fields.put name v d.given
    | none => d.given

section
variable (c : Context) (place : Position) (d : Draft)

/-- What an entry gives to its variable: nothing, which takes a variable that is there away; or a
value, which is that of the formula, or the text itself where it need not be a formula and is none. -/
inductive Gives : String × Node → Option Value → Prop
  | goes {key text : String} {position : Position} (word : c.isDelete text = true)
      (present : d.current (fieldKey key).1 ≠ none) : Gives (key, .scalar text position) none
  | evaluates {key text : String} {position : Position} {v : Value}
      (other : c.isDelete text = false)
      (success : c.evaluate (d.names (fieldKey key).1) text (position.or place) = .ok v) :
      Gives (key, .scalar text position) (some v)
  | keeps {key text : String} {position : Position} {e : PatchError}
      (other : c.isDelete text = false) (plain : (fieldKey key).2 = false)
      (failure : c.evaluate (d.names (fieldKey key).1) text (position.or place) = .error e)
      (runs : e.interruption? = none) :
      Gives (key, .scalar text position) (some (.text text))

/-- Why an entry fails: it is no scalar, the variable that is to go is not there, what must be a
formula fails, or the program does. -/
inductive Fails : String × Node → Prop
  | form {key : String} {node : Node} (other : ∀ text position, node ≠ .scalar text position) :
      Fails (key, node)
  | absent {key text : String} {position : Position} (word : c.isDelete text = true)
      (absent : d.current (fieldKey key).1 = none) : Fails (key, .scalar text position)
  | formula {key text : String} {position : Position} {e : PatchError}
      (other : c.isDelete text = false) (marked : (fieldKey key).2 = true)
      (failure : c.evaluate (d.names (fieldKey key).1) text (position.or place) = .error e) :
      Fails (key, .scalar text position)
  | crash {key text reason : String} {position : Position} {e : PatchError}
      (other : c.isDelete text = false)
      (failure : c.evaluate (d.names (fieldKey key).1) text (position.or place) = .error e)
      (crash : e.interruption? = some reason) :
      Fails (key, .scalar text position)

end

/-- The draft after entries that all succeed. -/
inductive Reads (c : Context) (place : Position) : Draft → Entries → Draft → Prop
  | nil (d : Draft) : Reads c place d [] d
  | cons {d final : Draft} {entry : String × Node} {rest : Entries} {outcome : Option Value}
      (gives : d.Gives c place entry outcome)
      (later : Reads c place (d.put (fieldKey entry.1).1 outcome) rest final) :
      Reads c place d (entry :: rest) final

variable {c : Context} {place : Position}

theorem Gives.unique {d : Draft} {entry : String × Node} {first second : Option Value}
    (one : d.Gives c place entry first) (other : d.Gives c place entry second) : first = second := by
  cases one <;> cases other <;> simp_all

theorem Gives.not_fails {d : Draft} {entry : String × Node} {outcome : Option Value}
    (gives : d.Gives c place entry outcome) : ¬ d.Fails c place entry := by
  intro fails
  cases gives <;> cases fails <;> simp_all

theorem Reads.unique {d first second : Draft} {entries : Entries}
    (one : d.Reads c place entries first) (other : d.Reads c place entries second) :
    first = second := by
  induction one with
  | nil =>
      cases other
      rfl
  | cons gives later ih =>
      cases other with
      | cons also later =>
          rw [gives.unique also] at ih
          exact ih later

theorem Reads.split {d final : Draft} {front back : Entries} {entry : String × Node}
    (reads : d.Reads c place (front ++ entry :: back) final) :
    ∃ middle outcome, d.Reads c place front middle ∧ middle.Gives c place entry outcome ∧
      (middle.put (fieldKey entry.1).1 outcome).Reads c place back final := by
  induction front generalizing d with
  | nil =>
      cases reads with
      | cons gives later => exact ⟨d, _, .nil d, gives, later⟩
  | cons first rest ih =>
      cases reads with
      | cons gives later =>
          obtain ⟨middle, outcome, before, here, after⟩ := ih later
          exact ⟨middle, outcome, .cons gives before, here, after⟩

theorem Reads.current_other {d final : Draft} {entries : Entries} {name : String}
    (reads : d.Reads c place entries final) (absent : name ∉ entries.named) :
    final.current name = d.current name := by
  induction reads with
  | nil => rfl
  | cons gives later ih =>
      obtain ⟨differ, absent⟩ := not_or.mp (mt List.mem_cons.mpr absent)
      rw [ih absent]
      exact Function.update_of_ne differ _ _

/-- The last entry of a name decides. -/
theorem Reads.current_last {d final : Draft} {front back : Entries} {entry : String × Node}
    (reads : d.Reads c place (front ++ entry :: back) final)
    (last : (fieldKey entry.1).1 ∉ back.named) :
    ∃ middle, d.Reads c place front middle ∧
      middle.Gives c place entry (final.current (fieldKey entry.1).1) := by
  obtain ⟨middle, outcome, before, gives, after⟩ := reads.split
  refine ⟨middle, before, ?_⟩
  rw [after.current_other last]
  have decided : (middle.put (fieldKey entry.1).1 outcome).current (fieldKey entry.1).1 = outcome :=
    Function.update_self _ _ _
  rwa [decided]

def ofWrites (s : Store) (writes : List Write) : Draft := ⟨waiting? s writes, bound writes⟩

theorem ofWrites_concat (s : Store) (writes : List Write) (w : Write) :
    ofWrites s (writes ++ [w]) = (ofWrites s writes).put w.name w.value? := by
  unfold ofWrites put
  rw [bound_concat]
  congr 1
  funext name
  rw [waiting?_concat, Function.update_apply]

theorem of_stateWrite_ok {writes : List Write} {key : String} {node : Node} {w : Write}
    (success : stateWrite c writes key node place = .ok w) :
    w.name = (fieldKey key).1 ∧ (ofWrites c.store writes).Gives c place (key, node) w.value? := by
  cases node with
  | sequence | mapping => cases success
  | scalar text position =>
      rw [stateWrite_scalar] at success
      dsimp only at success
      split at success
      · rename_i word
        split at success
        · rename_i present
          cases success
          exact ⟨rfl, .goes word (Option.ne_none_iff_exists'.mpr ⟨_, present⟩)⟩
        · cases success
      · rename_i other
        rw [Bool.not_eq_true] at other
        split at success
        · rename_i v evaluated
          cases success
          exact ⟨rfl, .evaluates other evaluated⟩
        · rename_i e failure
          split at success
          · cases success
          · rename_i mild
            cases success
            obtain ⟨plain, runs⟩ := Bool.or_eq_false_iff.mp (Bool.eq_false_iff.mpr mild)
            exact ⟨rfl, .keeps other plain failure (Option.isSome_eq_false_iff.mp runs |> Option.isNone_iff_eq_none.mp)⟩

theorem of_stateWrite_error {writes : List Write} {key : String} {node : Node} {e : PatchError}
    (failed : stateWrite c writes key node place = .error e) :
    (ofWrites c.store writes).Fails c place (key, node) := by
  cases node with
  | sequence | mapping => exact .form fun text position same => nomatch same
  | scalar text position =>
      rw [stateWrite_scalar] at failed
      dsimp only at failed
      split at failed
      · rename_i word
        split at failed
        · cases failed
        · rename_i absent
          exact .absent word absent
      · rename_i other
        rw [Bool.not_eq_true] at other
        split at failed
        · cases failed
        · rename_i e failure
          split at failed
          · rename_i severe
            rcases Bool.or_eq_true_iff.mp severe with marked | crash
            · exact .formula other marked failure
            · obtain ⟨reason, crash⟩ := Option.isSome_iff_exists.mp crash
              exact .crash other failure crash
          · cases failed

theorem of_stateWrites_ok {writes final : List Write} {entries : Entries}
    (success : stateWrites c place writes entries = .ok final) :
    (ofWrites c.store writes).Reads c place entries (ofWrites c.store final) := by
  induction entries generalizing writes with
  | nil =>
      cases success
      exact .nil _
  | cons entry rest ih =>
      obtain ⟨key, node⟩ := entry
      unfold stateWrites at success
      obtain ⟨w, made, success⟩ := of_bind_ok success
      obtain ⟨named, gives⟩ := of_stateWrite_ok made
      have later := ih success
      rw [ofWrites_concat, named] at later
      exact .cons gives later

/-- Entries that cannot all be read come to one that fails after the others were read. -/
theorem of_stateWrites_error {writes : List Write} {entries : Entries} {e : PatchError}
    (failed : stateWrites c place writes entries = .error e) :
    ∃ front entry back d, entries = front ++ entry :: back ∧
      (ofWrites c.store writes).Reads c place front d ∧ d.Fails c place entry := by
  induction entries generalizing writes with
  | nil => cases failed
  | cons entry rest ih =>
      obtain ⟨key, node⟩ := entry
      unfold stateWrites at failed
      rcases of_bind_error failed with made | ⟨w, made, failed⟩
      · exact ⟨[], (key, node), rest, _, rfl, .nil _, of_stateWrite_error made⟩
      · obtain ⟨named, gives⟩ := of_stateWrite_ok made
        obtain ⟨front, entry, back, d, rfl, before, fails⟩ := ih failed
        rw [ofWrites_concat, named] at before
        exact ⟨(key, node) :: front, entry, back, d, rfl, .cons gives before, fails⟩

end Draft

/-- The payload is no mapping, or one of its entries fails where it stands. -/
def Instruction.FailsState (c : Context) (i : Instruction) : Prop :=
  (∀ entries place, i.payload ≠ .mapping entries place) ∨
    ∃ front entry back place d, i.payload = .mapping (front ++ entry :: back) place ∧
      (Draft.start c.store).Reads c i.position front d ∧ d.Fails c i.position entry

section
variable {c : Context} {i : Instruction}

theorem of_setState_error {e : PatchError} (failed : setState c i = .error e) : i.FailsState c := by
  unfold setState Instruction.entries at failed
  split at failed
  · rename_i entries place payload
    rw [ok_bind] at failed
    rcases of_bind_error failed with made | ⟨writes, -, failed⟩
    · obtain ⟨front, entry, back, d, rfl, before, fails⟩ := Draft.of_stateWrites_error made
      exact .inr ⟨front, entry, back, place, d, payload, before, fails⟩
    · cases failed
  · rename_i other
    exact .inl other

theorem of_setState_ok {after : Store} (sorted : c.store.Sorted)
    (success : setState c i = .ok after) :
    ∃ entries place final, i.payload = .mapping entries place ∧
      (Draft.start c.store).Reads c i.position entries final ∧
      ∀ name, after.get? name = final.current name := by
  unfold setState Instruction.entries at success
  split at success
  · rename_i entries place payload
    rw [ok_bind] at success
    obtain ⟨writes, made, success⟩ := of_bind_ok success
    cases success
    exact ⟨entries, place, _, payload, Draft.of_stateWrites_ok made, (foldl_apply sorted writes).2⟩
  · cases success

theorem Instruction.FailsState.setState_ne_ok (fails : i.FailsState c) (after : Store) :
    setState c i ≠ .ok after := by
  intro success
  unfold setState Instruction.entries at success
  split at success
  · rename_i entries place payload
    rw [ok_bind] at success
    obtain ⟨writes, made, -⟩ := of_bind_ok success
    rcases fails with other | ⟨front, entry, back, _, d, same, before, here⟩
    · exact other _ _ payload
    · cases payload.symm.trans same
      obtain ⟨middle, outcome, also, gives, -⟩ := (Draft.of_stateWrites_ok made).split
      rw [before.unique also] at here
      exact gives.not_fails here
  · cases success

end

namespace Workspace

theorem step_state (settings : Settings) (type : Descriptor) {w : Workspace} {i : Instruction}
    (verb : i.verb = .state) :
    w.step settings type i =
      w.keep (setState ⟨settings, w.store⟩ i) fun store => { w with store := store } := by
  simp only [step_eq, verb]

/-- An instruction that sets shared variables fails if and only if one of its entries fails where it
stands, or if it has none, and then nothing has changed. Otherwise each variable that it names is what
the last entry of this name gives where it stands, and all else is as it was. -/
theorem step_state_allOrNothing (settings : Settings) (type : Descriptor) {w : Workspace}
    {i : Instruction} (sorted : w.store.Sorted) (verb : i.verb = .state) :
    let c : Context := ⟨settings, w.store⟩
    (i.FailsState c ↔ ∃ e left, w.step settings type i = (.error e, left)) ∧
    (∀ e left, w.step settings type i = (.error e, left) → left = w) ∧
    ∀ outcome left, w.step settings type i = (.ok outcome, left) →
      left = { w with store := left.store } ∧
      ∃ (entries : Entries) (place : Position), i.payload = .mapping entries place ∧
        (∀ name ∉ entries.named, left.store.get? name = w.store.get? name) ∧
        ∀ (front : Entries) (entry : String × Node) (back : Entries),
          entries = front ++ entry :: back → (fieldKey entry.1).1 ∉ back.named →
          ∃ d, (Draft.start w.store).Reads c i.position front d ∧
            d.Gives c i.position entry (left.store.get? (fieldKey entry.1).1) := by
  intro c
  rw [step_state settings type verb]
  cases made : setState c i with
  | error e =>
      refine ⟨iff_of_true (of_setState_error made) ⟨e, w, rfl⟩, fun _ left failed => ?_,
        fun _ left applied => nomatch applied⟩
      exact (congrArg Prod.snd failed).symm
  | ok after =>
      refine ⟨iff_of_false (fun fails => fails.setState_ne_ok after made) ?_,
        fun _ left failed => (nomatch failed), fun _ left applied => ?_⟩
      · rintro ⟨e, left, failed⟩
        cases failed
      · cases applied
        obtain ⟨entries, place, final, payload, reads, kept⟩ := of_setState_ok sorted made
        refine ⟨rfl, entries, place, payload, fun name absent => ?_, ?_⟩
        · rw [kept, reads.current_other absent]
          rfl
        · rintro front entry back rfl last
          rw [kept]
          exact reads.current_last last

/-- A number, and a variable that the instructions do not name. -/
def wharf : Workspace :=
  ⟨.single ⟨"Wharf", []⟩, .ofList [("Base", .number 4), ("Home", .text "Port")], []⟩

/-- The refit, and a formula that has to be one and is none. -/
def wreck : Entries := refit ++ [("$Rate", .scalar "Nowhere" .unknown)]

def wharfType : Descriptor := .record "Wharf" [] none false

theorem step_state_allOrNothing_wharf :
    wharf.store.Sorted ∧ (stating refit).verb = .state ∧ (stating wreck).verb = .state ∧
    (∃ outcome left, wharf.step .initial wharfType (stating refit) = (.ok outcome, left) ∧
      left.store.get? "Home" = wharf.store.get? "Home" ∧
      ∃ d, (Draft.start wharf.store).Reads ⟨.initial, wharf.store⟩ .unknown (refit.take 4) d ∧
        d.Gives ⟨.initial, wharf.store⟩ .unknown ("Copy", .scalar "value + Base" .unknown)
          (left.store.get? "Copy")) ∧
    ∃ e, wharf.step .initial wharfType (stating wreck) = (.error e, wharf) := by
  have sorted : wharf.store.Sorted := Store.ofList_sorted _
  have succeeds : (wharf.step .initial wharfType (stating refit)).1.isOk := by decide +kernel
  have fails : (wharf.step .initial wharfType (stating wreck)).1.isOk = false := by decide +kernel
  refine ⟨sorted, rfl, rfl, ?_, ?_⟩
  · match applied : wharf.step .initial wharfType (stating refit) with
    | (.error e, left) =>
        rw [applied] at succeeds
        cases succeeds
    | (.ok outcome, left) =>
        obtain ⟨-, -, success⟩ := step_state_allOrNothing .initial wharfType sorted
          (show (stating refit).verb = .state from rfl)
        obtain ⟨-, entries, place, payload, others, last⟩ := success outcome left applied
        cases payload
        have spelled : (fieldKey "Copy").1 = "Copy" := by decide +kernel
        have copy := last (refit.take 4) ("Copy", .scalar "value + Base" .unknown) [] rfl
          List.not_mem_nil
        dsimp only at copy
        rw [spelled] at copy
        exact ⟨outcome, left, rfl, others "Home" (by decide +kernel), copy⟩
  · match failed : wharf.step .initial wharfType (stating wreck) with
    | (.ok outcome, left) =>
        rw [failed] at fails
        cases fails
    | (.error e, left) =>
        have unchanged := (step_state_allOrNothing .initial wharfType sorted
          (show (stating wreck).verb = .state from rfl)).2.1 e left failed
        rw [unchanged]
        exact ⟨e, rfl⟩

end Workspace

end Emend.Patch
