import Emend.Proofs.Patch.Contracts
import Emend.Proofs.Patch.ExactIndex

/-!
Every entry of a section is accounted for. An instruction that is applied or skipped is counted and
told once; a pass that a test ends tells that once more; and unless the program fails, a pass fails
only where nothing can be patched, before its first instruction.
-/

set_option autoImplicit false

namespace Emend

/-- A collection can be patched if its records have a field for identities. -/
def Stored.isPatchable : Stored → Bool
  | .collection records => records.identity.isSome
  | .single _ => true

namespace Registry

/-- Whether something that can be patched is registered under the name. -/
def isPatchable (r : Registry) (typeName : String) : Bool :=
  (r.find? typeName).any (·.2.stored.isPatchable)

theorem find?_update_eq (r : Registry) (key name : String) (stored : Stored) :
    (r.update key stored).find? name = (r.find? name).map fun (found, registration) =>
      (found, if found = key then ⟨registration.descriptor, stored⟩ else registration) := by
  cases kept : Fields.find? key r.types with
  | none =>
      have same : r.update key stored = r := by
        unfold update
        rw [kept]
      rw [same]
      cases found : r.find? name with
      | none => rfl
      | some entry =>
          obtain ⟨other, registration⟩ := entry
          have differ : other ≠ key := by
            rintro rfl
            rw [(find?_eq_some found).2] at kept
            cases kept
          simp only [Option.map_some, if_neg differ]
  | some old =>
      have updated : r.update key stored = ⟨Fields.put key ⟨old.descriptor, stored⟩ r.types⟩ := by
        unfold update
        rw [kept]
      have named : (r.update key stored).nameOf? name = r.nameOf? name := by
        rw [nameOf?_eq, nameOf?_eq, updated]
        dsimp only
        rw [Fields.names_put _ _ _ (by rw [kept]; rfl), Fields.find?_put]
        by_cases exact : name = key
        · rw [if_pos exact, exact, kept]
          rfl
        · rw [if_neg exact]
      unfold find?
      rw [named]
      cases r.nameOf? name with
      | none => rfl
      | some found =>
          change ((Fields.find? found (r.update key stored).types).bind fun x => some (found, x)) =
            Option.map _ ((Fields.find? found r.types).bind fun x => some (found, x))
          rw [updated]
          dsimp only
          rw [Fields.find?_put]
          by_cases here : found = key
          · subst here
            simp [kept]
          · rw [if_neg here]
            cases Fields.find? found r.types <;> simp [here]

theorem isPatchable_update {r : Registry} {key name typeName : String} {old : Registration}
    {stored : Stored} (found : r.find? name = some (key, old)) (before : old.stored.isPatchable)
    (after : stored.isPatchable) :
    (r.update key stored).isPatchable typeName = r.isPatchable typeName := by
  unfold isPatchable
  rw [find?_update_eq]
  cases there : r.find? typeName with
  | none => rfl
  | some entry =>
      obtain ⟨other, registration⟩ := entry
      simp only [Option.map_some, Option.any_some]
      split
      · rename_i same
        subst same
        have one := (find?_eq_some found).2
        rw [(find?_eq_some there).2] at one
        cases one
        rw [before, after]
      · rfl

end Registry

namespace Patch

theorem Patcher.target?_isOk (type : Descriptor) (stored : Stored) :
    (target? type stored).isOk = stored.isPatchable := by
  unfold target? Stored.isPatchable
  cases stored with
  | single r => rfl
  | collection records =>
      dsimp only
      cases records.identity <;> rfl

namespace Workspace

theorem step_single {settings : Settings} {type : Descriptor} {w : Workspace} {i : Instruction}
    {record : Record} (here : w.target = .single record) :
    ∃ after, (w.step settings type i).2.target = .single after := by
  have keep {α : Type} (made : Except PatchError α) (put : α → Workspace)
      (after : ∀ a, ∃ r, (put a).target = .single r) :
      ∃ r, (w.keep made put).2.target = .single r := by
    cases made with
    | ok a => exact after a
    | error e => exact ⟨record, here⟩
  rw [step_eq]
  dsimp only
  split
  · exact keep _ _ fun _ => ⟨record, here⟩
  · exact keep _ _ fun _ => ⟨record, here⟩
  · split <;> exact ⟨record, here⟩
  · rename_i there _ _ _
    rw [here] at there
    cases there
  · rename_i there _ _ _
    rw [stepSingle_eq there]
    split
    · exact keep _ _ fun r => ⟨r, rfl⟩
    · exact ⟨record, here⟩

end Workspace

namespace Diagnostic

def isInfo (d : Diagnostic) : Bool := d.severity == .info

def isWarning (d : Diagnostic) : Bool := d.severity == .warning

end Diagnostic

/-- What is told of an instruction that was carried out. -/
inductive Told (typeName : String) (i : Instruction) : Diagnostic → Prop
  | applied : Told typeName i (.info typeName ("applied " ++ i.verb.name) i.position)
  | skipped (e : PatchError) : Told typeName i ((Diagnostic.ofError typeName .warning e).at i.position)

namespace Pass
variable (settings : Settings) (type : Descriptor) {p : Pass}

/-- The pass after these diagnostics of instructions, which it counts. -/
def note (p : Pass) (told : List Diagnostic) (w : Workspace) : Pass :=
  ⟨w, { p.report with
      applied := p.report.applied + told.countP Diagnostic.isInfo
      skipped := p.report.skipped + told.countP Diagnostic.isWarning },
    p.diagnostics ++ told⟩

/-- The pass after a test has ended it. -/
def stop (p : Pass) (reason : Diagnostic) : Pass :=
  ⟨p.workspace, { p.report with ending := .aborted }, p.diagnostics ++ [reason]⟩

theorem note_nil (p : Pass) : p.note [] p.workspace = p := by
  simp [note]

theorem note_note (p : Pass) (first second : List Diagnostic) (w w' : Workspace) :
    (p.note first w).note second w' = p.note (first ++ second) w' := by
  simp [note, Nat.add_assoc]

theorem run_ended {receive : Receiver} (ended : p.report.ending.isCompleted = false)
    (instructions : List Instruction) : p.run receive settings type instructions = p := by
  cases instructions with
  | nil => rfl
  | cons i rest =>
      rw [run, ended]
      rfl

/-- A step counts and tells its instruction, unless it is a test that ends the pass. -/
theorem step_told (i : Instruction) (running : p.report.ending = .completed)
    (calm : (p.step .faithful settings type i).report.ending.isInterrupted = false) :
    (∃ d w, Told type.name i d ∧ p.step .faithful settings type i = p.note [d] w) ∨
      ∃ reason, i.verb = .test ∧ p.step .faithful settings type i = p.stop reason := by
  have sound := Workspace.step_keepsContract settings type p.workspace i
  unfold step at calm ⊢
  split at calm
  rename_i outcome w made
  rw [made] at sound
  dsimp only at calm ⊢
  split at calm
  · exact .inl ⟨_, w, .applied, rfl⟩
  · rename_i reason
    obtain ⟨verb, -, rfl⟩ := Workspace.step_stopped _ _ _ _ _ _ made
    refine .inr ⟨reason, verb, ?_⟩
    simp [tell, Receiver.faithful, finish, running, Ending.isCompleted, stop]
  · rename_i e
    cases failure : e.interruption? with
    | some reason =>
        simp [failure, finish, running, Ending.isCompleted, Ending.isInterrupted] at calm
    | none =>
        dsimp only
        rw [if_neg (sound e rfl)]
        exact .inl ⟨_, w, .skipped e, rfl⟩

/-- How a pass runs: it carries out the first instructions, each of which it counts and tells, and
these are all of them, or the next one is a test that ends the pass.

The induction is on the instructions. -/
theorem run_told (instructions : List Instruction) (running : p.report.ending = .completed)
    (calm : (p.run .faithful settings type instructions).report.ending.isInterrupted = false) :
    ∃ carried told w, List.Forall₂ (Told type.name) carried told ∧
      (instructions = carried ∧ p.run .faithful settings type instructions = p.note told w ∨
        ∃ i later reason, instructions = carried ++ i :: later ∧ i.verb = .test ∧
          p.run .faithful settings type instructions = (p.note told w).stop reason) := by
  induction instructions generalizing p with
  | nil => exact ⟨[], [], p.workspace, .nil, .inl ⟨rfl, p.note_nil.symm⟩⟩
  | cons i rest ih =>
      have goes : p.report.ending.isCompleted := by
        rw [running]
        rfl
      unfold run at calm ⊢
      rw [if_pos goes] at calm ⊢
      have first : (p.step .faithful settings type i).report.ending.isInterrupted = false := by
        cases ending : (p.step .faithful settings type i).report.ending with
        | interrupted reason =>
            rw [run_ended settings type (by rw [ending]; rfl), ending] at calm
            cases calm
        | _ => rfl
      rcases step_told settings type i running first with
        ⟨d, w, noted, stepped⟩ | ⟨reason, verb, stepped⟩
      · rw [stepped] at calm
        obtain ⟨carried, told, w', all, outcome⟩ := ih (p := p.note [d] w) running calm
        refine ⟨i :: carried, d :: told, w', .cons noted all, ?_⟩
        rw [stepped, note_note, List.singleton_append] at *
        rcases outcome with ⟨rfl, ran⟩ | ⟨j, later, reason, rfl, verb, ran⟩
        · exact .inl ⟨rfl, ran⟩
        · exact .inr ⟨j, later, reason, rfl, verb, ran⟩
      · refine ⟨[], [], p.workspace, .nil, .inr ⟨i, rest, reason, rfl, verb, ?_⟩⟩
        rw [stepped, note_nil]
        cases rest <;> rfl

theorem run_isPatchable {receive : Receiver} {stored : Stored} (instructions : List Instruction)
    (target : Patcher.target? type stored = .ok p.workspace.target) :
    (Patcher.stored (p.run receive settings type instructions).workspace.target).isPatchable := by
  cases stored with
  | single record =>
      have kept : ∃ r, (p.run receive settings type instructions).workspace.target = .single r :=
        run_keeps (P := fun w => ∃ r, w.target = .single r)
          ⟨record, (Except.ok.inj target).symm⟩ fun i _ w ⟨_, here⟩ => Workspace.step_single here
      obtain ⟨r, there⟩ := kept
      rw [there]
      rfl
  | collection records =>
      unfold Patcher.target? at target
      dsimp only at target
      split at target
      · rename_i field named
        obtain ⟨left, there, edited⟩ := run_edits receive settings type field instructions p
          records (Except.ok.inj target).symm
        rw [there]
        change left.rebuild.2.identity.isSome
        rw [Collection.rebuild_identity, edited.identity, named]
        rfl
      · cases target

end Pass

/-- What the report of a pass that the program fails in begins with, once the failure is contained. -/
def crashNote : String := "panic while patching "

/-- The program failed in the pass, whether or not that is contained. -/
def Ending.isCrash : Ending → Bool
  | .interrupted _ => true
  | .failed (.contract reason) => crashNote.toList.isPrefixOf reason.toList
  | _ => false

namespace Patcher

theorem of_contain_calm {settings : Settings} {typeName : String} {r : PassReport}
    (calm : (contain settings typeName r).ending.isCrash = false) :
    r.ending.isInterrupted = false := by
  unfold contain at calm
  split at calm
  · split at calm
    · rename_i reason _ _
      have noted : crashNote.toList.isPrefixOf
          ("panic while patching " ++ typeName ++ ": " ++ reason).toList := by
        rw [List.isPrefixOf_iff_prefix, String.append_assoc, String.append_assoc, String.toList_append]
        exact List.prefix_append _ _
      exact absurd noted (Bool.eq_false_iff.mp calm)
    · rename_i ending _
      rw [ending] at calm
      cases calm
  · rename_i other
    cases ending : r.ending with
    | interrupted reason => exact absurd ending (other reason)
    | _ => rfl

theorem applyPass_refused (receive : Receiver) {p : Patcher} {typeName : String}
    (instructions : List Instruction) (refused : p.registry.isPatchable typeName = false) :
    ∃ e, p.applyPass receive typeName instructions = ⟨p, ⟨typeName, 0, 0, .failed e⟩, []⟩ := by
  unfold Registry.isPatchable at refused
  unfold applyPass
  dsimp only
  cases found : p.registry.find? typeName with
  | none => exact ⟨_, rfl⟩
  | some entry =>
      obtain ⟨key, type, stored⟩ := entry
      rw [found, Option.any_some, ← target?_isOk type] at refused
      dsimp only
      cases made : target? type stored with
      | error e => exact ⟨e, rfl⟩
      | ok target =>
          rw [made] at refused
          cases refused

theorem exists_target {p : Patcher} {typeName : String}
    (accepted : p.registry.isPatchable typeName) :
    ∃ key type stored target, p.registry.find? typeName = some (key, ⟨type, stored⟩) ∧
      target? type stored = .ok target := by
  unfold Registry.isPatchable at accepted
  cases found : p.registry.find? typeName with
  | none =>
      rw [found] at accepted
      cases accepted
  | some entry =>
      obtain ⟨key, type, stored⟩ := entry
      rw [found, Option.any_some, ← target?_isOk type] at accepted
      obtain ⟨target, made⟩ := of_isOk accepted
      exact ⟨key, type, stored, target, rfl, made⟩

theorem applyPass_eq {receive : Receiver} {p : Patcher} {typeName key : String}
    {type : Descriptor} {stored : Stored} {target : Target}
    (found : p.registry.find? typeName = some (key, ⟨type, stored⟩))
    (made : target? type stored = .ok target) (instructions : List Instruction) :
    let pass := (Pass.start typeName ⟨target, p.store, []⟩).run receive p.settings type
      instructions
    p.applyPass receive typeName instructions =
      ⟨⟨p.registry.update key (Patcher.stored pass.workspace.target), pass.workspace.store,
        p.settings⟩, contain p.settings typeName pass.report, pass.diagnostics⟩ := by
  unfold applyPass
  rw [found]
  dsimp only
  rw [made]

/-- A pass leaves what can be patched as patchable as it was. -/
theorem applyPass_isPatchable (receive : Receiver) (p : Patcher) (typeName name : String)
    (instructions : List Instruction) :
    (p.applyPass receive typeName instructions).patcher.registry.isPatchable name =
      p.registry.isPatchable name := by
  cases accepted : p.registry.isPatchable typeName with
  | false =>
      obtain ⟨e, done⟩ := applyPass_refused receive instructions accepted
      rw [done]
  | true =>
      obtain ⟨key, type, stored, target, found, made⟩ := exists_target accepted
      rw [applyPass_eq found made]
      refine Registry.isPatchable_update found ?_ (Pass.run_isPatchable _ _ instructions made)
      rw [← target?_isOk type, made]
      rfl

end Patcher

theorem Section.length_entries (s : Section) :
    s.entries.length = s.malformed.length + s.instructions.length := by
  unfold malformed instructions
  induction s.entries with
  | nil => rfl
  | cons entry rest ih =>
      rw [List.filterMap_cons, List.filterMap_cons, List.length_cons]
      cases entry with
      | error e => exact (congrArg (· + 1) ih).trans (Nat.add_right_comm _ _ _)
      | ok i => exact congrArg (· + 1) ih

/-- What is told of the entries of a section: of those that are malformed, and of the instructions
that were carried out. -/
def Section.Notes (s : Section) (notes : List Diagnostic) : Prop :=
  ∃ typeName carried told, carried <+: s.instructions ∧
    List.Forall₂ (Told typeName) carried told ∧
    notes = s.malformed.map (.ofError s.typeName .warning) ++ told

/-- The account of a section: the report and the diagnostics of its pass, if the registry is as it
was before the document. -/
structure Accounted (registry : Registry) (s : Section) (r : PassReport) (ds : List Diagnostic) :
    Prop where
  typeName : r.typeName = s.typeName
  heard : r.ending.isInterrupted = false
  failed : r.ending.failure?.isSome = !registry.isPatchable s.typeName
  idle : r.ending.failure?.isSome → r.applied = 0 ∧ r.skipped = s.malformed.length
  all : r.ending.failure? = none → r.ending.isAborted = false →
    r.applied + r.skipped = s.entries.length
  told : ∃ notes last, ds = notes ++ last ∧ s.Notes notes ∧
    notes.countP Diagnostic.isInfo = r.applied ∧ notes.countP Diagnostic.isWarning = r.skipped ∧
    notes.length = r.applied + r.skipped ∧ last.length = if r.ending.isAborted then 1 else 0

theorem Accounted.of_same {registry other : Registry} {s : Section} {r : PassReport}
    {ds : List Diagnostic} (account : Accounted registry s r ds)
    (same : ∀ name, registry.isPatchable name = other.isPatchable name) :
    Accounted other s r ds :=
  { account with failed := by rw [account.failed, same] }

/-- The accounts of sections, one after the other. -/
inductive Accounts (registry : Registry) :
    List Section → List PassReport → List Diagnostic → Prop
  | nil : Accounts registry [] [] []
  | cons {s : Section} {r : PassReport} {ds later : List Diagnostic} {rest : List Section}
      {reports : List PassReport} (first : Accounted registry s r ds)
      (others : Accounts registry rest reports later) :
      Accounts registry (s :: rest) (r :: reports) (ds ++ later)

theorem countP_malformed (typeName : String) (errors : List PatchError) :
    (errors.map (Diagnostic.ofError typeName .warning)).countP Diagnostic.isInfo = 0 ∧
      (errors.map (Diagnostic.ofError typeName .warning)).countP Diagnostic.isWarning =
        errors.length := by
  rw [List.countP_map, List.countP_map]
  exact ⟨List.countP_eq_zero.mpr fun _ _ => Bool.false_ne_true,
    List.countP_eq_length.mpr fun _ _ => rfl⟩

theorem countP_told {typeName : String} {carried : List Instruction} {told : List Diagnostic}
    (all : List.Forall₂ (Told typeName) carried told) :
    told.countP Diagnostic.isInfo + told.countP Diagnostic.isWarning = told.length := by
  induction all with
  | nil => rfl
  | cons first _ ih =>
      rw [List.countP_cons, List.countP_cons, List.length_cons]
      cases first with
      | applied => simp [Diagnostic.isInfo, Diagnostic.isWarning, Diagnostic.info]; omega
      | skipped e =>
          simp [Diagnostic.isInfo, Diagnostic.isWarning, Diagnostic.ofError, Diagnostic.«at»]; omega

namespace Patcher

theorem accounted_of_told {registry : Registry} {s : Section} {typeName : String}
    {carried : List Instruction} {told : List Diagnostic} {ending : Ending} (last : List Diagnostic)
    (accepted : registry.isPatchable s.typeName) (begins : carried <+: s.instructions)
    (all : List.Forall₂ (Told typeName) carried told)
    (ends : ending = .completed ∧ carried = s.instructions ∧ last = [] ∨
      ending = .aborted ∧ last.length = 1) :
    Accounted registry s
      ⟨s.typeName, told.countP Diagnostic.isInfo,
        told.countP Diagnostic.isWarning + s.malformed.length, ending⟩
      (s.malformed.map (.ofError s.typeName .warning) ++ (told ++ last)) := by
  obtain ⟨noInfos, warnings⟩ := countP_malformed s.typeName s.malformed
  have each := countP_told all
  refine ⟨rfl, ?_, ?_, ?_, ?_, _, last, (List.append_assoc _ _ _).symm,
    ⟨typeName, carried, told, begins, all, rfl⟩, ?_, ?_, ?_, ?_⟩
  · rcases ends with ⟨rfl, -⟩ | ⟨rfl, -⟩ <;> rfl
  · rcases ends with ⟨rfl, -⟩ | ⟨rfl, -⟩ <;> rw [accepted] <;> rfl
  · rcases ends with ⟨rfl, -⟩ | ⟨rfl, -⟩ <;> nofun
  · intro _ running
    rcases ends with ⟨-, rfl, -⟩ | ⟨rfl, -⟩
    · have entries := s.length_entries
      have length := all.length_eq
      dsimp only
      omega
    · cases running
  · rw [List.countP_append, noInfos, Nat.zero_add]
  · rw [List.countP_append, warnings, Nat.add_comm]
  · rw [List.length_append, List.length_map]
    dsimp only
    omega
  · rcases ends with ⟨rfl, -, rfl⟩ | ⟨rfl, one⟩
    · rfl
    · exact one

theorem applySection_accounted (p : Patcher) (s : Section)
    (calm : (p.applySection .faithful s).report.ending.isCrash = false) :
    Accounted p.registry s (p.applySection .faithful s).report
      (p.applySection .faithful s).diagnostics := by
  unfold applySection at calm ⊢
  cases accepted : p.registry.isPatchable s.typeName with
  | false =>
      obtain ⟨e, done⟩ := applyPass_refused .faithful s.instructions accepted
      obtain ⟨noInfos, warnings⟩ := countP_malformed s.typeName s.malformed
      rw [done]
      refine ⟨rfl, rfl, by rw [accepted]; rfl, fun _ => ⟨rfl, ?_⟩, nofun, _, [], rfl,
        ⟨s.typeName, [], [], List.nil_prefix, .nil, (List.append_nil _).symm⟩, ?_, ?_, ?_, rfl⟩
      all_goals simp [noInfos, warnings]
  | true =>
      obtain ⟨key, type, stored, target, found, made⟩ := exists_target accepted
      rw [applyPass_eq found made] at calm ⊢
      obtain ⟨carried, told, w, all, outcome⟩ := Pass.run_told p.settings type
        (p := .start s.typeName ⟨target, p.store, []⟩) s.instructions rfl (of_contain_calm calm)
      rcases outcome with ⟨complete, ran⟩ | ⟨i, later, reason, complete, verb, ran⟩
      · rw [ran]
        have account := accounted_of_told [] accepted (complete ▸ List.prefix_rfl) all
          (.inl ⟨rfl, complete.symm, rfl⟩)
        simpa [Pass.note, Pass.start, PassReport.start, contain] using account
      · rw [ran]
        have account := accounted_of_told [reason] accepted
          ⟨i :: later, complete.symm⟩ all (.inr ⟨rfl, rfl⟩)
        simpa [Pass.stop, Pass.note, Pass.start, PassReport.start, contain] using account

theorem applySection_isPatchable (receive : Receiver) (p : Patcher) (s : Section)
    (name : String) :
    (p.applySection receive s).patcher.registry.isPatchable name = p.registry.isPatchable name :=
  applyPass_isPatchable receive p s.typeName name s.instructions

/-- The induction is on the sections. What can be patched is the same before each of them, so every
account may refer to the registry that the document began with. -/
theorem applySections_accounts {registry : Registry} {p : Patcher}
    (same : ∀ name, p.registry.isPatchable name = registry.isPatchable name)
    (found : List Section)
    (calm : ∀ r ∈ (p.applySections .faithful found).report, r.ending.isCrash = false) :
    ∃ executed rest, found = executed ++ rest ∧
      Accounts registry executed (p.applySections .faithful found).report
        (p.applySections .faithful found).diagnostics ∧
      (rest ≠ [] → (p.applySections .faithful found).report.any (·.ending.isAborted)) := by
  induction found generalizing p with
  | nil => exact ⟨[], [], rfl, .nil, fun more => absurd rfl more⟩
  | cons s rest ih =>
      unfold applySections at calm ⊢
      dsimp only at calm ⊢
      split at calm
      · rename_i ended
        have first := (p.applySection_accounted s (calm _ List.mem_cons_self)).of_same same
        rw [if_pos ended]
        rw [first.heard, Bool.or_false] at ended
        refine ⟨[s], rest, rfl, ?_, fun _ => ?_⟩
        · have only := Accounts.cons first .nil
          rwa [List.append_nil] at only
        · rw [List.any_cons, ended, Bool.true_or]
      · rename_i goes
        have first := (p.applySection_accounted s (calm _ List.mem_cons_self)).of_same same
        obtain ⟨executed, left, split, others, aborted⟩ :=
          ih (p := (p.applySection .faithful s).patcher)
            (fun name => (applySection_isPatchable .faithful p s name).trans (same name))
            fun r member => calm r (List.mem_cons_of_mem _ member)
        rw [if_neg goes]
        refine ⟨s :: executed, left, congrArg (s :: ·) split, .cons first others, fun more => ?_⟩
        rw [List.any_cons, aborted more, Bool.or_true]

/-- Let every diagnostic of a document be received, and the program not fail. Its sections are carried
out up to one whose test ends the document, or all of them, and each of these is accounted for. -/
theorem applyDocument_accounts (p : Patcher) {document : Node} {found : List Section}
    (read : sections document = .ok found)
    (calm : ∀ r ∈ (p.applyDocument .faithful document).report.passes, r.ending.isCrash = false) :
    ∃ executed rest, found = executed ++ rest ∧
      Accounts p.registry executed (p.applyDocument .faithful document).report.passes
        (p.applyDocument .faithful document).diagnostics ∧
      (rest ≠ [] → (p.applyDocument .faithful document).report.aborted) ∧
      (p.applyDocument .faithful document).report.error = none := by
  unfold applyDocument at calm ⊢
  rw [read] at calm ⊢
  obtain ⟨executed, rest, split, accounts, aborted⟩ :=
    p.applySections_accounts (fun _ => rfl) found calm
  exact ⟨executed, rest, split, accounts, aborted, rfl⟩

/-- An entry that fails, one with two verbs and one that succeeds, then a type that is not known,
then a test that ends the document before its last two removals. -/
def logbook : Node :=
  let entry (verb text : String) : Node := .mapping [(verb, .scalar text .unknown)] .unknown
  .sequence
    [.mapping
      [("Ship", .sequence [entry "remove" "7", .mapping [("add", .scalar "" .unknown),
          ("test", .scalar "" .unknown)] .unknown, entry "remove" "0"] .unknown),
        ("Wharf", .sequence [entry "remove" "0", entry "dig" "0"] .unknown)] .unknown,
      .mapping
        [("Ship", .sequence [entry "test" "1 is 2", entry "remove" "2"] .unknown),
          ("ship", entry "remove" "2")] .unknown] .unknown

theorem applyDocument_accounts_logbook :
    (∀ r ∈ (harbour.applyDocument .faithful logbook).report.passes, r.ending.isCrash = false) ∧
    ∃ found executed rest, sections logbook = .ok found ∧ found = executed ++ rest ∧
      Accounts harbour.registry executed (harbour.applyDocument .faithful logbook).report.passes
        (harbour.applyDocument .faithful logbook).diagnostics ∧
      (harbour.applyDocument .faithful logbook).report.passes.map
        (fun r => (r.applied, r.skipped)) = [(1, 2), (0, 1), (0, 0)] := by
  have readable : (sections logbook).isOk := by decide +kernel
  have calm : ∀ r ∈ (harbour.applyDocument .faithful logbook).report.passes,
      r.ending.isCrash = false := by decide +kernel
  obtain ⟨found, read⟩ := of_isOk readable
  obtain ⟨executed, rest, split, accounts, -⟩ := harbour.applyDocument_accounts read calm
  exact ⟨calm, found, executed, rest, read, split, accounts, by decide +kernel⟩

end Patcher

end Patch

end Emend
