import Emend.Proofs.Patch.Account

/-!
Documents that a test ends. What such a document leaves in the registry and among the shared
variables is what it would leave if it were cut off just before the test.
-/

set_option autoImplicit false

namespace Emend

/-- The items up to the one at `k`, of which `cut` keeps a part. -/
def cutAt {α : Type} (cut : α → α) : (k : Nat) → List α → List α
  | _, [] => []
  | 0, x :: _ => [cut x]
  | k + 1, x :: rest => x :: cutAt cut k rest

theorem map_cutAt {α β : Type} {f : α → β} {cut : α → α} {cut' : β → β}
    (same : ∀ x, f (cut x) = cut' (f x)) (k : Nat) (items : List α) :
    (cutAt cut k items).map f = cutAt cut' k (items.map f) := by
  induction items generalizing k with
  | nil => cases k <;> rfl
  | cons x rest ih =>
      cases k with
      | zero => exact congrArg ([·]) (same x)
      | succ k => exact congrArg (f x :: ·) (ih k)

theorem cutAt_append {α : Type} (cut : α → α) (k : Nat) (items others : List α) :
    cutAt cut k (items ++ others) =
      if k < items.length then cutAt cut k items
      else items ++ cutAt cut (k - items.length) others := by
  induction items generalizing k with
  | nil => rfl
  | cons x rest ih =>
      cases k with
      | zero => rfl
      | succ k =>
          rw [List.cons_append, cutAt, cutAt, ih]
          simp only [List.length_cons, Nat.add_lt_add_iff_right, Nat.add_sub_add_right]
          split <;> rfl

def Node.firstItems (n : Nat) : Node → Node
  | .sequence items position => .sequence (items.take n) position
  | body => if n = 0 then .sequence [] body.position else body

/-- The entries of a mapping up to the one at `k`, of which the first `n` instructions are kept. -/
def cutEntries (k n : Nat) : List (String × Node) → List (String × Node) :=
  cutAt (fun (name, body) => (name, body.firstItems n)) k

/-- The mappings of a document up to section `k`, of which the first `n` instructions are kept. -/
def cutMappings (k n : Nat) : List Node → List Node
  | .mapping entries position :: rest =>
    if k < entries.length then [.mapping (cutEntries k n entries) position]
    else .mapping entries position :: cutMappings (k - entries.length) n rest
  | items => items

/-- The document up to section `k`, of which the first `n` instructions are kept. -/
def Node.cut (k n : Nat) : Node → Node
  | .sequence items position => .sequence (cutMappings k n items) position
  | .mapping entries position => .mapping (cutEntries k n entries) position
  | .scalar text position => .scalar text position

namespace Patch

def Section.take (n : Nat) (s : Section) : Section := { s with entries := s.entries.take n }

theorem Section.ofNode_firstItems (typeName : String) (n : Nat) (body : Node) :
    Section.ofNode typeName (body.firstItems n) = (Section.ofNode typeName body).take n := by
  cases body with
  | sequence items position =>
      unfold Node.firstItems ofNode take
      dsimp only
      rw [List.map_take]
      rfl
  | scalar | mapping => cases n <;> simp [Node.firstItems, ofNode, take, Node.position]

theorem map_cutEntries (k n : Nat) (entries : List (String × Node)) :
    (cutEntries k n entries).map (fun (name, body) => Section.ofNode name body) =
      cutAt (Section.take n) k (entries.map fun (name, body) => Section.ofNode name body) :=
  map_cutAt (fun (name, body) => Section.ofNode_firstItems name n body) k entries

theorem mapM_cutMappings {items : List Node} {groups : List (List Section)} (k n : Nat)
    (read : items.mapM sectionsOf = .ok groups) :
    ∃ others, (cutMappings k n items).mapM sectionsOf = .ok others ∧
      others.flatten = cutAt (Section.take n) k groups.flatten := by
  induction items generalizing k groups with
  | nil =>
      cases read
      exact ⟨[], rfl, by cases k <;> rfl⟩
  | cons item rest ih =>
      rw [List.mapM_cons] at read
      obtain ⟨first, head, read⟩ := of_bind_ok read
      obtain ⟨later, tail, read⟩ := of_bind_ok read
      cases read
      cases item with
      | scalar | sequence => cases head
      | mapping entries position =>
          cases head
          unfold cutMappings
          rw [List.flatten_cons, cutAt_append, List.length_map]
          split
          · refine ⟨[_], rfl, ?_⟩
            rw [List.flatten_singleton]
            exact map_cutEntries k n entries
          · obtain ⟨others, made, same⟩ := ih (k - entries.length) tail
            refine ⟨(entries.map fun (name, body) => .ofNode name body) :: others, ?_, ?_⟩
            · rw [List.mapM_cons, made]
              rfl
            · rw [List.flatten_cons, same]

/-- A document that is cut off has its first sections, and of the last one the first entries. -/
theorem sections_cut {document : Node} {found : List Section} (k n : Nat)
    (read : sections document = .ok found) :
    sections (document.cut k n) = .ok (cutAt (Section.take n) k found) := by
  cases document with
  | scalar text position => cases read
  | mapping entries position =>
      cases read
      exact congrArg Except.ok (map_cutEntries k n entries)
  | sequence items position =>
      obtain ⟨groups, each, rfl⟩ := of_map_ok read
      obtain ⟨others, made, same⟩ := mapM_cutMappings k n each
      unfold Node.cut sections
      dsimp only
      rw [made, ← same]
      rfl

namespace Pass
variable {receive : Receiver} {settings : Settings} {type : Descriptor} {p : Pass}

theorem tell_isAborted (running : p.report.ending = .completed) (d : Diagnostic) :
    (p.tell receive d).report.ending.isAborted = false := by
  unfold tell
  split
  · rw [running]
    rfl
  · unfold finish
    rw [running]
    rfl

theorem step_aborted {i : Instruction} (running : p.report.ending = .completed)
    (aborted : (p.step receive settings type i).report.ending.isAborted) :
    i.verb = .test ∧ (∃ reason, test ⟨settings, p.workspace.store⟩ type.name i = .ok (some reason)) ∧
      (p.step receive settings type i).workspace = p.workspace := by
  have left := step_workspace receive settings type p i
  unfold step at aborted
  split at aborted
  rename_i outcome w made
  dsimp only at aborted
  split at aborted
  · refine absurd aborted (Bool.eq_false_iff.mp (tell_isAborted ?_ _))
    exact running
  · rename_i reason
    obtain ⟨verb, failed, rfl⟩ := Workspace.step_stopped _ _ _ _ _ _ made
    exact ⟨verb, ⟨reason, failed⟩, by rw [left, made]⟩
  · split at aborted
    · unfold finish at aborted
      rw [running] at aborted
      cases aborted
    · split at aborted
      · unfold finish at aborted
        rw [running] at aborted
        cases aborted
      · refine absurd aborted (Bool.eq_false_iff.mp (tell_isAborted ?_ _))
        exact running

theorem run_aborted {instructions : List Instruction} (running : p.report.ending = .completed)
    (aborted : (p.run receive settings type instructions).report.ending.isAborted) :
    ∃ before i after reason, instructions = before ++ i :: after ∧ i.verb = .test ∧
      test ⟨settings, (p.run receive settings type before).workspace.store⟩ type.name i =
        .ok (some reason) ∧
      (p.run receive settings type before).report.ending = .completed ∧
      (p.run receive settings type instructions).workspace =
        (p.run receive settings type before).workspace := by
  induction instructions generalizing p with
  | nil =>
      rw [run, running] at aborted
      cases aborted
  | cons i rest ih =>
      have goes : p.report.ending.isCompleted := by
        rw [running]
        rfl
      rw [run, if_pos goes] at aborted ⊢
      cases ending : (p.step receive settings type i).report.ending with
      | completed =>
          obtain ⟨before, j, after, reason, rfl, verb, failed, ended, same⟩ := ih ending aborted
          refine ⟨i :: before, j, after, reason, rfl, verb, ?_⟩
          rw [run, if_pos goes]
          exact ⟨failed, ended, same⟩
      | aborted | failed e | interrupted reason =>
          have stays : (p.step receive settings type i).run receive settings type rest =
              p.step receive settings type i := run_ended settings type (by rw [ending]; rfl) rest
          rw [stays] at aborted ⊢
          obtain ⟨verb, ⟨reason, failed⟩, same⟩ := step_aborted running aborted
          exact ⟨[], i, rest, reason, rfl, verb, failed, running, same⟩

end Pass

theorem Section.entry_of_instruction {s : Section} {before after : List Instruction}
    {i : Instruction} (split : s.instructions = before ++ i :: after) :
    ∃ n, s.entries[n]? = some (.ok i) ∧ (s.take n).instructions = before := by
  unfold take instructions at *
  generalize s.entries = entries at split ⊢
  induction entries generalizing before with
  | nil => simp at split
  | cons entry rest ih =>
      rw [List.filterMap_cons] at split
      cases entry with
      | error e =>
          obtain ⟨n, there, same⟩ := ih split
          exact ⟨n + 1, there, same⟩
      | ok j =>
          cases before with
          | nil =>
              cases (List.cons.inj split).1
              exact ⟨0, rfl, rfl⟩
          | cons first others =>
              obtain ⟨rfl, later⟩ := List.cons.inj split
              obtain ⟨n, there, same⟩ := ih later
              exact ⟨n + 1, there, congrArg (j :: ·) same⟩

namespace Patcher
variable {receive : Receiver} {p : Patcher}

theorem contain_isAborted (settings : Settings) (typeName : String) (r : PassReport) :
    (contain settings typeName r).ending.isAborted = r.ending.isAborted := by
  unfold contain
  split
  · rename_i ending
    split
    · rw [ending]
      rfl
    · rfl
  · rfl

/-- Not every formula of the test is true as things stand. -/
def Fails (p : Patcher) (i : Instruction) : Prop :=
  ∃ typeName reason, test ⟨p.settings, p.store⟩ typeName i = .ok (some reason)

/-- A pass that a test ends leaves what the pass over the instructions before the test leaves. -/
theorem applyPass_aborted {typeName : String} {instructions : List Instruction}
    (aborted : (p.applyPass receive typeName instructions).report.ending.isAborted) :
    ∃ before i after, instructions = before ++ i :: after ∧ i.verb = .test ∧
      (p.applyPass receive typeName before).patcher =
        (p.applyPass receive typeName instructions).patcher ∧
      (p.applyPass receive typeName before).report.ending = .completed ∧
      (p.applyPass receive typeName before).patcher.Fails i := by
  cases accepted : p.registry.isPatchable typeName with
  | false =>
      obtain ⟨e, done⟩ := applyPass_refused receive instructions accepted
      rw [done] at aborted
      cases aborted
  | true =>
      obtain ⟨key, type, stored, target, found, made⟩ := exists_target accepted
      rw [applyPass_eq found made, contain_isAborted] at aborted
      obtain ⟨before, i, after, reason, split, verb, failed, ended, same⟩ :=
        Pass.run_aborted rfl aborted
      refine ⟨before, i, after, split, verb, ?_⟩
      rw [applyPass_eq found made, applyPass_eq found made, same]
      refine ⟨rfl, ?_, type.name, reason, failed⟩
      unfold contain
      rw [ended]
      exact ended

theorem applySection_aborted {s : Section}
    (aborted : (p.applySection receive s).report.ending.isAborted) :
    ∃ n i, s.entries[n]? = some (.ok i) ∧ i.verb = .test ∧
      (p.applySection receive (s.take n)).patcher = (p.applySection receive s).patcher ∧
      (p.applySection receive (s.take n)).report.ending = .completed ∧
      (p.applySection receive (s.take n)).patcher.Fails i := by
  obtain ⟨before, i, after, split, verb, rest⟩ := applyPass_aborted aborted
  obtain ⟨n, there, rfl⟩ := Section.entry_of_instruction split
  exact ⟨n, i, there, verb, rest⟩

/-- The induction is on the sections; those before the one with the test are carried out in full. -/
theorem applySections_aborted {found : List Section}
    (aborted : (p.applySections receive found).report.any (·.ending.isAborted)) :
    ∃ k n s i, found[k]? = some s ∧ s.entries[n]? = some (.ok i) ∧ i.verb = .test ∧
      (p.applySections receive found).report.length = k + 1 ∧
      (p.applySections receive found).patcher.Fails i ∧
      (p.applySections receive (cutAt (Section.take n) k found)).patcher =
        (p.applySections receive found).patcher ∧
      (p.applySections receive (cutAt (Section.take n) k found)).report.any
        (·.ending.isAborted) = false := by
  induction found generalizing p with
  | nil => cases aborted
  | cons s rest ih =>
      rw [applySections] at aborted ⊢
      dsimp only at aborted ⊢
      split at aborted
      · rename_i ended
        rw [List.any_cons, List.any_nil, Bool.or_false] at aborted
        obtain ⟨n, i, there, verb, same, completed, fails⟩ := applySection_aborted aborted
        rw [if_pos ended]
        have only : p.applySections receive [s.take n] =
            ⟨(p.applySection receive (s.take n)).patcher,
              [(p.applySection receive (s.take n)).report],
              (p.applySection receive (s.take n)).diagnostics ++ []⟩ := by
          rw [applySections, completed]
          rfl
        refine ⟨0, n, s, i, rfl, there, verb, rfl, same ▸ fails, ?_⟩
        rw [cutAt, only]
        refine ⟨same, ?_⟩
        rw [List.any_cons, completed]
        rfl
      · rename_i goes
        obtain ⟨unended, -⟩ := Bool.or_eq_false_iff.mp (Bool.eq_false_iff.mpr goes)
        rw [List.any_cons, unended, Bool.false_or] at aborted
        obtain ⟨k, n, s', i, there, entry, verb, length, fails, same, runs⟩ := ih aborted
        rw [if_neg goes]
        refine ⟨k + 1, n, s', i, there, entry, verb, congrArg (· + 1) length, fails, ?_⟩
        rw [cutAt, applySections]
        dsimp only
        rw [if_neg goes]
        refine ⟨same, ?_⟩
        rw [List.any_cons, unended, runs]
        rfl

/-- A document that a test ends leaves the same registry and the same shared variables as the
document cut off just before that test, which ends by itself. -/
theorem applyDocument_aborted (receive : Receiver) (p : Patcher) {document : Node}
    (aborted : (p.applyDocument receive document).report.aborted) :
    ∃ found k n s i, sections document = .ok found ∧ found[k]? = some s ∧
      s.entries[n]? = some (.ok i) ∧ i.verb = .test ∧
      (p.applyDocument receive document).report.passes.length = k + 1 ∧
      (p.applyDocument receive document).patcher.Fails i ∧
      (p.applyDocument receive (document.cut k n)).patcher =
        (p.applyDocument receive document).patcher ∧
      (p.applyDocument receive (document.cut k n)).report.aborted = false := by
  unfold applyDocument at aborted
  cases read : sections document with
  | error e =>
      rw [read] at aborted
      cases aborted
  | ok found =>
      rw [read] at aborted
      obtain ⟨k, n, s, i, there, entry, verb, length, fails, same, runs⟩ :=
        applySections_aborted aborted
      refine ⟨found, k, n, s, i, rfl, there, entry, verb, ?_⟩
      unfold applyDocument
      rw [read, sections_cut k n read]
      exact ⟨length, fails, same, runs⟩

/-- The logbook is cut off in its third section. -/
theorem applyDocument_aborted_logbook :
    (harbour.applyDocument .faithful logbook).report.aborted ∧
    ∃ n, (harbour.applyDocument .faithful (logbook.cut 2 n)).patcher =
        (harbour.applyDocument .faithful logbook).patcher ∧
      (harbour.applyDocument .faithful (logbook.cut 2 n)).report.aborted = false := by
  have aborted : (harbour.applyDocument .faithful logbook).report.aborted := by decide +kernel
  have three : (harbour.applyDocument .faithful logbook).report.passes.length = 3 := by
    decide +kernel
  obtain ⟨found, k, n, s, i, -, -, -, -, length, -, same, runs⟩ :=
    applyDocument_aborted .faithful harbour aborted
  rw [three] at length
  cases length
  exact ⟨aborted, n, same, runs⟩

end Patcher

end Patch

end Emend
