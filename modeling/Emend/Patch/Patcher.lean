import Emend.Patch.Pass
import Emend.Registry.Basic

/-!
Patch documents applied to a registry. Shared variables outlive passes and documents until they
are cleared.
-/

set_option autoImplicit false

namespace Emend.Patch

structure DocumentReport where
  passes : List PassReport
  aborted : Bool
  /-- Why the document as a whole could not be read. -/
  error : Option PatchError

namespace DocumentReport

def applied (r : DocumentReport) : Nat := r.passes.foldl (fun n pass => n + pass.applied) 0

def skipped (r : DocumentReport) : Nat := r.passes.foldl (fun n pass => n + pass.skipped) 0

def failures (r : DocumentReport) : List (String × PatchError) :=
  r.passes.filterMap fun pass => pass.ending.failure?.map (pass.typeName, ·)

end DocumentReport

structure Patcher where
  registry : Registry
  store : Store
  settings : Settings

/-- What is left to work on, a report, and the diagnostics in their order. -/
structure Patched (α : Type) where
  patcher : Patcher
  report : α
  diagnostics : List Diagnostic

namespace Patcher

def ofRegistry (r : Registry) : Patcher := ⟨r, .empty, .initial⟩

def reload (p : Patcher) : Patcher := { p with store := .empty }

/-- What a pass over a type works on. A collection needs a field for identities. -/
def target? (type : Descriptor) : Stored → Except PatchError Target
  | .collection records =>
    match records.identity with
    | some field => .ok (.collection field records)
    | none => .error (.contract ("cannot discover the identity field of " ++ type.name))
  | .single record => .ok (.single record)

/-- What is kept after a pass: indexed collections are rebuilt. -/
def stored : Target → Stored
  | .collection _ records => .collection records.rebuild.2
  | .single record => .single record

/-- A failure of the program counts as one of the pass if the settings contain it. -/
def contain (settings : Settings) (typeName : String) (report : PassReport) : PassReport :=
  match report.ending with
  | .interrupted reason =>
    if settings.containFailures then
      { report with
        ending := .failed (.contract ("panic while patching " ++ typeName ++ ": " ++ reason)) }
    else report
  | _ => report

/-- Carries out the instructions on what is registered under the name. -/
def applyPass (receive : Receiver) (p : Patcher) (typeName : String)
    (instructions : List Instruction) : Patched PassReport :=
  let start := PassReport.start typeName
  match p.registry.find? typeName with
  | none =>
    let error := PatchError.contract ("no definitions registered as " ++ quoted typeName)
    ⟨p, { start with ending := .failed error }, []⟩
  | some (key, registration) =>
    let type := registration.descriptor
    match target? type registration.stored with
    | .error error => ⟨p, { start with ending := .failed error }, []⟩
    | .ok target =>
      let pass := (Pass.start typeName ⟨target, p.store, []⟩).run receive p.settings type
        instructions
      let registry := p.registry.update key (stored pass.workspace.target)
      ⟨⟨registry, pass.workspace.store, p.settings⟩, contain p.settings typeName pass.report,
        pass.diagnostics⟩

/-- Applies one section. Its malformed instructions are told first and count as skipped. -/
def applySection (receive : Receiver) (p : Patcher) (s : Section) : Patched PassReport :=
  let malformed := s.malformed.map (Diagnostic.ofError s.typeName .warning)
  let done := p.applyPass receive s.typeName s.instructions
  let report := { done.report with skipped := done.report.skipped + malformed.length }
  ⟨done.patcher, report, malformed ++ done.diagnostics⟩

/-- Applies sections until a test ends the document, or a failure of the program does. -/
def applySections (receive : Receiver) (p : Patcher) :
    List Section → Patched (List PassReport)
  | [] => ⟨p, [], []⟩
  | s :: rest =>
    let first := p.applySection receive s
    if first.report.ending.isAborted || first.report.ending.isInterrupted then
      ⟨first.patcher, [first.report], first.diagnostics⟩
    else
      let others := applySections receive first.patcher rest
      ⟨others.patcher, first.report :: others.report, first.diagnostics ++ others.diagnostics⟩

def applyDocument (receive : Receiver) (p : Patcher) (document : Node) :
    Patched DocumentReport :=
  match sections document with
  | .error e => ⟨p, ⟨[], false, some e⟩, [.ofError "" .error e]⟩
  | .ok found =>
    let done := p.applySections receive found
    ⟨done.patcher, ⟨done.report, done.report.any (·.ending.isAborted), none⟩, done.diagnostics⟩

end Patcher

end Emend.Patch
