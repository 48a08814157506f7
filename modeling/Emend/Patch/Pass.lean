import Emend.Patch.Step

/-!
Passes: the instructions for one type carried out in their order. An instruction that fails is
skipped. A test that fails ends the pass, and so do a broken contract and a failure of the program.
-/

set_option autoImplicit false

namespace Emend.Patch

/-- Takes the diagnostics of a pass as they come. A receiver may fail on one, for a reason; it does
not keep that one. -/
abbrev Receiver := Diagnostic → Option String

def Receiver.faithful : Receiver := fun _ => none

inductive Ending where
  | completed
  /-- A test ended the document. -/
  | aborted
  | failed (error : PatchError)
  /-- The program failed in the receiver or in a formula. -/
  | interrupted (reason : String)

namespace Ending

def isCompleted : Ending → Bool
  | completed => true
  | _ => false

def isAborted : Ending → Bool
  | aborted => true
  | _ => false

def isInterrupted : Ending → Bool
  | interrupted _ => true
  | _ => false

def failure? : Ending → Option PatchError
  | failed error => some error
  | _ => none

end Ending

structure PassReport where
  /-- The type as the document calls it. -/
  typeName : String
  applied : Nat
  skipped : Nat
  ending : Ending

namespace PassReport

def start (typeName : String) : PassReport := ⟨typeName, 0, 0, .completed⟩

/-- Whether nothing was skipped and nothing failed. -/
def isClean (r : PassReport) : Bool := r.skipped == 0 && r.ending.failure?.isNone

end PassReport

structure Pass where
  workspace : Workspace
  report : PassReport
  diagnostics : List Diagnostic

namespace Pass

def start (typeName : String) (w : Workspace) : Pass := ⟨w, .start typeName, []⟩

def finish (p : Pass) (ending : Ending) : Pass :=
  if p.report.ending.isCompleted then { p with report := { p.report with ending := ending } }
  else p

def tell (receive : Receiver) (p : Pass) (d : Diagnostic) : Pass :=
  match receive d with
  | none => { p with diagnostics := p.diagnostics ++ [d] }
  | some reason => p.finish (.interrupted reason)

section
variable (receive : Receiver) (settings : Settings) (type : Descriptor)

def step (p : Pass) (i : Instruction) : Pass :=
  let (outcome, w) := p.workspace.step settings type i
  let r := p.report
  match outcome with
  | .ok .applied =>
    let p : Pass := ⟨w, { r with applied := r.applied + 1 }, p.diagnostics⟩
    p.tell receive (.info type.name ("applied " ++ i.verb.name) i.position)
  | .ok (.stopped reason) =>
    let p : Pass := ⟨w, r, p.diagnostics⟩
    (p.tell receive reason).finish .aborted
  | .error e =>
    match e.interruption? with
    | some reason =>
      let p : Pass := ⟨w, r, p.diagnostics⟩
      p.finish (.interrupted reason)
    | none =>
      if e.kind = .contract then
        let p : Pass := ⟨w, r, p.diagnostics⟩
        p.finish (.failed e)
      else
        let p : Pass := ⟨w, { r with skipped := r.skipped + 1 }, p.diagnostics⟩
        p.tell receive ((Diagnostic.ofError type.name .warning e).at i.position)

def run (p : Pass) : List Instruction → Pass
  | [] => p
  | i :: rest => if p.report.ending.isCompleted then run (p.step receive settings type i) rest else p

end

end Pass

end Emend.Patch
