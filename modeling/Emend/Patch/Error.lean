import Emend.Document.Node
import Emend.Formula.Error

/-!
The ways a patch instruction can fail, and what is reported about a patch run.
-/

set_option autoImplicit false

namespace Emend.Patch
open Emend.Formula (FormulaError)

def quoted (s : String) : String := "'" ++ s ++ "'"

inductive PatchError where
  | formula (error : FormulaError) (source : String) (position : Position)
  | mismatch (field expected found : String) (position : Position)
  | identityConflict (reason : String) (position : Position)
  | structural (reason : String) (position : Position)
  /-- Ends a whole pass. -/
  | contract (reason : String)

inductive ErrorKind where
  | grammar | unresolvedSymbol | evaluation | mismatch | identityConflict | structural | contract
  deriving Repr, DecidableEq

def ErrorKind.ofFormula : FormulaError → ErrorKind
  | .malformed _ | .tooDeep _ => grammar
  | .unresolved .. | .unknownFunction .. | .wrongArity .. => unresolvedSymbol
  | _ => evaluation

def ErrorKind.name : ErrorKind → String
  | grammar => "SyntaxError"
  | unresolvedSymbol => "UnresolvedSymbol"
  | evaluation => "EvaluationError"
  | mismatch => "TypeMismatch"
  | identityConflict => "IdentityConflict"
  | structural => "StructuralError"
  | contract => "ContractViolation"

namespace PatchError

def kind : PatchError → ErrorKind
  | formula error _ _ => .ofFormula error
  | mismatch .. => .mismatch
  | identityConflict .. => .identityConflict
  | structural .. => .structural
  | contract _ => .contract

def position? : PatchError → Option Position
  | formula _ _ position | mismatch _ _ _ position | identityConflict _ position
  | structural _ position => some position
  | contract _ => none

def message : PatchError → String
  | formula error source position =>
    error.message ++ " in formula " ++ quoted source ++ " at " ++ position.toText
  | mismatch field expected found position =>
    "Field " ++ quoted field ++ " at " ++ position.toText ++ ": expected " ++ expected ++ ", found " ++
      found
  | identityConflict reason position =>
    "Identity conflict at " ++ position.toText ++ ": " ++ reason
  | structural reason position =>
    "Malformed instruction at " ++ position.toText ++ ": " ++ reason
  | contract reason => "Contract violation: " ++ reason

/-- Why the program failed in a formula. -/
def interruption? : PatchError → Option String
  | formula (.interrupted reason) _ _ => some reason
  | _ => none

/-- What is reported in place of the error of a formula. A failure of the program is passed on. -/
def replacedBy (e other : PatchError) : PatchError := if e.interruption?.isSome then e else other

end PatchError

inductive Severity where
  | info | warning | error
  deriving Repr, DecidableEq

def Severity.name : Severity → String
  | info => "info"
  | warning => "warning"
  | error => "error"

structure Diagnostic where
  severity : Severity
  kind : Option ErrorKind
  message : String
  position : Position
  typeName : String
  deriving Repr, DecidableEq

namespace Diagnostic

def info (typeName message : String) (position : Position) : Diagnostic :=
  ⟨.info, none, message, position, typeName⟩

def ofError (typeName : String) (severity : Severity) (error : PatchError) : Diagnostic :=
  ⟨severity, some error.kind, error.message, error.position?.getD .unknown, typeName⟩

/-- The same note, at a place if it has none. -/
def «at» (d : Diagnostic) (position : Position) : Diagnostic :=
  { d with position := d.position.or position }

def isProblem (d : Diagnostic) : Bool := d.severity != .info

def toText (d : Diagnostic) : String :=
  d.severity.name ++ "[" ++ d.typeName ++ "] " ++ d.message ++
    if d.position.isKnown then " (line " ++ d.position.toText ++ ")" else ""

end Diagnostic

end Emend.Patch
