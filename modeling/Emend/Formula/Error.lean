import Emend.Coercion
import Emend.Formula.Token

/-!
The ways a formula can fail.
-/

set_option autoImplicit false

namespace Emend.Formula
open Emend.Text (Span)

inductive FormulaError where
  | malformed (error : ParseError)
  | unresolved (name : String) (span : Span)
  | unknownFunction (name : String) (span : Span)
  | wrongArity (function expected : String) (got : Nat)
  | coercion (error : CoercionError)
  | version (error : VersionError)
  | noMember (member typeName : String)
  | tooLong (length limit : Nat)
  | invalidPattern (pattern : String)
  | invalidOperation (reason : String)
  | tooDeep (limit : Nat)
  /-- The program fails, and so does all that waits for the formula. -/
  | interrupted (reason : String)

namespace FormulaError

def message : FormulaError → String
  | malformed error => "Syntax error: " ++ error.message
  | unresolved name span => "Unresolved symbol '" ++ name ++ "' at " ++ span.toText
  | unknownFunction name span => "Unknown function '" ++ name ++ "' at " ++ span.toText
  | wrongArity function expected got =>
    "Function " ++ function ++ " expects " ++ expected ++ " arguments, got " ++ toString got
  | coercion error => "Coercion error: " ++ error.message
  | version error => error.message
  | noMember member typeName => "Member '" ++ member ++ "' not found on " ++ typeName
  | tooLong length limit =>
    "repeat would produce " ++ toString length ++ " characters, limit is " ++ toString limit
  | invalidPattern pattern => "Invalid regular expression '" ++ pattern ++ "'"
  | invalidOperation reason => "Invalid operation: " ++ reason
  | tooDeep limit => "Maximum nesting depth of " ++ toString limit ++ " exceeded"
  | interrupted reason => reason

/-- Errors that show before a formula is evaluated. -/
def isCompileTime : FormulaError → Bool
  | malformed _ | unresolved .. | unknownFunction .. | wrongArity .. | tooDeep _ => true
  | _ => false

end FormulaError

end Emend.Formula
