import Emend.Text.Span

/-!
Parsed formulas.
-/

set_option autoImplicit false

namespace Emend.Formula
open Emend.Text (Span)

inductive Literal where
  | number (value : Float)
  | text (value : String)
  | boolean (value : Bool)

inductive UnaryOp where
  | negate | plus | not
  deriving Repr, DecidableEq

inductive BinaryOp where
  | add | subtract | multiply | divide | modulo | power
  | less | lessEqual | greater | greaterEqual
  | equals | and | or
  | concat | repeated
  | contains | startsWith | endsWith | fitsPattern
  | inVersions
  deriving Repr, DecidableEq

inductive Expr where
  | literal (value : Literal)
  /-- A dotted path such as `item.Cost`; it has at least one segment. -/
  | symbol (head : String) (tail : List String) (span : Span)
  /-- A member of a computed value. -/
  | member (target : Expr) (name : String)
  | unary (op : UnaryOp) (operand : Expr)
  | binary (op : BinaryOp) (left right : Expr)
  | replace (input pattern replacement : Expr)
  | call (name : String) (args : List Expr) (span : Span)
  /-- Two items or more. -/
  | tuple (items : List Expr)

def UnaryOp.spelling : UnaryOp → String
  | negate => "-" | plus => "+" | not => "not"

def BinaryOp.spelling : BinaryOp → String
  | add => "+" | subtract => "-" | multiply => "*" | divide => "/" | modulo => "%" | power => "^"
  | less => "<" | lessEqual => "<=" | greater => ">" | greaterEqual => ">="
  | equals => "is" | and => "and" | or => "or"
  | concat => ".." | repeated => "repeat"
  | contains => "contains" | startsWith => "starts" | endsWith => "ends" | fitsPattern => "matches"
  | inVersions => "in versions"

/-- A formula without a scope: a named constant, in any case. -/
def Literal.ofName? (name : String) : Option Literal :=
  match name.toLower with
  | "pi" => some (.number 3.141592653589793)
  | "e" => some (.number 2.718281828459045)
  | "true" => some (.boolean true)
  | "false" => some (.boolean false)
  | "nan" => some (.number (0.0 / 0.0))
  | "inf" => some (.number (1.0 / 0.0))
  | _ => none

end Emend.Formula
