import Emend.Number.Layout
import Emend.Text.Span

/-!
The words of the formula language, each with the bytes it covers, and the ways a text can fail
to be a formula.
-/

set_option autoImplicit false

namespace Emend.Formula
open Emend.Text (Span)

inductive Symbol where
  | plus | minus | times | divide | modulo | power
  | concat | dot | comma | leftParen | rightParen
  | less | lessEqual | greater | greaterEqual
  deriving Repr, DecidableEq

inductive Keyword where
  | is | and | or | not
  | contains | starts | ends | matches | replace | with | repeats
  | in | versions
  deriving Repr, DecidableEq

inductive Token where
  | number (value : Float)
  /-- A quoted text with its escapes resolved. -/
  | text (value : String)
  | name (spelling : String)
  | symbol (symbol : Symbol)
  | keyword (keyword : Keyword)

structure Lexeme where
  token : Token
  span : Span

def Symbol.spelling : Symbol → String
  | plus => "+" | minus => "-" | times => "*" | divide => "/" | modulo => "%" | power => "^"
  | concat => ".." | dot => "." | comma => "," | leftParen => "(" | rightParen => ")"
  | less => "<" | lessEqual => "<=" | greater => ">" | greaterEqual => ">="

namespace Keyword

def all : List Keyword :=
  [is, and, or, not, contains, starts, ends, «matches», replace, «with», repeats, «in», versions]

def spelling : Keyword → String
  | is => "is" | and => "and" | or => "or" | not => "not"
  | contains => "contains" | starts => "starts" | ends => "ends" | «matches» => "matches"
  | replace => "replace" | «with» => "with" | repeats => "repeat"
  | «in» => "in" | versions => "versions"

/-- Keywords are recognised in any case. -/
def ofSpelling? (s : String) : Option Keyword := all.find? (·.spelling == s.toLower)

end Keyword

def Token.describe : Token → String
  | number x => Number.toText x
  | text s => "\"" ++ s ++ "\""
  | name s => s
  | symbol s => s.spelling
  | keyword k => k.spelling

inductive ParseError where
  | unexpectedToken (token : String) (span : Span)
  | unexpectedEnd (expected : String) (span : Span)
  | unclosedText (span : Span)
  | invalidEscape (sequence : String) (span : Span)
  | invalidNumber (spelling : String) (span : Span)
  | tooDeep (limit : Nat) (span : Span)
  | empty
  deriving Repr, DecidableEq

namespace ParseError

def span : ParseError → Span
  | unexpectedToken _ span | unexpectedEnd _ span | unclosedText span | invalidEscape _ span
  | invalidNumber _ span | tooDeep _ span => span
  | empty => ⟨0, 0⟩

def message : ParseError → String
  | unexpectedToken token span => "Unexpected token '" ++ token ++ "' at " ++ span.toText
  | unexpectedEnd expected _ => "Unexpected end of formula, expected " ++ expected
  | unclosedText span => "Unclosed string literal starting at " ++ span.toText
  | invalidEscape sequence span =>
    "Invalid escape sequence '" ++ sequence ++ "' at " ++ span.toText
  | invalidNumber spelling span => "Invalid number '" ++ spelling ++ "' at " ++ span.toText
  | tooDeep limit span =>
    "Formula nests deeper than " ++ toString limit ++ " levels at " ++ span.toText
  | empty => "Empty formula"

end ParseError

end Emend.Formula
