import Emend.Text.CaseFold
import Emend.Text.Property

/-!
Regular expressions: what they match, without how they are written.
-/

set_option autoImplicit false

namespace Emend.Pattern

inductive Property where
  | category (kinds : List Text.Category)
  | script (script : Text.Script)
  | alphabetic
  | lowercase
  | uppercase
  | blank
  | word
  | digit
  | any

def Property.has : Property → Char → Bool
  | category kinds, c => kinds.contains (Text.category c)
  | script s, c => s.has c
  | alphabetic, c => Text.isAlphabetic c
  | lowercase, c => Text.isLowercase c
  | uppercase, c => Text.isUppercase c
  | blank, c => Text.isBlank c
  | word, c => Text.isWordChar c
  | digit, c => Text.isDecimalDigit c
  | any, _ => true

inductive CharSet where
  | empty
  | range (low high : Char)
  | property (p : Property)
  | union (a b : CharSet)
  | inter (a b : CharSet)
  | diff (a b : CharSet)
  | symmDiff (a b : CharSet)
  | compl (a : CharSet)
  /-- With every character all those that differ from it only in case. -/
  | anyCase (a : CharSet)

def CharSet.has : CharSet → Char → Bool
  | empty, _ => false
  | range low high, c => low ≤ c && c ≤ high
  | property p, c => p.has c
  | union a b, c => a.has c || b.has c
  | inter a b, c => a.has c && b.has c
  | diff a b, c => a.has c && !b.has c
  | symmDiff a b, c => a.has c != b.has c
  | compl a, c => !a.has c
  | anyCase a, c => (Text.caseVariants c).any a.has

/-- A condition on a place between two characters. -/
inductive Look where
  | textStart | textEnd
  | lineStart | lineEnd
  /-- Lines that end at a carriage return, a line feed, or both. -/
  | crlfStart | crlfEnd
  | wordBoundary (unicode : Bool) | notWordBoundary (unicode : Bool)
  | wordStart (unicode : Bool) | wordEnd (unicode : Bool)
  | wordStartHalf (unicode : Bool) | wordEndHalf (unicode : Bool)
  deriving Repr, DecidableEq

def isWordAt (unicode : Bool) : Option Char → Bool
  | some c => if unicode then Text.isWordChar c else c.isAlphanum || c == '_'
  | none => false

/-- Whether the condition holds between two characters, either of which may be missing. -/
def Look.holds (look : Look) (before after : Option Char) : Bool :=
  match look with
  | textStart => before.isNone
  | textEnd => after.isNone
  | lineStart => before.all (· == '\n')
  | lineEnd => after.all (· == '\n')
  | crlfStart => before.all (· == '\n') || (before == some '\r' && after != some '\n')
  | crlfEnd => after.all (· == '\r') || (after == some '\n' && before != some '\r')
  | wordBoundary u => isWordAt u before != isWordAt u after
  | notWordBoundary u => isWordAt u before == isWordAt u after
  | wordStart u => !isWordAt u before && isWordAt u after
  | wordEnd u => isWordAt u before && !isWordAt u after
  | wordStartHalf u => !isWordAt u before
  | wordEndHalf u => !isWordAt u after

/-- How often something is repeated; without an upper bound, any number of times. -/
structure Bounds where
  least : Nat
  most : Option Nat
  greedy : Bool
  deriving Repr, DecidableEq

inductive Node where
  | empty
  | char (set : CharSet)
  | look (condition : Look)
  | seq (first second : Node)
  /-- Prefers the first alternative. -/
  | alt (first second : Node)
  | repeated (body : Node) (bounds : Bounds)
  | group (index : Nat) (body : Node)

namespace Node

def ofList : List Node → Node
  | [] => empty
  | [node] => node
  | node :: rest => seq node (ofList rest)

def anyOf : List Node → Node
  | [] => empty
  | [node] => node
  | node :: rest => alt node (anyOf rest)

/-- Whether the node can match without taking a character. -/
def nullable : Node → Bool
  | empty | look _ => true
  | char _ => false
  | seq a b => a.nullable && b.nullable
  | alt a b => a.nullable || b.nullable
  | repeated body bounds => bounds.least == 0 || body.nullable
  | group _ body => body.nullable

end Node

end Emend.Pattern
