import Emend.Json.Reader

/-!
Documents: trees of scalars, sequences and mappings, each with its place in the source.
-/

set_option autoImplicit false

namespace Emend

/-- A line and a column, counted from one; line zero stands for an unknown place. -/
structure Position where
  line : Nat
  column : Nat
  deriving Repr, DecidableEq, Inhabited

namespace Position

def unknown : Position := ⟨0, 0⟩

def isKnown (p : Position) : Bool := 0 < p.line

def or (p other : Position) : Position := if p.isKnown then p else other

def toText (p : Position) : String :=
  if p.isKnown then toString p.line ++ ":" ++ toString p.column else "<unknown>"

end Position

inductive Node where
  | scalar (text : String) (position : Position)
  | sequence (items : List Node) (position : Position)
  /-- Entries in their order; keys may repeat. -/
  | mapping (entries : List (String × Node)) (position : Position)
  deriving Inhabited

namespace Node

def position : Node → Position
  | scalar _ position | sequence _ position | mapping _ position => position

def describe : Node → String
  | scalar .. => "scalar"
  | sequence .. => "sequence"
  | mapping .. => "mapping"

def get? (node : Node) (key : String) : Option Node :=
  match node with
  | mapping entries _ => (entries.find? fun entry => Text.sameName entry.1 key).map (·.2)
  | _ => none

mutual

/-- Null becomes an empty scalar, and truth values and numbers become their text. -/
def ofJson : Json → Node
  | .null => scalar "" .unknown
  | .bool b => scalar (toString b) .unknown
  | .int i => scalar (toString i) .unknown
  | .float x => scalar (Number.write .stored x) .unknown
  | .text s => scalar s .unknown
  | .list items => sequence (ofItems items) .unknown
  | .object entries => mapping (ofEntries entries) .unknown

def ofItems : List Json → List Node
  | [] => []
  | item :: rest => ofJson item :: ofItems rest

def ofEntries : List (String × Json) → List (String × Node)
  | [] => []
  | (key, value) :: rest => (key, ofJson value) :: ofEntries rest

end

def parse? (s : String) : Option Node := (Json.parse? s).map ofJson

end Node

end Emend
