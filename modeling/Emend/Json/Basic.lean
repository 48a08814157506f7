import Emend.Datum

/-!
JSON documents and their written forms. An object keeps the order of its entries.
-/

set_option autoImplicit false

namespace Emend

inductive Json where
  | null
  | bool (value : Bool)
  | int (value : Int)
  | float (value : Float)
  | text (value : String)
  | list (items : List Json)
  | object (entries : List (String × Json))
  deriving Inhabited

namespace Json

def hexDigit (n : Nat) : Char := Char.ofNat (if n < 10 then 48 + n else 87 + n)

def escape (c : Char) : List Char :=
  match c with
  | '"' => ['\\', '"']
  | '\\' => ['\\', '\\']
  | '\n' => ['\\', 'n']
  | '\r' => ['\\', 'r']
  | '\t' => ['\\', 't']
  | '\x08' => ['\\', 'b']
  | '\x0c' => ['\\', 'f']
  | c =>
    if c.toNat < 0x20 then
      ['\\', 'u', '0', '0', hexDigit (c.toNat / 16), hexDigit (c.toNat % 16)]
    else [c]

def quote (s : String) : String := "\"" ++ String.ofList (s.toList.flatMap escape) ++ "\""

mutual

def write : Json → String
  | null => "null"
  | bool b => toString b
  | int i => toString i
  | float x => Number.write .stored x
  | text s => quote s
  | list items => "[" ++ ",".intercalate (writeItems items) ++ "]"
  | object entries => "\x7b" ++ ",".intercalate (writeEntries entries) ++ "\x7d"

def writeItems : List Json → List String
  | [] => []
  | item :: rest => write item :: writeItems rest

def writeEntries : List (String × Json) → List String
  | [] => []
  | (key, value) :: rest => (quote key ++ ":" ++ write value) :: writeEntries rest

end

/-- A bracketed block with one line per item. -/
def block (opening closing : String) (depth : Nat) (lines : List String) : String :=
  let margin (n : Nat) : String := "\n" ++ String.ofList (List.replicate (2 * n) ' ')
  if lines.isEmpty then opening ++ closing
  else opening ++ margin (depth + 1) ++ ("," ++ margin (depth + 1)).intercalate lines ++
    margin depth ++ closing

mutual

/-- The form with one item per line, each level indented by two. -/
def writeIndented (depth : Nat) : Json → String
  | list items => block "[" "]" depth (indentedItems (depth + 1) items)
  | object entries => block "\x7b" "\x7d" depth (indentedEntries (depth + 1) entries)
  | json => write json

def indentedItems (depth : Nat) : List Json → List String
  | [] => []
  | item :: rest => writeIndented depth item :: indentedItems depth rest

def indentedEntries (depth : Nat) : List (String × Json) → List String
  | [] => []
  | (key, value) :: rest =>
    (quote key ++ ": " ++ writeIndented depth value) :: indentedEntries depth rest

end

mutual

/-- The stored form of a datum; a variant is written as its name. -/
def ofDatum : Datum → Json
  | .null => null
  | .bool b => bool b
  | .int i => int i
  | .float x => float x
  | .text s => text s
  | .variant s => text s
  | .record _ fields => object (ofFields fields)
  | .list items => list (ofItems items)

def ofFields : List (String × Datum) → List (String × Json)
  | [] => []
  | (name, value) :: rest => (name, ofDatum value) :: ofFields rest

def ofItems : List Datum → List Json
  | [] => []
  | item :: rest => ofDatum item :: ofItems rest

end

def ofRecord (r : Record) : Json := object (ofFields r.fields)

end Json

end Emend
