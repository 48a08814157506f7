import Emend.Pattern.Match

/-!
Replacing every match of a regular expression. In the substitute, a dollar sign before a number,
a name, or either of them between braces stands for what that group matched.
-/

set_option autoImplicit false

namespace Emend.Pattern

/-- A group by number or by name. -/
def Regex.group? (r : Regex) (reference : String) : Option Nat :=
  let digits := match reference.toList with
    | '+' :: rest => rest
    | cs => cs
  match (Number.readNat? digits).filter (· < Nat.pow 2 64) with
  | some n => some n
  | none => r.names.lookup reference

def groupText (cs : List Char) (slots : Slots) (group : Nat) : List Char :=
  match slots.getD (2 * group) none, slots.getD (2 * group + 1) none with
  | some start, some stop => (cs.drop start).take (stop - start)
  | _, _ => []

inductive Piece where
  | char (c : Char)
  | reference (name : String)
  deriving Repr, DecidableEq

def isReferenceChar (c : Char) : Bool := c.isAlphanum || c == '_'

/-- Reads a substitute; `skip` characters belong to a reference already read. A dollar sign that
begins no reference stands for itself, and so do two of them for one. -/
def pieces : (skip : Nat) → List Char → List Piece
  | _, [] => []
  | skip + 1, _ :: rest => pieces skip rest
  | 0, '$' :: rest =>
    match rest with
    | '$' :: _ => .char '$' :: pieces 1 rest
    | '\x7b' :: inner =>
      let name := inner.takeWhile (· != '\x7d')
      if name.length < inner.length then
        .reference (String.ofList name) :: pieces (name.length + 2) rest
      else .char '$' :: pieces 0 rest
    | _ =>
      let name := rest.takeWhile isReferenceChar
      if name.isEmpty then .char '$' :: pieces 0 rest
      else .reference (String.ofList name) :: pieces name.length rest
  | 0, c :: rest => .char c :: pieces 0 rest

def Piece.expand (r : Regex) (cs : List Char) (slots : Slots) : Piece → List Char
  | char c => [c]
  | reference name => match r.group? name with
    | some group => groupText cs slots group
    | none => []

def Place.forward : Nat → Place → Place
  | 0, place => place
  | n + 1, place => match place.next? with
    | some place => forward n place
    | none => place

/-- The first match at or after a place, unless it is empty and another match ended there: then
the first one after that place. -/
def Regex.searchAfter (r : Regex) (last : Option Nat) (place : Place) : Option Slots := do
  let slots ← r.search place
  let start := slots.getD 0 none
  if start == slots.getD 1 none && start == last then r.search (← place.next?) else some slots

/-- The matches from a place on, where a match that ended at `last` came before. -/
def Regex.matchesFrom (r : Regex) : (fuel : Nat) → (last : Option Nat) → Place → List Slots
  | 0, _, _ => []
  | fuel + 1, last, place =>
    match r.searchAfter last place with
    | none => []
    | some slots =>
      match slots.getD 1 none with
      | some stop => slots :: matchesFrom r fuel (some stop) (place.forward (stop - place.index))
      | none => []

/-- The text from a place on with the given matches replaced. -/
def Regex.replaceFrom (r : Regex) (cs : List Char) (substitute : List Piece) :
    (position : Nat) → List Slots → List Char
  | position, [] => cs.drop position
  | position, slots :: rest =>
    let start := (slots.getD 0 none).getD position
    let stop := (slots.getD 1 none).getD position
    (cs.drop position).take (start - position) ++ substitute.flatMap (·.expand r cs slots) ++
      replaceFrom r cs substitute stop rest

def Regex.replaceAll (r : Regex) (text substitute : String) : String :=
  let cs := text.toList
  let found := r.matchesFrom (2 * cs.length + 2) none (.start cs)
  String.ofList (r.replaceFrom cs (pieces 0 substitute.toList) 0 found)

end Emend.Pattern
