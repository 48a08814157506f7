import Emend.Pattern.Reader

/-!
Regular expressions as programs: numbered steps, each of which takes a character, tests a place,
notes a place, or goes on elsewhere.
-/

set_option autoImplicit false

namespace Emend.Pattern

inductive Step where
  | take (set : CharSet)
  | test (look : Look)
  /-- Notes the place where a group starts or ends. -/
  | note (slot : Nat)
  /-- Goes on at both places and prefers the first. -/
  | split (first second : Nat)
  | jump (target : Nat)
  | done

def stepLimit : Nat := 300000

namespace Program

def size : Node → Nat
  | .empty => 0
  | .char _ | .look _ => 1
  | .seq a b => size a + size b
  | .alt a b => size a + size b + 2
  | .repeated body bounds =>
    let once := size body
    match bounds.most with
    | some most => bounds.least * once + (most - bounds.least) * (once + 1)
    | none =>
      (if bounds.least = 0 then once + 2 else (bounds.least - 1) * once + once + 1) +
        (if body.nullable then 2 else 0)
  | .group _ body => size body + 2

/-- A split that goes into a repetition or past it. -/
def choose (greedy : Bool) (inside outside : Nat) : Step :=
  if greedy then .split inside outside else .split outside inside

/-- Copies of a body one after the other, each placed where the one before it ends. -/
def copies (body : Nat → List Step) : (count start : Nat) → List Step
  | 0, _ => []
  | count + 1, start =>
    let first := body start
    first ++ copies body count (start + first.length)

/-- Copies that may each be left out with all after them; `stop` is where the last one ends. -/
def optionals (body : Nat → List Step) (greedy : Bool) (stop : Nat) : (count start : Nat) → List Step
  | 0, _ => []
  | count + 1, start =>
    let first := body (start + 1)
    choose greedy (start + 1) stop :: first ++
      optionals body greedy stop count (start + 1 + first.length)

/-- Any number of times, at least once. -/
def plus (body : Nat → List Step) (greedy : Bool) (start : Nat) : List Step :=
  let once := body start
  once ++ [choose greedy start (start + once.length + 1)]

/-- Any number of times. A body that may match nothing is tried once before it is repeated, so
that a round without a character does not hide the way out. -/
def star (body : Nat → List Step) (greedy nullable : Bool) (start : Nat) : List Step :=
  if nullable then
    let rounds := plus body greedy (start + 1)
    choose greedy (start + 1) (start + 1 + rounds.length) :: rounds
  else
    let once := body (start + 1)
    choose greedy (start + 1) (start + once.length + 2) :: once ++ [.jump start]

/-- The steps of a node when the first of them has the number `start`; what follows the node has
the number after its last step. -/
def ofNode : Node → (start : Nat) → List Step
  | .empty, _ => []
  | .char set, _ => [.take set]
  | .look look, _ => [.test look]
  | .seq a b, start =>
    let first := ofNode a start
    first ++ ofNode b (start + first.length)
  | .alt a b, start =>
    let first := ofNode a (start + 1)
    let second := ofNode b (start + first.length + 2)
    .split (start + 1) (start + first.length + 2) :: first ++
      .jump (start + first.length + 2 + second.length) :: second
  | .repeated body ⟨least, some most, greedy⟩, start =>
    let always := copies (ofNode body) least start
    let start := start + always.length
    let stop := start + (most - least) * ((ofNode body start).length + 1)
    always ++ optionals (ofNode body) greedy stop (most - least) start
  | .repeated body ⟨0, none, greedy⟩, start => star (ofNode body) greedy body.nullable start
  | .repeated body ⟨least + 1, none, greedy⟩, start =>
    let always := copies (ofNode body) least start
    always ++ plus (ofNode body) greedy (start + always.length)
  | .group index body, start =>
    .note (2 * index) :: ofNode body (start + 1) ++ [.note (2 * index + 1)]

end Program

/-- A regular expression ready to be matched. Group zero is the whole match. -/
structure Regex where
  steps : Array Step
  groups : Nat
  names : List (String × Nat)

/-- The regular expression of a text; nothing where the text is none or asks for too many
steps. -/
def Regex.ofText? (text : String) : Option Regex := do
  let parsed ← Parsed.ofText? text
  if stepLimit < Program.size parsed.node then none
  else
    let steps := Program.ofNode (.group 0 parsed.node) 0 ++ [.done]
    some ⟨steps.toArray, parsed.groups, parsed.names⟩

end Emend.Pattern
