import Emend.Pattern.Program

/-!
Leftmost-first matching. All ways through a program advance together, ordered by preference;
a way that ends removes those behind it, and a step that a better way has reached at the same
place is not entered again.
-/

set_option autoImplicit false

namespace Emend.Pattern

/-- A way through the program: the step it has come to, and the places it has noted. -/
structure Way where
  step : Nat
  slots : Array (Option Nat)

/-- A place in a text: the character before it, the text after it, and how many characters
precede it. -/
structure Place where
  before : Option Char
  after : List Char
  index : Nat

def Place.start (cs : List Char) : Place := ⟨none, cs, 0⟩

/-- The place one character on. -/
def Place.next? (p : Place) : Option Place :=
  match p.after with
  | [] => none
  | c :: rest => some ⟨some c, rest, p.index + 1⟩

/-- The places of the groups of a match; the whole match is group zero. -/
abbrev Slots := Array (Option Nat)

namespace Regex

/-- Follows the ways that take no character, best first, and returns those that wait for a
character or are done. Each step is entered once, so `fuel` of twice the steps suffices. -/
def follow (r : Regex) (place : Place) :
    (fuel : Nat) → (todo : List Way) → (seen : Array Bool) → (found : List Way) →
      Array Bool × List Way
  | 0, _, seen, found => (seen, found)
  | _, [], seen, found => (seen, found)
  | fuel + 1, way :: todo, seen, found =>
    if seen.getD way.step true then follow r place fuel todo seen found
    else
      let seen := seen.set! way.step true
      match r.steps[way.step]? with
      | none => follow r place fuel todo seen found
      | some step => match step with
        | .take _ | .done => follow r place fuel todo seen (way :: found)
        | .test look =>
          if look.holds place.before place.after.head? then
            follow r place fuel (⟨way.step + 1, way.slots⟩ :: todo) seen found
          else follow r place fuel todo seen found
        | .note slot =>
          let slots := way.slots.set! slot (some place.index)
          follow r place fuel (⟨way.step + 1, slots⟩ :: todo) seen found
        | .split first second =>
          follow r place fuel (⟨first, way.slots⟩ :: ⟨second, way.slots⟩ :: todo) seen found
        | .jump target => follow r place fuel (⟨target, way.slots⟩ :: todo) seen found

/-- The ways, best first, up to the first that is done, and what that one matched. -/
def cut (r : Regex) : List Way → List Way × Option Slots
  | [] => ([], none)
  | way :: rest =>
    match r.steps[way.step]? with
    | some .done => ([], some way.slots)
    | _ =>
      let (ways, matched) := cut r rest
      (way :: ways, matched)

/-- The ways that can take the character, one step on. -/
def taking (r : Regex) (c : Char) (ways : List Way) : List Way :=
  ways.filterMap fun (way : Way) =>
    match r.steps[way.step]? with
    | some (.take set) => if set.has c then some ⟨way.step + 1, way.slots⟩ else none
    | _ => none

/-- Arrives at a place with the given ways: those that wait for a character there, and the best
match so far. As long as nothing has matched, a new way starts at each place, after all others. -/
def arrive (r : Regex) (place : Place) (ways : List Way) (best : Option Slots) :
    List Way × Option Slots :=
  let fresh : Way := ⟨0, Array.replicate (2 * r.groups + 2) none⟩
  let ways := if best.isNone then ways ++ [fresh] else ways
  let unseen := Array.replicate r.steps.size false
  let (_, found) := follow r place (2 * r.steps.size + ways.length) ways unseen []
  let (ways, matched) := r.cut found.reverse
  (ways, matched.or best)

/-- Goes through the text after a character, with the ways that have come there. -/
def scan (r : Regex) : (before : Option Char) → (index : Nat) → List Way → Option Slots →
    List Char → Option Slots
  | before, index, ways, best, [] => (r.arrive ⟨before, [], index⟩ ways best).2
  | before, index, ways, best, c :: rest =>
    let (ways, best) := r.arrive ⟨before, c :: rest, index⟩ ways best
    if ways.isEmpty && best.isSome then best
    else scan r (some c) (index + 1) (r.taking c ways) best rest

/-- The first match at or after a place. -/
def search (r : Regex) (place : Place) : Option Slots :=
  scan r place.before place.index [] none place.after

def isMatch (r : Regex) (text : String) : Bool := (r.search (.start text.toList)).isSome

end Regex

end Emend.Pattern
