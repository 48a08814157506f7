import Emend.Number.Reading
import Emend.Text.Blank
import Emend.Text.Split

/-!
Versions: one to four numbers between dots and an optional pre-release tag after a dash. Missing
numbers count as zero, and a version with a tag comes before the same version without one.
-/

set_option autoImplicit false

namespace Emend

structure Version where
  numbers : List Nat
  preRelease : Option String
  deriving Repr, DecidableEq

namespace Version

def component (v : Version) (i : Nat) : Nat := v.numbers.getD i 0

def major (v : Version) : Nat := v.component 0
def minor (v : Version) : Nat := v.component 1
def patch (v : Version) : Nat := v.component 2

/-- A number of sixty-four bits without sign. -/
def number? (part : List Char) : Option Nat :=
  (Number.readNat? part).filter (· < Nat.pow 2 64)

def numbers? (parts : List (List Char)) : Option (List Nat) :=
  if parts.length ≤ 4 then parts.mapM number? else none

/-- Splits off the tag, which must not be empty. -/
def tagged? (cs : List Char) : Option (List Char × Option String) :=
  match Text.cut? '-' cs with
  | none => some (cs, none)
  | some (_, []) => none
  | some (numbers, tag) => some (numbers, some (String.ofList tag))

/-- The text without a leading `v`. -/
def withoutMark : List Char → List Char
  | 'v' :: rest | 'V' :: rest => rest
  | cs => cs

/-- Reads a version between blanks; what follows a plus sign is dropped. -/
def parse? (text : String) : Option Version := do
  let cs := (withoutMark (Text.trim text).toList).takeWhile (· != '+')
  let (numbers, tag) ← tagged? cs
  let numbers ← numbers? (Text.pieces (· == '.') numbers)
  some ⟨numbers, tag⟩

def toText (v : Version) : String :=
  ".".intercalate (v.numbers.map toString) ++ match v.preRelease with
    | some tag => "-" ++ tag
    | none => ""

/-- Numeric parts come before textual ones; two numeric parts compare as numbers. -/
def compareParts (a b : List Char) : Ordering :=
  match number? a, number? b with
  | some m, some n => compare m n
  | some _, none => .lt
  | none, some _ => .gt
  | none, none => compare (String.ofList a) (String.ofList b)

def compareTags : List (List Char) → List (List Char) → Ordering
  | [], [] => .eq
  | [], _ :: _ => .lt
  | _ :: _, [] => .gt
  | a :: as, b :: bs => (compareParts a b).then (compareTags as bs)

def comparePreRelease : Option String → Option String → Ordering
  | none, none => .eq
  | none, some _ => .gt
  | some _, none => .lt
  | some a, some b =>
    compareTags (Text.pieces (· == '.') a.toList) (Text.pieces (· == '.') b.toList)

def cmp (a b : Version) : Ordering :=
  (compare (a.component 0) (b.component 0)).then <|
  (compare (a.component 1) (b.component 1)).then <|
  (compare (a.component 2) (b.component 2)).then <|
  (compare (a.component 3) (b.component 3)).then <|
  comparePreRelease a.preRelease b.preRelease

/-- Equality as an order sees it: `1.0` and `1.0.0` are one version. -/
def same (a b : Version) : Bool := a.cmp b == .eq

end Version

inductive VersionError where
  | invalidVersion (text : String)
  | invalidRange (text : String)
  deriving Repr, DecidableEq

def VersionError.message : VersionError → String
  | invalidVersion text => "Invalid version '" ++ text ++ "'"
  | invalidRange text => "Invalid version range '" ++ text ++ "'"

def Version.parse (text : String) : Except VersionError Version :=
  match parse? text with
  | some v => .ok v
  | none => .error (.invalidVersion text)

end Emend
