import Emend.Version.Basic

/-!
Ranges of versions, written as an interval, as a set of comparisons, as a least version, or as
a star for all.
-/

set_option autoImplicit false

namespace Emend

structure VersionBound where
  version : Version
  inclusive : Bool
  deriving Repr, DecidableEq

structure VersionRange where
  lower : Option VersionBound
  upper : Option VersionBound
  deriving Repr, DecidableEq

namespace VersionRange

def any : VersionRange := ⟨none, none⟩

def isAny (r : VersionRange) : Bool := r.lower.isNone && r.upper.isNone

def isAbove (v : Version) (b : VersionBound) : Bool :=
  match v.cmp b.version with
  | .gt => true
  | .eq => b.inclusive
  | .lt => false

def isBelow (v : Version) (b : VersionBound) : Bool :=
  match v.cmp b.version with
  | .lt => true
  | .eq => b.inclusive
  | .gt => false

def contains (r : VersionRange) (v : Version) : Bool :=
  r.lower.all (isAbove v) && r.upper.all (isBelow v)

def raise (r : VersionRange) (b : VersionBound) : VersionRange :=
  match r.lower with
  | none => ⟨some b, r.upper⟩
  | some current =>
    match b.version.cmp current.version with
    | .gt => ⟨some b, r.upper⟩
    | .eq => if b.inclusive then r else ⟨some b, r.upper⟩
    | .lt => r

def cap (r : VersionRange) (b : VersionBound) : VersionRange :=
  match r.upper with
  | none => ⟨r.lower, some b⟩
  | some current =>
    match b.version.cmp current.version with
    | .lt => ⟨r.lower, some b⟩
    | .eq => if b.inclusive then r else ⟨r.lower, some b⟩
    | .gt => r

def ofChars? (cs : List Char) : Option Version := Version.parse? (String.ofList cs)

/-- One side of an interval; a blank side is open. -/
def side? (cs : List Char) (inclusive : Bool) : Option (Option VersionBound) :=
  if cs.all Text.isBlank then some none
  else (ofChars? cs).map fun v => some ⟨v, inclusive⟩

/-- What stands between the brackets of an interval. `[1.2]` holds one version. -/
def inner? (lowerIncluded upperIncluded : Bool) (cs : List Char) : Option VersionRange :=
  match Text.cut? ',' cs with
  | some (low, high) => do
    let lower ← side? low lowerIncluded
    let upper ← side? high upperIncluded
    some ⟨lower, upper⟩
  | none =>
    if lowerIncluded && upperIncluded then
      (ofChars? cs).map fun v => ⟨some ⟨v, true⟩, some ⟨v, true⟩⟩
    else none

/-- An interval after its opening bracket. -/
def interval? (lowerIncluded : Bool) (cs : List Char) : Option VersionRange :=
  match cs.getLast? with
  | some ']' => inner? lowerIncluded true cs.dropLast
  | some ')' => inner? lowerIncluded false cs.dropLast
  | _ => none

/-- Adds a comparison such as `>=1.0`. -/
def clause? (r : VersionRange) (cs : List Char) : Option VersionRange :=
  match cs with
  | '<' :: '=' :: rest => (ofChars? rest).map fun v => r.cap ⟨v, true⟩
  | '>' :: '=' :: rest => (ofChars? rest).map fun v => r.raise ⟨v, true⟩
  | '<' :: rest => (ofChars? rest).map fun v => r.cap ⟨v, false⟩
  | '>' :: rest => (ofChars? rest).map fun v => r.raise ⟨v, false⟩
  | '=' :: rest => (ofChars? rest).map fun v => (r.raise ⟨v, true⟩).cap ⟨v, true⟩
  | _ => none

/-- Comparisons between spaces and commas, all of which must hold. -/
def comparisons? (cs : List Char) : Option VersionRange :=
  let clauses := (Text.pieces (fun c => c == ' ' || c == ',') cs).filter (!·.isEmpty)
  clauses.foldlM clause? any

def parse? (text : String) : Option VersionRange :=
  match (Text.trim text).toList with
  | ['*'] => some any
  | '[' :: rest => interval? true rest
  | '(' :: rest => interval? false rest
  | cs@('<' :: _) | cs@('>' :: _) | cs@('=' :: _) => comparisons? cs
  | cs => (ofChars? cs).map fun v => ⟨some ⟨v, true⟩, none⟩

def parse (text : String) : Except VersionError VersionRange :=
  match parse? text with
  | some r => .ok r
  | none => .error (.invalidRange text)

end VersionRange

end Emend
