import Emend.Fields
import Emend.Json.Basic

/-!
JSON text read strictly: no trailing text, no raw control character inside a string, no lone
surrogate, no number beyond the doubles, no more than 127 brackets inside each other.
-/

set_option autoImplicit false

namespace Emend.Json

namespace Reader

def isSpace (c : Char) : Bool := c == ' ' || c == '\t' || c == '\n' || c == '\r'

def skipSpaces (cs : List Char) : List Char := cs.dropWhile isSpace

/-- Digits taken as long as their value fits sixty-four bits: the value, how many were taken and
how many were left over. -/
def significand : (value : Nat) → List Char → Nat × Nat × Nat
  | value, [] => (value, 0, 0)
  | value, d :: rest =>
    let next := 10 * value + (d.toNat - 48)
    if next < Nat.pow 2 64 then
      let (value, taken, left) := significand next rest
      (value, taken + 1, left)
    else (value, 0, rest.length + 1)

/-- Multiplies by a power of ten in one step, and divides in steps of at most `10 ^ 308`. -/
def scaled : (fuel : Nat) → Float → Int → Option Float
  | 0, _, _ => none
  | fuel + 1, x, exponent =>
    if exponent.natAbs ≤ 308 then
      let power := Number.ofDecimal 1 exponent.natAbs
      if exponent < 0 then some (x / power)
      else if (x * power).isInf then none else some (x * power)
    else if x == 0 then some x
    else if 0 < exponent then none
    else scaled fuel (x / Number.ofDecimal 1 308) (exponent + 308)

def spanDigits (cs : List Char) : List Char × List Char :=
  (cs.takeWhile Char.isDigit, cs.dropWhile Char.isDigit)

def fraction? : List Char → Option (List Char × List Char)
  | '.' :: rest => match spanDigits rest with
    | ([], _) => none
    | found => some found
  | cs => some ([], cs)

/-- The exponent, if its mark stands here. -/
def exponent? (cs : List Char) : Option (Option Int × List Char) :=
  match cs with
  | 'e' :: rest | 'E' :: rest =>
    let (negative, rest) := match rest with
      | '-' :: rest => (true, rest)
      | '+' :: rest => (false, rest)
      | rest => (false, rest)
    match spanDigits rest with
    | ([], _) => none
    | (digits, rest) =>
      let n : Int := Number.digitsValue digits
      some (some (if negative then -n else n), rest)
  | cs => some (none, cs)

/-- A double from its digits. Those that sixty-four bits do not hold count as zeros before the
point and are dropped after it; the number they form becomes a double and is scaled, so the last
bit need not be the nearest one. -/
def double? (whole part : List Char) (exponent : Int) : Option Float :=
  let (value, _, dropped) := significand 0 whole
  let (value, taken, _) := significand value part
  scaled 4 (Float.ofNat value) (exponent + dropped - taken)

def whole? (cs : List Char) : Option (List Char × List Char) :=
  match spanDigits cs with
  | ([], _) | ('0' :: _ :: _, _) => none
  | found => some found

def number? (negative : Bool) (cs : List Char) : Option (Json × List Char) := do
  let (whole, cs) ← whole? cs
  let (part, cs) ← fraction? cs
  let (exponent, cs) ← exponent? cs
  let n := Number.digitsValue whole
  let integer := part.isEmpty && exponent.isNone &&
    (if negative then 0 < n && n ≤ Nat.pow 2 63 else n < Nat.pow 2 64)
  if integer then some (int (if negative then -(n : Int) else n), cs)
  else
    let x ← double? whole part (exponent.getD 0)
    some (float (if negative then x.neg else x), cs)

def hexValue? (c : Char) : Option Nat :=
  if c.isDigit then some (c.toNat - 48)
  else if 'a' ≤ c ∧ c ≤ 'f' then some (c.toNat - 87)
  else if 'A' ≤ c ∧ c ≤ 'F' then some (c.toNat - 55)
  else none

def unit? : List Char → Option (Nat × List Char)
  | a :: b :: c :: d :: rest => do
    some (((← hexValue? a) * 16 + (← hexValue? b)) * 256 + (← hexValue? c) * 16 + (← hexValue? d),
      rest)
  | _ => none

/-- A character written as one unit, or as two surrogates that belong together. -/
def unicode? (cs : List Char) : Option (Char × List Char) := do
  let (high, cs) ← unit? cs
  if 0xD800 ≤ high ∧ high < 0xDC00 then
    match cs with
    | '\\' :: 'u' :: cs =>
      let (low, cs) ← unit? cs
      if 0xDC00 ≤ low ∧ low < 0xE000 then
        some (Char.ofNat (0x10000 + (high - 0xD800) * 1024 + (low - 0xDC00)), cs)
      else none
    | _ => none
  else if 0xDC00 ≤ high ∧ high < 0xE000 then none
  else some (Char.ofNat high, cs)

def escaped? : List Char → Option (Char × List Char)
  | '"' :: cs => some ('"', cs)
  | '\\' :: cs => some ('\\', cs)
  | '/' :: cs => some ('/', cs)
  | 'b' :: cs => some ('\x08', cs)
  | 'f' :: cs => some ('\x0c', cs)
  | 'n' :: cs => some ('\n', cs)
  | 'r' :: cs => some ('\r', cs)
  | 't' :: cs => some ('\t', cs)
  | 'u' :: cs => unicode? cs
  | _ => none

/-- The rest of a string after its opening quote; `fuel` bounds its length. -/
def string? : (fuel : Nat) → List Char → Option (List Char × List Char)
  | 0, _ => none
  | fuel + 1, cs =>
    match cs with
    | [] => none
    | '"' :: cs => some ([], cs)
    | '\\' :: cs => do
      let (c, cs) ← escaped? cs
      let (spelled, cs) ← string? fuel cs
      some (c :: spelled, cs)
    | c :: cs =>
      if c.toNat < 0x20 then none
      else do
        let (spelled, cs) ← string? fuel cs
        some (c :: spelled, cs)

def key? (cs : List Char) : Option (String × List Char) :=
  match skipSpaces cs with
  | '"' :: cs => do
    let (key, cs) ← string? (cs.length + 1) cs
    match skipSpaces cs with
    | ':' :: cs => some (String.ofList key, cs)
    | _ => none
  | _ => none

/-- Items up to the closing bracket; `fuel` bounds their number. -/
def items? (value? : List Char → Option (Json × List Char)) :
    (fuel : Nat) → List Char → Option (List Json × List Char)
  | 0, _ => none
  | fuel + 1, cs => do
    let (item, cs) ← value? cs
    match skipSpaces cs with
    | ']' :: cs => some ([item], cs)
    | ',' :: cs =>
      let (others, cs) ← items? value? fuel cs
      some (item :: others, cs)
    | _ => none

/-- Entries up to the closing brace; `fuel` bounds their number. -/
def entries? (value? : List Char → Option (Json × List Char)) :
    (fuel : Nat) → List Char → Option (List (String × Json) × List Char)
  | 0, _ => none
  | fuel + 1, cs => do
    let (key, cs) ← key? cs
    let (value, cs) ← value? cs
    match skipSpaces cs with
    | '\x7d' :: cs => some ([(key, value)], cs)
    | ',' :: cs =>
      let (others, cs) ← entries? value? fuel cs
      some ((key, value) :: others, cs)
    | _ => none

/-- A value with at most `depth` brackets inside each other. -/
def value? : (depth : Nat) → List Char → Option (Json × List Char)
  | depth, cs =>
    match skipSpaces cs, depth with
    | 'n' :: 'u' :: 'l' :: 'l' :: cs, _ => some (null, cs)
    | 't' :: 'r' :: 'u' :: 'e' :: cs, _ => some (bool true, cs)
    | 'f' :: 'a' :: 'l' :: 's' :: 'e' :: cs, _ => some (bool false, cs)
    | '"' :: cs, _ => do
      let (s, cs) ← string? (cs.length + 1) cs
      some (text (String.ofList s), cs)
    | '[' :: cs, depth + 1 =>
      match skipSpaces cs with
      | ']' :: cs => some (list [], cs)
      | cs => do
        let (items, cs) ← items? (value? depth) (cs.length + 1) cs
        some (list items, cs)
    | '\x7b' :: cs, depth + 1 =>
      match skipSpaces cs with
      | '\x7d' :: cs => some (object [], cs)
      | cs => do
        let (entries, cs) ← entries? (value? depth) (cs.length + 1) cs
        some (object entries, cs)
    | '-' :: cs, _ => number? true cs
    | cs, _ => number? false cs

end Reader

/-- Reads one JSON value, with nothing but blanks around it, and keeps repeated keys. -/
def parseEntries? (s : String) : Option Json := do
  let (json, rest) ← Reader.value? 127 s.toList
  if (Reader.skipSpaces rest).isEmpty then some json else none

mutual

/-- Each key once, at its first place with its last value. -/
def distinct : Json → Json
  | list items => list (distinctItems items)
  | object entries => object (Fields.ofList (distinctEntries entries))
  | json => json

def distinctItems : List Json → List Json
  | [] => []
  | item :: rest => distinct item :: distinctItems rest

def distinctEntries : List (String × Json) → List (String × Json)
  | [] => []
  | (key, value) :: rest => (key, distinct value) :: distinctEntries rest

end

/-- Reads one JSON value, with nothing but blanks around it. -/
def parse? (s : String) : Option Json := (parseEntries? s).map distinct

end Emend.Json
