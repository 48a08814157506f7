import Emend.Number.Reading
import Emend.Pattern.Basic

/-!
Regular expressions read from their text. Groups count from one in the order of their opening
parentheses; flags hold from where they are set to the end of the group around them.
-/

set_option autoImplicit false

namespace Emend.Pattern

namespace Reader

structure Flags where
  ignoreCase : Bool
  multiLine : Bool
  dotAll : Bool
  /-- Repetitions prefer to stop; a question mark makes them go on. -/
  swapGreed : Bool
  unicode : Bool
  ignoreSpace : Bool
  crlf : Bool

def Flags.initial : Flags := ⟨false, false, false, false, true, false, false⟩

def Flags.set (flags : Flags) (letter : Char) (on : Bool) : Option Flags :=
  match letter with
  | 'i' => some { flags with ignoreCase := on }
  | 'm' => some { flags with multiLine := on }
  | 's' => some { flags with dotAll := on }
  | 'U' => some { flags with swapGreed := on }
  | 'u' => some { flags with unicode := on }
  | 'x' => some { flags with ignoreSpace := on }
  | 'R' => some { flags with crlf := on }
  | _ => none

structure Groups where
  count : Nat
  names : List (String × Nat)

/-- Drops blanks and comments where the flags say so. -/
def skip (flags : Flags) (cs : List Char) : List Char :=
  if flags.ignoreSpace then go cs.length cs else cs
where
  go : Nat → List Char → List Char
    | 0, cs => cs
    | fuel + 1, cs =>
      match cs with
      | '#' :: rest => go fuel (rest.dropWhile (· != '\n'))
      | c :: rest => if Text.isBlank c then go fuel rest else c :: rest
      | [] => []

/-- The set of one character under the flags. -/
def single (flags : Flags) (c : Char) : CharSet :=
  if flags.ignoreCase then .anyCase (.range c c) else .range c c

def folded (flags : Flags) (set : CharSet) : CharSet :=
  if flags.ignoreCase then .anyCase set else set

def negatedIf (negated : Bool) (set : CharSet) : CharSet := if negated then .compl set else set

inductive Escape where
  | literal (c : Char)
  | set (s : CharSet)
  | look (l : Look)

def isMeta (c : Char) : Bool := "\\.+*?()|[]\x7b\x7d^$#&-~".toList.contains c

def hexValue? (c : Char) : Option Nat :=
  if c.isDigit then some (c.toNat - 48)
  else if 'a' ≤ c ∧ c ≤ 'f' then some (c.toNat - 87)
  else if 'A' ≤ c ∧ c ≤ 'F' then some (c.toNat - 55)
  else none

def hexChar? (digits : List Char) : Option Char := do
  let values ← digits.mapM hexValue?
  let code := values.foldl (fun n d => 16 * n + d) 0
  if digits.isEmpty then none
  else if code.isValidChar then some (Char.ofNat code) else none

/-- A character by its code: a fixed number of digits, or any number between braces. -/
def hex? (digits : Nat) : List Char → Option (Char × List Char)
  | '\x7b' :: cs =>
    match cs.dropWhile (· != '\x7d') with
    | _ :: rest => (hexChar? (cs.takeWhile (· != '\x7d'))).map (·, rest)
    | [] => none
  | cs =>
    if (cs.take digits).length = digits then (hexChar? (cs.take digits)).map (·, cs.drop digits)
    else none

/-- The name of a property without case, blanks, dashes and underscores. -/
def looseName (name : List Char) : String :=
  let kept := (name.filter fun c => c != ' ' && c != '-' && c != '_').map Char.toLower
  match kept with
  | 'i' :: 's' :: rest => if rest.isEmpty then "is" else String.ofList rest
  | kept => String.ofList kept

open Text.Category in
def categories? (name : String) : Option (List Text.Category) :=
  match name with
  | "l" | "letter" => some [Lu, Ll, Lt, Lm, Lo]
  | "lc" | "l&" | "casedletter" => some [Lu, Ll, Lt]
  | "lu" | "uppercaseletter" => some [Lu]
  | "ll" | "lowercaseletter" => some [Ll]
  | "lt" | "titlecaseletter" => some [Lt]
  | "lm" | "modifierletter" => some [Lm]
  | "lo" | "otherletter" => some [Lo]
  | "m" | "mark" | "combiningmark" => some [Mn, Mc, Me]
  | "mn" | "nonspacingmark" => some [Mn]
  | "mc" | "spacingmark" => some [Mc]
  | "me" | "enclosingmark" => some [Me]
  | "n" | "number" => some [Nd, Nl, No]
  | "nd" | "decimalnumber" | "digit" => some [Nd]
  | "nl" | "letternumber" => some [Nl]
  | "no" | "othernumber" => some [No]
  | "p" | "punctuation" | "punct" => some [Pc, Pd, Ps, Pe, Pi, Pf, Po]
  | "pc" | "connectorpunctuation" => some [Pc]
  | "pd" | "dashpunctuation" => some [Pd]
  | "ps" | "openpunctuation" => some [Ps]
  | "pe" | "closepunctuation" => some [Pe]
  | "pi" | "initialpunctuation" => some [Pi]
  | "pf" | "finalpunctuation" => some [Pf]
  | "po" | "otherpunctuation" => some [Po]
  | "s" | "symbol" => some [Sm, Sc, Sk, So]
  | "sm" | "mathsymbol" => some [Sm]
  | "sc" | "currencysymbol" => some [Sc]
  | "sk" | "modifiersymbol" => some [Sk]
  | "so" | "othersymbol" => some [So]
  | "z" | "separator" => some [Zs, Zl, Zp]
  | "zs" | "spaceseparator" => some [Zs]
  | "zl" | "lineseparator" => some [Zl]
  | "zp" | "paragraphseparator" => some [Zp]
  | "c" | "other" => some [Cc, Cf, Cs, Co, Cn]
  | "cc" | "control" | "cntrl" => some [Cc]
  | "cf" | "format" => some [Cf]
  | "co" | "privateuse" => some [Co]
  | "cn" | "unassigned" => some [Cn]
  | _ => none

def script? (name : String) : Option Text.Script :=
  match name with
  | "latin" | "latn" => some .latin
  | "greek" | "grek" => some .greek
  | "cyrillic" | "cyrl" => some .cyrillic
  | "han" | "hani" => some .han
  | "hiragana" | "hira" => some .hiragana
  | "katakana" | "kana" => some .katakana
  | "arabic" | "arab" => some .arabic
  | "hebrew" | "hebr" => some .hebrew
  | "thai" => some .thai
  | "hangul" | "hang" => some .hangul
  | "armenian" | "armn" => some .armenian
  | "georgian" | "geor" => some .georgian
  | "devanagari" | "deva" => some .devanagari
  | _ => none

def binaryProperty? (name : String) : Option CharSet :=
  match name with
  | "any" => some (.property .any)
  | "ascii" => some (.range '\x00' '\x7f')
  | "assigned" => some (.compl (.property (.category [.Cn])))
  | "alphabetic" | "alpha" => some (.property .alphabetic)
  | "lowercase" | "lower" => some (.property .lowercase)
  | "uppercase" | "upper" => some (.property .uppercase)
  | "whitespace" | "wspace" | "space" => some (.property .blank)
  | _ => none

/-- The set of a property, by name or by a name and a value. -/
def property? (spelled : List Char) : Option CharSet :=
  let value? (key value : List Char) : Option CharSet :=
    match looseName key with
    | "gc" | "generalcategory" =>
      (binaryProperty? (looseName value)).or
        ((categories? (looseName value)).map fun kinds => .property (.category kinds))
    | "sc" | "script" | "scx" | "scriptextensions" =>
      (script? (looseName value)).map fun s => .property (.script s)
    | _ => none
  match spelled.span fun c => c != ':' && c != '=' with
  | (name, []) =>
    let name := looseName name
    (binaryProperty? name).or (((categories? name).map fun kinds => .property (.category kinds)).or
      ((script? name).map fun s => .property (.script s)))
  | (key, mark :: value) =>
    match key.reverse with
    | '!' :: key => if mark == '=' then (value? key.reverse value).map .compl else none
    | _ => value? key value

/-- What follows `\p` or `\P`. -/
def propertyEscape? (flags : Flags) (negated : Bool) (cs : List Char) :
    Option (Escape × List Char) :=
  let found (spelled rest : List Char) : Option (Escape × List Char) :=
    if !flags.unicode then none
    else (property? spelled).map fun set => (.set (negatedIf negated (folded flags set)), rest)
  match cs with
  | '\x7b' :: cs =>
    match cs.dropWhile (· != '\x7d') with
    | _ :: rest => found (cs.takeWhile (· != '\x7d')) rest
    | [] => none
  | '\\' :: _ | [] => none
  | c :: rest => found [c] rest

def asciiRanges (rs : List (Char × Char)) : CharSet :=
  rs.foldl (fun set (low, high) => .union set (.range low high)) .empty

def asciiDigit : CharSet := .range '0' '9'
def asciiBlank : CharSet := asciiRanges [('\t', '\r'), (' ', ' ')]
def asciiWord : CharSet := asciiRanges [('0', '9'), ('A', 'Z'), ('_', '_'), ('a', 'z')]

/-- The class of `\d`, `\s` or `\w`, or with a capital letter its complement. Without the
Unicode classes a complement is refused, because it would match parts of characters. -/
def shorthand? (flags : Flags) (letter : Char) : Option CharSet :=
  let choose (property : Property) (ascii : CharSet) (negated : Bool) : Option CharSet :=
    if flags.unicode then some (negatedIf negated (.property property))
    else if negated then none else some ascii
  match letter with
  | 'd' => choose .digit asciiDigit false
  | 'D' => choose .digit asciiDigit true
  | 's' => choose .blank asciiBlank false
  | 'S' => choose .blank asciiBlank true
  | 'w' => choose .word asciiWord false
  | 'W' => choose .word asciiWord true
  | _ => none

/-- The boundary that `\b` with a word between braces stands for. -/
def boundary (flags : Flags) (cs : List Char) : Option (Escape × List Char) :=
  let plain := some (Escape.look (.wordBoundary flags.unicode), cs)
  match cs with
  | '\x7b' :: inner =>
    let word := inner.takeWhile fun c => c.isAlpha || c == '-'
    match inner.drop word.length with
    | '\x7d' :: rest =>
      match String.ofList word with
      | "start" => some (.look (.wordStart flags.unicode), rest)
      | "end" => some (.look (.wordEnd flags.unicode), rest)
      | "start-half" => some (.look (.wordStartHalf flags.unicode), rest)
      | "end-half" => some (.look (.wordEndHalf flags.unicode), rest)
      | _ => if word.isEmpty then plain else none
    | [] => none
    | _ => if word.isEmpty then plain else none
  | _ => plain

def escape? (flags : Flags) : List Char → Option (Escape × List Char)
  | [] => none
  | c :: cs =>
    match c with
    | 'x' => (hex? 2 cs).map fun (c, cs) => (.literal c, cs)
    | 'u' => (hex? 4 cs).map fun (c, cs) => (.literal c, cs)
    | 'U' => (hex? 8 cs).map fun (c, cs) => (.literal c, cs)
    | 'p' => propertyEscape? flags false cs
    | 'P' => propertyEscape? flags true cs
    | 'a' => some (.literal '\x07', cs)
    | 'f' => some (.literal '\x0c', cs)
    | 't' => some (.literal '\t', cs)
    | 'n' => some (.literal '\n', cs)
    | 'r' => some (.literal '\r', cs)
    | 'v' => some (.literal '\x0b', cs)
    | 'A' => some (.look .textStart, cs)
    | 'z' => some (.look .textEnd, cs)
    | 'b' => boundary flags cs
    | 'B' => some (.look (.notWordBoundary flags.unicode), cs)
    | '<' => some (.look (.wordStart flags.unicode), cs)
    | '>' => some (.look (.wordEnd flags.unicode), cs)
    | c =>
      if "dDsSwW".toList.contains c then (shorthand? flags c).map fun set => (.set set, cs)
      else if isMeta c || (c.toNat < 128 && !c.isAlphanum) then some (.literal c, cs)
      else none

/-- An item of a class: a character, or a set that cannot end a range. -/
inductive ClassItem where
  | literal (c : Char)
  | set (s : CharSet)

def ClassItem.toSet : ClassItem → CharSet
  | literal c => .range c c
  | set s => s

def classItem? (flags : Flags) : List Char → Option (ClassItem × List Char)
  | '\\' :: cs =>
    match escape? flags cs with
    | some (.literal c, cs) => some (.literal c, cs)
    | some (.set s, cs) => some (.set s, cs)
    | _ => none
  | c :: cs => some (.literal c, cs)
  | [] => none

/-- An item or a range of characters. -/
def classRange? (flags : Flags) (cs : List Char) : Option (CharSet × List Char) := do
  let (first, cs) ← classItem? flags cs
  match skip flags cs with
  | [] => none
  | '-' :: after =>
    match skip flags after with
    | ']' :: _ | '-' :: _ => some (first.toSet, '-' :: after)
    | [] => none
    | after =>
      match first, ← classItem? flags after with
      | .literal low, (.literal high, cs) =>
        if low ≤ high then some (.range low high, cs) else none
      | _, _ => none
  | cs => some (first.toSet, cs)

/-- The class of a name between `[:` and `:]`. -/
def namedClass? (name : String) : Option CharSet :=
  match name with
  | "alnum" => some (asciiRanges [('0', '9'), ('A', 'Z'), ('a', 'z')])
  | "alpha" => some (asciiRanges [('A', 'Z'), ('a', 'z')])
  | "ascii" => some (.range '\x00' '\x7f')
  | "blank" => some (asciiRanges [('\t', '\t'), (' ', ' ')])
  | "cntrl" => some (asciiRanges [('\x00', '\x1f'), ('\x7f', '\x7f')])
  | "digit" => some asciiDigit
  | "graph" => some (.range '!' '~')
  | "lower" => some (.range 'a' 'z')
  | "print" => some (.range ' ' '~')
  | "punct" => some (asciiRanges [('!', '/'), (':', '@'), ('[', '\x60'), ('\x7b', '~')])
  | "space" => some asciiBlank
  | "upper" => some (.range 'A' 'Z')
  | "word" => some asciiWord
  | "xdigit" => some (asciiRanges [('0', '9'), ('A', 'F'), ('a', 'f')])
  | _ => none

/-- A named class after its opening bracket; anything else there opens a class of its own. -/
def posix? (flags : Flags) : List Char → Option (CharSet × List Char)
  | ':' :: cs =>
    let (negated, cs) := match cs with
      | '^' :: cs => (true, cs)
      | cs => (false, cs)
    let name := cs.takeWhile (· != ':')
    match cs.drop name.length with
    | ':' :: ']' :: rest => do
      let set ← namedClass? (String.ofList name)
      if negated && !flags.unicode then none
      else some (negatedIf negated (folded flags set), rest)
    | _ => none
  | _ => none

inductive SetOp where
  | inter | diff | symmDiff

/-- What stands before the current union of a class. -/
abbrev Pending := Option (SetOp × CharSet)

def combine (flags : Flags) (pending : Pending) (right : CharSet) : CharSet :=
  match pending with
  | none => right
  | some (op, left) =>
    let left := folded flags left
    let right := folded flags right
    match op with
    | .inter => .inter left right
    | .diff => .diff left right
    | .symmDiff => .symmDiff left right

/-- Dashes at the start of a class stand for themselves. -/
def leadingDashes (flags : Flags) (set : CharSet) : List Char → CharSet × List Char
  | [] => (set, [])
  | c :: cs =>
    if c == '-' then leadingDashes flags (.range '-' '-') cs
    else if flags.ignoreSpace && Text.isBlank c then leadingDashes flags set cs
    else (set, c :: cs)

/-- The rest of a class after its opening bracket; `fuel` bounds the classes and items in it. -/
def class? (flags : Flags) : (fuel : Nat) → List Char → Option (CharSet × List Char)
  | 0, _ => none
  | fuel + 1, cs => do
    let cs := skip flags cs
    let (negated, cs) := match cs with
      | '^' :: cs => (true, skip flags cs)
      | cs => (false, cs)
    let (set, rest) := leadingDashes flags .empty cs
    let (set, rest) := match rest with
      | ']' :: after => if rest.length = cs.length then (.range ']' ']', after) else (set, rest)
      | _ => (set, rest)
    if negated && !flags.unicode then none
    else
      let (set, rest) ← body fuel set none rest
      some (negatedIf negated (folded flags set), rest)
where
  /-- The items up to the closing bracket. -/
  body : (fuel : Nat) → CharSet → Pending → List Char → Option (CharSet × List Char)
    | 0, _, _, _ => none
    | fuel + 1, set, pending, cs =>
      match skip flags cs with
      | [] => none
      | ']' :: rest => some (combine flags pending set, rest)
      | '&' :: '&' :: rest => body fuel .empty (some (.inter, combine flags pending set)) rest
      | '-' :: '-' :: rest => body fuel .empty (some (.diff, combine flags pending set)) rest
      | '~' :: '~' :: rest => body fuel .empty (some (.symmDiff, combine flags pending set)) rest
      | '[' :: rest =>
        match posix? flags rest with
        | some (named, rest) => body fuel (.union set named) pending rest
        | none => do
          let (inner, rest) ← class? flags fuel rest
          body fuel (.union set inner) pending rest
      | cs => do
        let (item, rest) ← classRange? flags cs
        body fuel (.union set item) pending rest

/-- A count with blanks around it. -/
def count? (cs : List Char) : Option (Nat × List Char) :=
  let cs := cs.dropWhile Text.isBlank
  let digits := cs.takeWhile Char.isDigit
  let n := Number.digitsValue digits
  if digits.isEmpty || Nat.pow 2 32 ≤ n then none
  else some (n, (cs.drop digits.length).dropWhile Text.isBlank)

/-- The bounds after an opening brace, without their greed. -/
def counted? (flags : Flags) (cs : List Char) : Option (Nat × Option Nat × List Char) := do
  let (least, cs) ← count? cs
  match cs with
  | '\x7d' :: cs => some (least, some least, cs)
  | ',' :: cs =>
    match skip flags cs with
    | '\x7d' :: cs => some (least, none, cs)
    | cs =>
      let (most, cs) ← count? cs
      match cs with
      | '\x7d' :: cs => if least ≤ most then some (least, some most, cs) else none
      | _ => none
  | _ => none

/-- A repetition, if one stands here: nothing where none stands, and a failure where a brace
opens no bounds. -/
def repetition? (flags : Flags) (cs : List Char) : Option (Option Bounds × List Char) :=
  let withGreed (least : Nat) (most : Option Nat) (cs : List Char) : Option Bounds × List Char :=
    match cs with
    | '?' :: cs => (some ⟨least, most, flags.swapGreed⟩, cs)
    | cs => (some ⟨least, most, !flags.swapGreed⟩, cs)
  match cs with
  | '*' :: cs => some (withGreed 0 none cs)
  | '+' :: cs => some (withGreed 1 none cs)
  | '?' :: cs => some (withGreed 0 (some 1) cs)
  | '\x7b' :: cs => (counted? flags cs).map fun (least, most, cs) =>
    withGreed least most (skip flags cs)
  | cs => some (none, cs)

/-- Flag letters up to a colon or a closing parenthesis. None may come twice, and a dash must be
followed by one. -/
def flagLetters? : (flags : Flags) → (on : Bool) → (seen : List Char) → List Char →
    Option (Flags × List Char)
  | flags, _, _, ':' :: cs => some (flags, ':' :: cs)
  | flags, _, _, ')' :: cs => some (flags, ')' :: cs)
  | _, _, _, [] => none
  | flags, on, seen, c :: cs =>
    if seen.contains c then none
    else if c == '-' then
      match cs with
      | ':' :: _ | ')' :: _ => none
      | cs => flagLetters? flags false (c :: seen) cs
    else do flagLetters? (← flags.set c on) on (c :: seen) cs

def isNameChar (first : Bool) (c : Char) : Bool :=
  c == '_' || Text.isAlphabetic c ||
    (!first && (c == '.' || c == '[' || c == ']' ||
      [Text.Category.Nd, .Nl, .No].contains (Text.category c)))

def groupName? (cs : List Char) : Option (String × List Char) :=
  let name := cs.takeWhile (· != '>')
  match name, cs.drop name.length with
  | first :: others, _ :: rest =>
    if isNameChar true first && others.all (isNameChar false) then
      some (String.ofList name, rest)
    else none
  | _, _ => none

inductive Opening where
  | flags (flags : Flags) (rest : List Char)
  | plain (flags : Flags) (rest : List Char)
  | capture (name : Option String) (rest : List Char)

def opening? (flags : Flags) (cs : List Char) : Option Opening :=
  match cs with
  | '?' :: 'P' :: '<' :: cs => (groupName? cs).map fun (name, cs) => .capture (some name) cs
  | '?' :: '<' :: '=' :: _ | '?' :: '<' :: '!' :: _ => none
  | '?' :: '<' :: cs => (groupName? cs).map fun (name, cs) => .capture (some name) cs
  | '?' :: ')' :: _ => none
  | '?' :: cs =>
    match flagLetters? flags true [] cs with
    | some (flags, ':' :: cs) => some (.plain flags cs)
    | some (flags, ')' :: cs) => some (.flags flags cs)
    | _ => none
  | cs => some (.capture none cs)

/-- The groups with one more, unless its name is taken. -/
def Groups.add? (groups : Groups) (name : Option String) : Option Groups :=
  match name with
  | none => some ⟨groups.count + 1, groups.names⟩
  | some name =>
    if (groups.names.lookup name).isSome then none
    else some ⟨groups.count + 1, (name, groups.count + 1) :: groups.names⟩

/-- One character that stands for more than itself, or for itself. -/
def atom? (flags : Flags) (cs : List Char) : Option (Node × List Char) :=
  match cs with
  | '.' :: cs =>
    if !flags.unicode then none
    else
      let lineEnds := if flags.crlf then asciiRanges [('\n', '\n'), ('\r', '\r')]
        else .range '\n' '\n'
      some (.char (if flags.dotAll then .property .any else .compl lineEnds), cs)
  | '^' :: cs =>
    some (.look (if !flags.multiLine then .textStart else if flags.crlf then .crlfStart
      else .lineStart), cs)
  | '$' :: cs =>
    some (.look (if !flags.multiLine then .textEnd else if flags.crlf then .crlfEnd
      else .lineEnd), cs)
  | '\\' :: cs => do
    match ← escape? flags cs with
    | (.literal c, cs) => some (.char (single flags c), cs)
    | (.set set, cs) => some (.char set, cs)
    | (.look look, cs) => some (.look look, cs)
  | c :: cs => some (.char (single flags c), cs)
  | [] => none

/-- Applies the repetitions that follow a node. -/
def repeated? (flags : Flags) : (fuel : Nat) → Node → List Char → Option (Node × List Char)
  | 0, node, cs => some (node, cs)
  | fuel + 1, node, cs => do
    match ← repetition? flags (skip flags cs) with
    | (some bounds, cs) => repeated? flags fuel (.repeated node bounds) cs
    | (none, cs) => some (node, cs)

mutual

/-- The alternatives up to a closing parenthesis or the end. -/
def alternatives? : (fuel : Nat) → Flags → Groups → List Char →
    Option (List Node × Groups × List Char)
  | 0, _, _, _ => none
  | fuel + 1, flags, groups, cs => do
    let (nodes, flags, groups, cs) ← sequence? fuel flags groups cs
    match cs with
    | '|' :: cs =>
      let (others, groups, cs) ← alternatives? fuel flags groups cs
      some (.ofList nodes :: others, groups, cs)
    | cs => some ([.ofList nodes], groups, cs)

/-- The nodes up to a bar, a closing parenthesis or the end, and the flags then set. -/
def sequence? : (fuel : Nat) → Flags → Groups → List Char →
    Option (List Node × Flags × Groups × List Char)
  | 0, _, _, _ => none
  | fuel + 1, flags, groups, cs =>
    match skip flags cs with
    | [] => some ([], flags, groups, [])
    | '|' :: cs => some ([], flags, groups, '|' :: cs)
    | ')' :: cs => some ([], flags, groups, ')' :: cs)
    | '*' :: _ | '+' :: _ | '?' :: _ | '\x7b' :: _ => none
    | '(' :: cs => do
      match ← opening? flags (skip flags cs) with
      | .flags flags cs =>
        match skip flags cs with
        | '*' :: _ | '+' :: _ | '?' :: _ | '\x7b' :: _ => none
        | cs => sequence? fuel flags groups cs
      | .plain inner cs =>
        let (node, groups, cs) ← closed? fuel inner groups cs
        let (node, cs) ← repeated? flags cs.length node cs
        let (nodes, flags, groups, cs) ← sequence? fuel flags groups cs
        some (node :: nodes, flags, groups, cs)
      | .capture name cs =>
        let groups ← groups.add? name
        let index := groups.count
        let (node, groups, cs) ← closed? fuel flags groups cs
        let (node, cs) ← repeated? flags cs.length (.group index node) cs
        let (nodes, flags, groups, cs) ← sequence? fuel flags groups cs
        some (node :: nodes, flags, groups, cs)
    | '[' :: cs => do
      let (set, cs) ← class? flags (cs.length + 1) cs
      let (node, cs) ← repeated? flags cs.length (.char set) cs
      let (nodes, flags, groups, cs) ← sequence? fuel flags groups cs
      some (node :: nodes, flags, groups, cs)
    | cs => do
      let (node, cs) ← atom? flags cs
      let (node, cs) ← repeated? flags cs.length node cs
      let (nodes, flags, groups, cs) ← sequence? fuel flags groups cs
      some (node :: nodes, flags, groups, cs)

/-- What stands between an opening parenthesis and its closing one. -/
def closed? : (fuel : Nat) → Flags → Groups → List Char → Option (Node × Groups × List Char)
  | 0, _, _, _ => none
  | fuel + 1, flags, groups, cs => do
    let (nodes, groups, cs) ← alternatives? fuel flags groups cs
    match cs with
    | ')' :: cs => some (.anyOf nodes, groups, cs)
    | _ => none

end

end Reader

/-- A regular expression with its number of groups and the groups that have names. -/
structure Parsed where
  node : Node
  groups : Nat
  names : List (String × Nat)

/-- Reads a regular expression; nothing where the text is none. -/
def Parsed.ofText? (text : String) : Option Parsed := do
  let cs := text.toList
  let (nodes, groups, rest) ← Reader.alternatives? (3 * cs.length + 3) .initial ⟨0, []⟩ cs
  if rest.isEmpty then some ⟨.anyOf nodes, groups.count, groups.names⟩ else none

end Emend.Pattern
