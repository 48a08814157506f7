import Emend.Formula.Token
import Emend.Number.Reading
import Emend.Text.Blank
import Emend.Text.Identifier

/-!
Formula text cut into lexemes. A token is read from its first character and the text after it;
the reader says how many of the following characters belong to the token, so the lexemes and the
blanks between them cover the text from left to right without overlap.
-/

set_option autoImplicit false

namespace Emend.Formula
open Emend.Text (byteLength between? isBlank isIdentifierStart isIdentifierPart)

namespace Lexer

def digitCount (cs : List Char) : Nat := (cs.takeWhile Char.isDigit).length

/-- A point belongs to a number only if a digit follows, so `1..2` joins two texts. -/
def fractionLength : List Char → Nat
  | '.' :: rest => if digitCount rest = 0 then 0 else 1 + digitCount rest
  | _ => 0

/-- An exponent mark belongs to a number only if it has digits. -/
def exponentLength : List Char → Nat
  | mark :: rest =>
    let sign := match rest with
      | '+' :: _ | '-' :: _ => 1
      | _ => 0
    let digits := digitCount (rest.drop sign)
    if (mark == 'e' || mark == 'E') && digits != 0 then 1 + sign + digits else 0
  | [] => 0

/-- How many characters of a number follow its first digit. -/
def numberLength (rest : List Char) : Nat :=
  let whole := digitCount rest
  let part := fractionLength (rest.drop whole)
  whole + part + exponentLength (rest.drop (whole + part))

def number (first : Char) (rest : List Char) : Token × Nat :=
  let n := numberLength rest
  (.number ((Number.readUnsigned? (first :: rest.take n)).getD 0), n)

def isHexDigit (c : Char) : Bool :=
  c.isDigit || ('a' ≤ c && c ≤ 'f') || ('A' ≤ c && c ≤ 'F')

def hexDigit (c : Char) : Nat :=
  if c.isDigit then c.toNat - 48 else if 'a' ≤ c then c.toNat - 87 else c.toNat - 55

def isOctalDigit (c : Char) : Bool := '0' ≤ c && c ≤ '7'

def simpleEscape? : Char → Option Char
  | 'n' => some '\n'
  | 't' => some '\t'
  | 'r' => some '\r'
  | 'a' => some '\x07'
  | 'b' => some '\x08'
  | 'f' => some '\x0c'
  | 'v' => some '\x0b'
  | '\\' => some '\\'
  | '\x27' => some '\x27'
  | '"' => some '"'
  | '?' => some '?'
  | _ => none

def hexEscape? : Char → Option Nat
  | 'x' => some 2
  | 'u' => some 4
  | 'U' => some 8
  | _ => none

/-- Reads exactly `count` hexadecimal digits after the backslash at `offset` and `letter`. -/
def hexadecimal (offset : Nat) (letter : Char) (count : Nat) (rest : List Char) :
    Except ParseError (Char × Nat) :=
  let digits := rest.take count
  if digits.length = count ∧ digits.all isHexDigit then
    let code := digits.foldl (fun n d => 16 * n + hexDigit d) 0
    if code.isValidChar then .ok (Char.ofNat code, 1 + count)
    else .error (.invalidEscape (String.ofList ('\\' :: letter :: digits))
      ⟨offset, offset + 2 + count⟩)
  else
    let covered := min count (byteLength rest)
    let sequence := match between? 0 covered rest with
      | some shown => String.ofList ('\\' :: letter :: shown)
      | none => "\\"
    .error (.invalidEscape sequence ⟨offset, offset + 2 + covered⟩)

/-- Reads what follows the backslash at `offset`: the character it stands for, and how many
characters spell it. -/
def escape (offset : Nat) : List Char → Except ParseError (Char × Nat)
  | [] => .error (.unclosedText ⟨offset, offset + 1⟩)
  | c :: rest =>
    match simpleEscape? c, hexEscape? c with
    | some decoded, _ => .ok (decoded, 1)
    | none, some count => hexadecimal offset c count rest
    | none, none =>
      if isOctalDigit c then
        let digits := c :: (rest.take 2).takeWhile isOctalDigit
        .ok (Char.ofNat (digits.foldl (fun n d => 8 * n + (d.toNat - 48)) 0), digits.length)
      else .error (.invalidEscape (String.ofList ['\\', c]) ⟨offset, offset + 1 + c.utf8Size⟩)

/-- Reads up to the closing quote: the text, and how many characters spell it with the quote.
The text opened at byte `opened`; `skip` characters belong to an escape already read. -/
def quoted (quote : Char) (opened : Nat) :
    (offset skip : Nat) → List Char → Except ParseError (List Char × Nat)
  | offset, _, [] => .error (.unclosedText ⟨opened, offset⟩)
  | offset, skip + 1, c :: rest => do
    let (text, n) ← quoted quote opened (offset + c.utf8Size) skip rest
    .ok (text, n + 1)
  | offset, 0, c :: rest => do
    if c = quote then .ok ([], 1)
    else if c = '\\' then
      let (decoded, length) ← escape offset rest
      let (text, n) ← quoted quote opened (offset + 1) length rest
      .ok (decoded :: text, n + 1)
    else
      let (text, n) ← quoted quote opened (offset + c.utf8Size) 0 rest
      .ok (c :: text, n + 1)

/-- A symbol and how many characters of it follow the first. -/
def symbol? (c : Char) (rest : List Char) : Option (Symbol × Nat) :=
  match c with
  | '(' => some (.leftParen, 0)
  | ')' => some (.rightParen, 0)
  | ',' => some (.comma, 0)
  | '+' => some (.plus, 0)
  | '-' => some (.minus, 0)
  | '*' => some (.times, 0)
  | '/' => some (.divide, 0)
  | '%' => some (.modulo, 0)
  | '^' => some (.power, 0)
  | '.' => if rest.head? = some '.' then some (.concat, 1) else some (.dot, 0)
  | '<' => if rest.head? = some '=' then some (.lessEqual, 1) else some (.less, 0)
  | '>' => if rest.head? = some '=' then some (.greaterEqual, 1) else some (.greater, 0)
  | _ => none

def word (spelling : String) : Token :=
  match Keyword.ofSpelling? spelling with
  | some keyword => .keyword keyword
  | none => .name spelling

/-- The token that starts with `c` at byte `offset`, and how many characters of `rest` belong
to it. -/
def token (offset : Nat) (c : Char) (rest : List Char) : Except ParseError (Token × Nat) :=
  match symbol? c rest with
  | some (symbol, n) => .ok (.symbol symbol, n)
  | none =>
    if c.isDigit then .ok (number c rest)
    else if c = '"' ∨ c = '\x27' then do
      let (text, n) ← quoted c offset (offset + 1) 0 rest
      .ok (.text (String.ofList text), n)
    else if isIdentifierStart c then
      let following := rest.takeWhile isIdentifierPart
      .ok (word (String.ofList (c :: following)), following.length)
    else .error (.unexpectedToken (String.singleton c) ⟨offset, offset + c.utf8Size⟩)

end Lexer

/-- The lexemes of a text up to its end or to the first place where no token can be read. -/
structure Lexed where
  lexemes : List Lexeme
  failure : Option ParseError

namespace Lexer

/-- Reads on at byte `offset`; `skip` characters belong to the token already read. -/
def lexemesFrom : (offset skip : Nat) → List Char → Lexed
  | _, _, [] => ⟨[], none⟩
  | offset, skip + 1, c :: rest => lexemesFrom (offset + c.utf8Size) skip rest
  | offset, 0, c :: rest =>
    if isBlank c then lexemesFrom (offset + c.utf8Size) 0 rest
    else match token offset c rest with
      | .error failure => ⟨[], some failure⟩
      | .ok (token, n) =>
        let after := lexemesFrom (offset + c.utf8Size) n rest
        ⟨⟨token, offset, offset + byteLength (c :: rest.take n)⟩ :: after.lexemes, after.failure⟩

end Lexer

def Lexed.ofText (text : String) : Lexed := Lexer.lexemesFrom 0 0 text.toList

def tokenize (text : String) : Except ParseError (List Lexeme) :=
  match Lexed.ofText text with
  | ⟨lexemes, none⟩ => .ok lexemes
  | ⟨_, some failure⟩ => .error failure

end Emend.Formula
