import Emend.Formula.Expr
import Emend.Formula.Lexer

/-!
Formulas read from lexemes.

Binary operators bind, loosest first: `or`, `and`, `is`, `in versions`, the comparisons, the text
operators, joining, sums, products. Each level associates to the left. Prefix operators bind
tighter, `^` tighter still with its exponent an operand of its own, and `.name` tightest.

Every operand, every step of a chain of operators and every member of a computed value takes one
level from an allowance, so the reader recurses on the allowance alone. What an operand took inside
is there again for the operators after it.
-/

set_option autoImplicit false

namespace Emend.Formula
open Emend.Text (Span)

inductive Level where
  | or | and | equality | membership | comparison | text | joining | additive | multiplicative
  | operand
  deriving Repr, DecidableEq

namespace Level

def rank : Level → Nat
  | or => 1 | and => 2 | equality => 3 | membership => 4 | comparison => 5 | text => 6
  | joining => 7 | additive => 8 | multiplicative => 9 | operand => 10

def tighter : Level → Level
  | or => and | and => equality | equality => membership | membership => comparison
  | comparison => text | text => joining | joining => additive | additive => multiplicative
  | multiplicative => operand | operand => operand

end Level

inductive Joint where
  | binary (op : BinaryOp)
  /-- The word `in`, which `versions` follows. -/
  | versions
  /-- The word `replace`, whose pattern and substitute `with` separates. -/
  | replacement
  deriving Repr, DecidableEq

def Joint.level : Joint → Level
  | versions => .membership
  | replacement => .text
  | binary op => match op with
    | .or => .or
    | .and => .and
    | .equals => .equality
    | .inVersions => .membership
    | .less | .lessEqual | .greater | .greaterEqual => .comparison
    | .contains | .startsWith | .endsWith | .fitsPattern => .text
    | .concat | .repeated => .joining
    | .add | .subtract => .additive
    | .multiply | .divide | .modulo => .multiplicative
    | .power => .operand

/-- The joint that a token stands for after an operand. A `^` never stands there: the operand
before it has taken it. -/
def Token.joint? : Token → Option Joint
  | symbol s => match s with
    | .plus => some (.binary .add)
    | .minus => some (.binary .subtract)
    | .times => some (.binary .multiply)
    | .divide => some (.binary .divide)
    | .modulo => some (.binary .modulo)
    | .concat => some (.binary .concat)
    | .less => some (.binary .less)
    | .lessEqual => some (.binary .lessEqual)
    | .greater => some (.binary .greater)
    | .greaterEqual => some (.binary .greaterEqual)
    | _ => none
  | keyword k => match k with
    | .is => some (.binary .equals)
    | .and => some (.binary .and)
    | .or => some (.binary .or)
    | .contains => some (.binary .contains)
    | .starts => some (.binary .startsWith)
    | .ends => some (.binary .endsWith)
    | .«matches» => some (.binary .fitsPattern)
    | .repeats => some (.binary .repeated)
    | .in => some .versions
    | .replace => some .replacement
    | _ => none
  | _ => none

def Token.prefixOp? : Token → Option UnaryOp
  | symbol .minus => some .negate
  | symbol .plus => some .plus
  | keyword .not => some .not
  | _ => none

def Token.isSymbol (s : Symbol) : Token → Bool
  | symbol t => s == t
  | _ => false

def Token.isKeyword (k : Keyword) : Token → Bool
  | keyword l => k == l
  | _ => false

/-- A sign folds into the number it stands before. -/
def Expr.signed : UnaryOp → Expr → Expr
  | .negate, .literal (.number x) => .literal (.number x.neg)
  | .plus, .literal (.number x) => .literal (.number x)
  | op, operand => .unary op operand

namespace Parser

/-- What stays the same while one text is read: its length in bytes, what stops its lexemes
before the end, and the nesting it may have. -/
structure Source where
  length : Nat
  failure : Option ParseError
  limit : Nat

namespace Source
variable (source : Source)

/-- Where the next lexeme stands, or the end of the text. -/
def here : List Lexeme → Span
  | [] => .empty source.length
  | lexeme :: _ => lexeme.span

def tooDeep (ts : List Lexeme) : ParseError := .tooDeep source.limit (source.here ts)

def unexpected (expected : String) : List Lexeme → ParseError
  | [] => .unexpectedEnd expected (.empty source.length)
  | lexeme :: _ => .unexpectedToken lexeme.token.describe lexeme.span

/-- Makes `ts` the lexemes that remain; the text's failure shows once they are used up. -/
def moveTo (ts : List Lexeme) : Except ParseError (List Lexeme) :=
  match ts, source.failure with
  | [], some failure => .error failure
  | ts, _ => .ok ts

def expectSymbol (s : Symbol) (expected : String) : List Lexeme →
    Except ParseError (Span × List Lexeme)
  | lexeme :: rest =>
    if lexeme.token.isSymbol s then (source.moveTo rest).map (lexeme.span, ·)
    else .error (source.unexpected expected (lexeme :: rest))
  | [] => .error (source.unexpected expected [])

def expectKeyword (k : Keyword) (expected : String) : List Lexeme → Except ParseError (List Lexeme)
  | lexeme :: rest =>
    if lexeme.token.isKeyword k then source.moveTo rest
    else .error (source.unexpected expected (lexeme :: rest))
  | [] => .error (source.unexpected expected [])

end Source

/-- What one level further in is to read. -/
inductive Goal where
  /-- An operand with its prefix operators, exponent and members. -/
  | operand
  /-- More operators of the given level or tighter, after the left operand. -/
  | chain (least : Level) (left : Expr)

/-- A reader one level further in. -/
abbrev Reader := Goal → List Lexeme → Except ParseError (Expr × List Lexeme)

/-- An expression whose operators have the given level or bind tighter. -/
def expression (deeper : Reader) (least : Level) (ts : List Lexeme) :
    Except ParseError (Expr × List Lexeme) := do
  let (left, ts) ← deeper .operand ts
  deeper (.chain least left) ts

/-- Items between commas, at least one; `fuel` bounds their number. -/
def items (source : Source) (item : List Lexeme → Except ParseError (Expr × List Lexeme)) :
    (fuel : Nat) → List Lexeme → Except ParseError (List Expr × List Lexeme)
  | 0, ts => .ok ([], ts)
  | fuel + 1, ts => do
    let (first, ts) ← item ts
    match ts with
    | ⟨.symbol .comma, _⟩ :: rest =>
      let ts ← source.moveTo rest
      let (others, ts) ← items source item fuel ts
      .ok (first :: others, ts)
    | ts => .ok ([first], ts)

def arguments (source : Source) (deeper : Reader) (name : String) (start : Span)
    (ts : List Lexeme) : Except ParseError (Expr × List Lexeme) :=
  match ts with
  | ⟨.symbol .rightParen, span⟩ :: rest => do
    .ok (.call name [] (start.merge span), ← source.moveTo rest)
  | ts => do
    let (args, ts) ← items source (expression deeper .or) (ts.length + 1) ts
    let (stop, ts) ← source.expectSymbol .rightParen "',' or ')' in argument list" ts
    .ok (.call name args (start.merge stop), ts)

/-- A group, or a tuple when commas separate two items or more. -/
def group (source : Source) (deeper : Reader) (ts : List Lexeme) :
    Except ParseError (Expr × List Lexeme) := do
  match ← items source (expression deeper .or) (ts.length + 1) ts with
  | ([single], ts) =>
    let (_, ts) ← source.expectSymbol .rightParen "')' to close group" ts
    .ok (single, ts)
  | (several, ts) =>
    let (_, ts) ← source.expectSymbol .rightParen "')' to close tuple" ts
    .ok (.tuple several, ts)

def primary (source : Source) (deeper : Reader) (ts : List Lexeme) :
    Except ParseError (Expr × List Lexeme) :=
  match ts with
  | ⟨.number x, _⟩ :: rest => do .ok (.literal (.number x), ← source.moveTo rest)
  | ⟨.text s, _⟩ :: rest => do .ok (.literal (.text s), ← source.moveTo rest)
  | ⟨.name name, span⟩ :: rest => do
    match ← source.moveTo rest with
    | ⟨.symbol .leftParen, _⟩ :: rest =>
      arguments source deeper name span (← source.moveTo rest)
    | ts => match Literal.ofName? name with
      | some constant => .ok (.literal constant, ts)
      | none => .ok (.symbol name [] span, ts)
  | ⟨.symbol .leftParen, _⟩ :: rest => do group source deeper (← source.moveTo rest)
  | ts => .error (source.unexpected "operand" ts)

/-- The members after an operand. A name after a path lengthens the path; after any other
operand it takes one level of the allowance. -/
def members (source : Source) :
    (allowance : Nat) → Expr → List Lexeme → Except ParseError (Expr × List Lexeme)
  | allowance, target, ⟨.symbol .dot, _⟩ :: ⟨.name name, span⟩ :: rest => do
    let after ← source.moveTo rest
    match target, allowance with
    | .symbol head tail start, _ =>
      members source allowance (.symbol head (tail ++ [name]) (start.merge span)) rest
    | _, 0 => .error (source.tooDeep after)
    | target, allowance + 1 => members source allowance (.member target name) rest
  | _, _, ⟨.symbol .dot, _⟩ :: rest => do
    .error (source.unexpected "member name after '.'" (← source.moveTo rest))
  | _, target, ts => .ok (target, ts)

/-- An operand without prefix operators, and its exponent if it has one. -/
def power (source : Source) (allowance : Nat) (deeper : Reader) (ts : List Lexeme) :
    Except ParseError (Expr × List Lexeme) := do
  let (base, ts) ← primary source deeper ts
  match ← members source allowance base ts with
  | (base, ⟨.symbol .power, _⟩ :: rest) =>
    let (exponent, ts) ← deeper .operand (← source.moveTo rest)
    .ok (.binary .power base exponent, ts)
  | result => .ok result

def join (source : Source) (deeper : Reader) (joint : Joint) (left : Expr) (ts : List Lexeme) :
    Except ParseError (Expr × List Lexeme) := do
  let operand := expression deeper joint.level.tighter
  match joint with
  | .binary op =>
    let (right, ts) ← operand ts
    .ok (.binary op left right, ts)
  | .versions =>
    let ts ← source.expectKeyword .versions "'versions' after 'in'" ts
    let (right, ts) ← operand ts
    .ok (.binary .inVersions left right, ts)
  | .replacement =>
    let (pattern, ts) ← operand ts
    let ts ← source.expectKeyword .with "'with' after replace pattern" ts
    let (substitute, ts) ← operand ts
    .ok (.replace left pattern substitute, ts)

def step (source : Source) (allowance : Nat) (deeper : Reader) : Reader
  | .operand, lexeme :: rest =>
    match lexeme.token.prefixOp? with
    | some op => do
      let (operand, ts) ← deeper .operand (← source.moveTo rest)
      .ok (.signed op operand, ts)
    | none => power source allowance deeper (lexeme :: rest)
  | .operand, [] => power source allowance deeper []
  | .chain least left, lexeme :: rest =>
    match lexeme.token.joint? with
    | some joint =>
      if least.rank ≤ joint.level.rank then do
        let (joined, ts) ← join source deeper joint left (← source.moveTo rest)
        deeper (.chain least joined) ts
      else .ok (left, lexeme :: rest)
    | none => .ok (left, lexeme :: rest)
  | .chain _ left, [] => .ok (left, [])

/-- The reader with the given allowance. -/
def reader (source : Source) : (allowance : Nat) → Reader
  | 0 => fun _ ts => .error (source.tooDeep ts)
  | allowance + 1 => step source allowance (reader source allowance)

/-- A whole formula; nothing may follow it. -/
def formula (source : Source) (ts : List Lexeme) : Except ParseError Expr := do
  match ← source.moveTo ts with
  | [] => .error .empty
  | ts =>
    match ← expression (reader source source.limit) .or ts with
    | (expr, []) => .ok expr
    | (_, ts) => .error (source.unexpected "end of formula" ts)

end Parser

def defaultDepth : Nat := 128

/-- Reads a formula that nests no deeper than `limit`. -/
def parse (text : String) (limit : Nat) : Except ParseError Expr :=
  let lexed := Lexed.ofText text
  Parser.formula ⟨text.utf8ByteSize, lexed.failure, limit⟩ lexed.lexemes

end Emend.Formula
