import Emend.Formula.Parser

/-!
The grammar of formulas, in layers. A layer is a left-associative chain of the operators of one
precedence, with operands of the next layer; the layers end in prefix operators, powers, members
and primaries.
-/

set_option autoImplicit false

namespace Emend.Formula.Grammar
open Emend.Text (Span)

/-- The words of the binary operators by precedence, the loosest first. The words around a pattern
and its substitute have precedence 6 as well. -/
def operators : (precedence : Nat) → List (List Token × BinaryOp)
  | 1 => [([.keyword .or], .or)]
  | 2 => [([.keyword .and], .and)]
  | 3 => [([.keyword .is], .equals)]
  | 4 => [([.keyword .in, .keyword .versions], .inVersions)]
  | 5 => [([.symbol .less], .less), ([.symbol .lessEqual], .lessEqual),
      ([.symbol .greater], .greater), ([.symbol .greaterEqual], .greaterEqual)]
  | 6 => [([.keyword .contains], .contains), ([.keyword .starts], .startsWith),
      ([.keyword .ends], .endsWith), ([.keyword .«matches»], .fitsPattern)]
  | 7 => [([.symbol .concat], .concat), ([.keyword .repeats], .repeated)]
  | 8 => [([.symbol .plus], .add), ([.symbol .minus], .subtract)]
  | 9 => [([.symbol .times], .multiply), ([.symbol .divide], .divide),
      ([.symbol .modulo], .modulo)]
  | _ => []

def prefixes : List (Token × UnaryOp) :=
  [(.symbol .minus, .negate), (.symbol .plus, .plus), (.keyword .not, .not)]

/-- Derivation trees. Parentheses stay, as do the signs before numbers. -/
inductive Tree where
  | number (value : Float)
  | text (value : String)
  | name (spelling : String) (span : Span)
  | call (name : String) (start stop : Span)
  | callWith (name : String) (start : Span) (args : Tree) (stop : Span)
  | parens (items : Tree)
  | member (target : Tree) (name : String) (span : Span)
  | power (base exponent : Tree)
  | sign (op : UnaryOp) (operand : Tree)
  | binary (op : BinaryOp) (left right : Tree)
  | replace (input pattern substitute : Tree)
  /-- The last of the items between commas. -/
  | last (item : Tree)
  | more (item rest : Tree)

/-- A sign before a number is part of the number. -/
def withSign : UnaryOp → Expr → Expr
  | .negate, .literal (.number x) => .literal (.number x.neg)
  | .plus, .literal (.number x) => .literal (.number x)
  | op, operand => .unary op operand

/-- A name after a path is part of the path. -/
def withMember (name : String) (span : Span) : Expr → Expr
  | .symbol head tail start => .symbol head (tail ++ [name]) (start.merge span)
  | target => .member target name

namespace Tree

mutual

/-- The formula that a tree stands for. Several items in parentheses are a tuple. -/
def expr : Tree → Expr
  | number x => .literal (.number x)
  | text s => .literal (.text s)
  | name spelling span =>
    match Literal.ofName? spelling with
    | some constant => .literal constant
    | none => .symbol spelling [] span
  | call function start stop => .call function [] (start.merge stop)
  | callWith function start args stop => .call function (exprs args) (start.merge stop)
  | parens items => expr items
  | member target key span => withMember key span (expr target)
  | power base exponent => .binary .power (expr base) (expr exponent)
  | sign op operand => withSign op (expr operand)
  | binary op left right => .binary op (expr left) (expr right)
  | replace input pattern substitute => .replace (expr input) (expr pattern) (expr substitute)
  | last item => expr item
  | more item rest => .tuple (expr item :: exprs rest)

def exprs : Tree → List Expr
  | last item => [expr item]
  | more item rest => expr item :: exprs rest
  | _ => []

end

end Tree

inductive Category where
  /-- Chains of operators of at least this precedence. -/
  | layer (precedence : Nat)
  | unary | power | access | primary
  /-- One item, or several with commas between them. -/
  | items
  deriving DecidableEq

/-- The lexemes begin with a sentence of the category, with this tree, and go on with `rest`. -/
inductive Derives : Category → List Lexeme → Tree → (rest : List Lexeme) → Prop
  | binary {n : Nat} {words : List Token} {op : BinaryOp} {signs ts mid rest : List Lexeme}
      {left right : Tree} (listed : (words, op) ∈ operators n)
      (first : Derives (.layer n) ts left (signs ++ mid)) (spelled : signs.map (·.token) = words)
      (second : Derives (.layer (n + 1)) mid right rest) :
      Derives (.layer n) ts (.binary op left right) rest
  | replace {ts before after rest : List Lexeme} {input pattern substitute : Tree} {a b : Span}
      (first : Derives (.layer 6) ts input (⟨.keyword .replace, a⟩ :: before))
      (second : Derives (.layer 7) before pattern
        (⟨.keyword .with, b⟩ :: after))
      (third : Derives (.layer 7) after substitute rest) :
      Derives (.layer 6) ts (.replace input pattern substitute) rest
  | tighter {n : Nat} {ts rest : List Lexeme} {t : Tree} (loose : n < 10)
      (inner : Derives (.layer (n + 1)) ts t rest) : Derives (.layer n) ts t rest
  | operand {ts rest : List Lexeme} {t : Tree} (inner : Derives .unary ts t rest) :
      Derives (.layer 10) ts t rest
  | sign {lexeme : Lexeme} {op : UnaryOp} {ts rest : List Lexeme} {t : Tree}
      (listed : (lexeme.token, op) ∈ prefixes) (inner : Derives .unary ts t rest) :
      Derives .unary (lexeme :: ts) (.sign op t) rest
  | unsigned {ts rest : List Lexeme} {t : Tree} (inner : Derives .power ts t rest) :
      Derives .unary ts t rest
  | power {ts mid rest : List Lexeme} {base exponent : Tree} {a : Span}
      (first : Derives .access ts base (⟨.symbol .power, a⟩ :: mid))
      (second : Derives .unary mid exponent rest) :
      Derives .power ts (.power base exponent) rest
  | base {ts rest : List Lexeme} {t : Tree} (inner : Derives .access ts t rest) :
      Derives .power ts t rest
  | member {ts rest : List Lexeme} {target : Tree} {name : String} {a span : Span}
      (first : Derives .access ts target (⟨.symbol .dot, a⟩ :: ⟨.name name, span⟩ :: rest)) :
      Derives .access ts (.member target name span) rest
  | primary {ts rest : List Lexeme} {t : Tree} (inner : Derives .primary ts t rest) :
      Derives .access ts t rest
  | number {x : Float} {span : Span} {rest : List Lexeme} :
      Derives .primary (⟨.number x, span⟩ :: rest) (.number x) rest
  | text {s : String} {span : Span} {rest : List Lexeme} :
      Derives .primary (⟨.text s, span⟩ :: rest) (.text s) rest
  | name {spelling : String} {span : Span} {rest : List Lexeme} :
      Derives .primary (⟨.name spelling, span⟩ :: rest) (.name spelling span) rest
  | call {name : String} {start a stop : Span} {rest : List Lexeme} :
      Derives .primary
        (⟨.name name, start⟩ :: ⟨.symbol .leftParen, a⟩ :: ⟨.symbol .rightParen, stop⟩ :: rest)
        (.call name start stop) rest
  | callWith {name : String} {start a stop : Span} {ts rest : List Lexeme} {args : Tree}
      (inner : Derives .items ts args (⟨.symbol .rightParen, stop⟩ :: rest)) :
      Derives .primary (⟨.name name, start⟩ :: ⟨.symbol .leftParen, a⟩ :: ts)
        (.callWith name start args stop) rest
  | parens {a b : Span} {ts rest : List Lexeme} {items : Tree}
      (inner : Derives .items ts items (⟨.symbol .rightParen, b⟩ :: rest)) :
      Derives .primary (⟨.symbol .leftParen, a⟩ :: ts) (.parens items) rest
  | last {ts rest : List Lexeme} {t : Tree} (inner : Derives (.layer 1) ts t rest) :
      Derives .items ts (.last t) rest
  | more {ts mid rest : List Lexeme} {item items : Tree} {a : Span}
      (first : Derives (.layer 1) ts item (⟨.symbol .comma, a⟩ :: mid))
      (second : Derives .items mid items rest) : Derives .items ts (.more item items) rest

def Sentence (ts : List Lexeme) (t : Tree) : Prop := Derives (.layer 1) ts t []

theorem Derives.length_lt {c : Category} {ts rest : List Lexeme} {t : Tree}
    (derived : Derives c ts t rest) : rest.length < ts.length := by
  induction derived with
  | binary _ _ _ _ first second =>
      rw [List.length_append] at first
      omega
  | replace | power | member | more | sign | callWith | parens =>
      simp only [List.length_cons] at *
      omega
  | number | text | name | call =>
      simp only [List.length_cons]
      omega
  | _ => assumption

/-- The tokens that primaries begin with. -/
def opens : Token → Bool
  | .number _ | .text _ | .name _ | .symbol .leftParen => true
  | _ => false

/-- The tokens that sentences of a category begin with. -/
def Category.begins : Category → Token → Prop
  | .power, token | .access, token | .primary, token => opens token
  | _, token => opens token ∨ ∃ op, (token, op) ∈ prefixes

theorem Derives.begins {c : Category} {ts rest : List Lexeme} {t : Tree}
    (derived : Derives c ts t rest) :
    ∃ lexeme others, ts = lexeme :: others ∧ c.begins lexeme.token := by
  induction derived with
  | sign listed => exact ⟨_, _, rfl, .inr ⟨_, listed⟩⟩
  | unsigned _ ih =>
      obtain ⟨lexeme, others, rfl, first⟩ := ih
      exact ⟨lexeme, others, rfl, .inl first⟩
  | number | text | name | call | callWith | parens => exact ⟨_, _, rfl, rfl⟩
  | _ => assumption

end Emend.Formula.Grammar
