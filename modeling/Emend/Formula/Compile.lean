import Emend.Formula.Builtin
import Emend.Formula.Cache
import Emend.Formula.Code

/-!
Formulas compiled against a scope. Unknown names, unknown functions, wrong counts of arguments
and malformed literal patterns, ranges and versions fail here. Compilation also tells what kind
of value a formula always has, and leaves out conversions to a kind that is known.
-/

set_option autoImplicit false

namespace Emend

namespace Formula
open Emend.Text (Span)

/-- The kind of every value a formula can have. -/
inductive Kind where
  | number | text | boolean | version | tuple
  /-- Not known before evaluation. -/
  | dynamic
  deriving Repr, DecidableEq

def Kind.ofValue : Value → Kind
  | .number _ => number
  | .text _ => text
  | .boolean _ => boolean
  | .version _ => version
  | .tuple _ => tuple
  | .null | .record _ => dynamic

def Kind.typeName? : Kind → Option String
  | number => some "number"
  | text => some "text"
  | boolean => some "boolean"
  | version => some "Version"
  | tuple | dynamic => none

structure Options where
  /-- The longest text that a repetition may produce. -/
  repeatLimit : Nat
  shareTrees : Bool
  depthLimit : Nat
  deriving Repr, DecidableEq

def Options.initial : Options := ⟨2048, true, defaultDepth⟩

structure Compiled where
  kind : Kind
  code : Code

namespace Compiled

def constant (v : Value) : Compiled := ⟨.ofValue v, .constant v⟩

def unary (op : UnaryOp) (x : Compiled) : Compiled :=
  match op with
  | .negate => ⟨.number, .map Float.neg x.code⟩
  | .plus => if x.kind = .number then x else ⟨.number, .map id x.code⟩
  | .not => ⟨.boolean, .not x.code⟩

/-- If one side is always a number, both are compared as numbers. -/
def comparison (test : OrderTest) (x y : Compiled) : Compiled :=
  if x.kind = .number ∨ y.kind = .number then ⟨.boolean, .compareNumbers test x.code y.code⟩
  else ⟨.boolean, .compareValues test x.code y.code⟩

def binary (options : Options) (op : BinaryOp) (x y : Compiled) : Compiled :=
  match op with
  | .add => ⟨.number, .combine (· + ·) x.code y.code⟩
  | .subtract => ⟨.number, .combine (· - ·) x.code y.code⟩
  | .multiply => ⟨.number, .combine (· * ·) x.code y.code⟩
  | .divide => ⟨.number, .combine (· / ·) x.code y.code⟩
  | .modulo => ⟨.number, .combine Number.remainder x.code y.code⟩
  | .power => ⟨.number, .combine Float.pow x.code y.code⟩
  | .less => comparison .less x y
  | .lessEqual => comparison .lessEqual x y
  | .greater => comparison .greater x y
  | .greaterEqual => comparison .greaterEqual x y
  | .equals => ⟨.boolean, .equals x.code y.code⟩
  | .and => ⟨.boolean, .and x.code y.code⟩
  | .or => ⟨.boolean, .or x.code y.code⟩
  | .concat => ⟨.text, .concat x.code y.code⟩
  | .repeated => ⟨.text, .repeated options.repeatLimit x.code y.code⟩
  | .contains => ⟨.boolean, .contains x.code y.code⟩
  | .startsWith => ⟨.boolean, .startsWith x.code y.code⟩
  | .endsWith => ⟨.boolean, .endsWith x.code y.code⟩
  | .fitsPattern => ⟨.boolean, .fitsPattern x.code y.code⟩
  | .inVersions => ⟨.boolean, .inVersions x.code y.code⟩

/-- A call with arguments whose number the function accepts. -/
def call (builtin : Builtin) (args : List Compiled) : Option Compiled :=
  match builtin, args with
  | .number, [x] => some (if x.kind = .number then x else ⟨.number, .map id x.code⟩)
  | .text, [x] => some (if x.kind = .text then x else ⟨.text, .asText x.code⟩)
  | .boolean, [x] => some (if x.kind = .boolean then x else ⟨.boolean, .asBoolean x.code⟩)
  | .version, [x] => some (if x.kind = .version then x else ⟨.version, .asVersion x.code⟩)
  | .typeName, [x] =>
    match x.kind.typeName? with
    | some name => some (constant (.text name))
    | none => some ⟨.text, .typeName x.code⟩
  | .element, [target, index] => some ⟨.dynamic, .element target.code index.code⟩
  | .round, [x, digits] =>
    some ⟨.number, .combine (fun digits x => roundTo x digits) digits.code x.code⟩
  | builtin, args =>
    match builtin.ofOne?, builtin.ofTwo?, builtin.ofMany?, builtin.test?, args with
    | some f, _, _, _, [x] => some ⟨.number, .map f x.code⟩
    | _, some f, _, _, [x, y] => some ⟨.number, .combine f x.code y.code⟩
    | _, _, some f, _, x :: others => some ⟨.number, .fold f x.code (others.map (·.code))⟩
    | _, _, _, some p, [x] => some ⟨.boolean, .test p x.code⟩
    | _, _, _, _, _ => none

end Compiled

def Literal.value : Literal → Value
  | number x => .number x
  | text s => .text s
  | boolean b => .boolean b

/-- The text of a literal text. -/
def Expr.literalText? : Expr → Option String
  | literal (.text s) => some s
  | _ => none

namespace Scope

/-- The value of a path, as far as the scope knows it. -/
def symbol (scope : Scope) (path : List String) (span : Span) : Except FormulaError Compiled :=
  match scope.resolve? path with
  | some found => .ok ⟨.dynamic, .lookup found.provider found.name found.members span⟩
  | none => .error (.unresolved (".".intercalate path) span)

def function (name : String) (span : Span) (count : Nat) : Except FormulaError Signature :=
  match Signature.find? name with
  | none =>
    if count = 0 then .error (.unresolved name span) else .error (.unknownFunction name span)
  | some signature =>
    if signature.accepts count then .ok signature
    else .error (.wrongArity signature.name signature.arity count)

end Scope

section
variable (options : Options) (scope : Scope)

/-- The second operand of an operator that reads it as a pattern or a range: if it is a literal
text, it is checked before evaluation. -/
def literalOperand (op : BinaryOp) (s : String) : Option (Except FormulaError Compiled) :=
  match op with
  | .fitsPattern => some ((patternOf s).map fun _ => .constant (.text s))
  | .inVersions => some ((rangeOf s).map fun _ => .constant (.text s))
  | _ => none

/-- The second operand of an operator: a checked literal, or else what it was compiled to. -/
def checkedOperand (op : BinaryOp) (expr : Expr) (compiled : Except FormulaError Compiled) :
    Except FormulaError Compiled :=
  (expr.literalText?.bind (literalOperand op)).getD compiled

mutual

/-- Compiles a tree that may have `allowance` levels. -/
def compile (allowance : Nat) (expr : Expr) : Except FormulaError Compiled :=
  match allowance with
  | 0 => .error (.tooDeep options.depthLimit)
  | allowance + 1 =>
    match expr with
    | .literal l => .ok (.constant l.value)
    | .symbol head tail span => scope.symbol (head :: tail) span
    | .member target name => do .ok ⟨.dynamic, .member (← compile allowance target).code name⟩
    | .unary op x => do .ok (.unary op (← compile allowance x))
    | .binary op x y => do
      let x ← compile allowance x
      let y ← checkedOperand op y (compile allowance y)
      .ok (.binary options op x y)
    | .replace input pattern substitute => do
      let input ← compile allowance input
      let pattern ← checkedOperand .fitsPattern pattern (compile allowance pattern)
      let substitute ← compile allowance substitute
      .ok ⟨.text, .replace input.code pattern.code substitute.code⟩
    | .tuple items => do
      let items ← compileAll allowance items
      .ok ⟨.tuple, .tuple (items.map (·.code))⟩
    | .call name [] span =>
      match scope.resolve? [name] with
      | some _ => scope.symbol [name] span
      | none => do
        let signature ← Scope.function name span 0
        .error (.wrongArity signature.name signature.arity 0)
    | .call name (first :: others) span => do
      let signature ← Scope.function name span (others.length + 1)
      match signature.builtin, first.literalText? with
      | .version, some s => .ok (.constant (.version (← versionOf (.text s))))
      | builtin, _ =>
        let first ← compile allowance first
        let others ← compileAll allowance others
        match Compiled.call builtin (first :: others) with
        | some compiled => .ok compiled
        | none => .error (.wrongArity signature.name signature.arity (others.length + 1))

def compileAll (allowance : Nat) (exprs : List Expr) : Except FormulaError (List Compiled) :=
  match exprs with
  | [] => .ok []
  | expr :: rest => do
    let first ← compile allowance expr
    let others ← compileAll allowance rest
    .ok (first :: others)

end

end

end Formula

structure Formula where
  source : String
  kind : Formula.Kind
  code : Formula.Code

namespace Formula

def evaluate (f : Formula) (scope : Scope) : Except FormulaError Value := f.code.eval scope

def evaluateBool (f : Formula) (scope : Scope) : Except FormulaError Bool := do
  booleanOf (← f.evaluate scope)

def ofExpr (options : Options) (scope : Scope) (source : String) (expr : Expr) :
    Except FormulaError Formula := do
  let compiled ← compile options scope options.depthLimit expr
  .ok ⟨source, compiled.kind, compiled.code⟩

def ofParsed (options : Options) (scope : Scope) (text : String) :
    Except ParseError Expr → Except FormulaError Formula
  | .ok expr => ofExpr options scope text expr
  | .error (.tooDeep limit _) => .error (.tooDeep limit)
  | .error e => .error (.malformed e)

def ofText (options : Options) (scope : Scope) (text : String) : Except FormulaError Formula :=
  ofParsed options scope text (parse text options.depthLimit)

/-- Compiles formula text, with trees from the cache if the options share them. -/
def ofTextCached (cache : Cache) (options : Options) (scope : Scope) (text : String) :
    Except FormulaError Formula × Cache :=
  if options.shareTrees then
    let (parsed, cache) := cache.parse text options.depthLimit
    (ofParsed options scope text parsed, cache)
  else (ofText options scope text, cache)

end Formula

end Emend
