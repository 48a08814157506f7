import Emend.CommandLine.Argument
import Emend.Patch.Patcher
import Emend.Registry.Definitions

/-!
The commands: evaluate a formula, parse one, or apply a patch document to definitions. Each answers
with what it writes, from the content of the files that it names.
-/

set_option autoImplicit false

namespace Emend.CommandLine
open Emend.Formula (FormulaError Expr)
open Emend.Patch (Patcher Diagnostic DocumentReport quoted)

structure Answer where
  code : Nat
  output : String
  errors : String
  deriving Repr, DecidableEq

inductive FileError where
  | missing
  | directory
  | notText
  | other (reason : String)
  deriving Repr, DecidableEq

def FileError.message : FileError → String
  | missing => "No such file or directory (os error 2)"
  | directory => "Is a directory (os error 21)"
  | notText => "stream did not contain valid UTF-8"
  | other reason => reason

abbrev Files := String → Except FileError String

structure ApplyOptions where
  definitions : String
  patch : String
  settings : Option String
  /-- The types that get an identity index. -/
  indexed : List String
  indented : Bool
  /-- Whether a skipped instruction makes the command fail. -/
  strict : Bool

inductive Command where
  /-- A formula, after variables given as `NAME=FORMULA`. -/
  | eval (formula : String) (definitions : List String)
  | parse (formula : String)
  | apply (options : ApplyOptions)

namespace Command

def evalOptions : List OptionName := [⟨"var", some 'v', true⟩]

def applyOptions : List OptionName :=
  [⟨"defs", some 'd', true⟩, ⟨"patch", some 'p', true⟩, ⟨"config", some 'c', true⟩,
    ⟨"indexed", some 'i', true⟩, ⟨"pretty", none, false⟩, ⟨"strict", none, false⟩]

def ofArguments? : List String → Option Command
  | "eval" :: rest => do
    let args : Arguments ← Argument.parse? evalOptions rest
    match args.plain with
    | [formula] => some (eval formula (args.values "var"))
    | _ => none
  | "parse" :: rest => do
    let args : Arguments ← Argument.parse? [] rest
    match args.plain with
    | [formula] => some (parse formula)
    | _ => none
  | "apply" :: rest => do
    let args : Arguments ← Argument.parse? applyOptions rest
    if args.plain.isEmpty then
      some (apply ⟨← (← args.value? "defs"), ← (← args.value? "patch"), ← args.value? "config",
        args.values "indexed", ← args.flag? "pretty", ← args.flag? "strict"⟩)
    else none
  | _ => none

def paths : Command → List String
  | apply options => options.settings.toList ++ [options.definitions, options.patch]
  | _ => []

end Command

def usage : String :=
  "usage: emend eval FORMULA [-v NAME=FORMULA]...\n" ++
  "       emend parse FORMULA\n" ++
  "       emend apply -d FILE -p FILE [-c FILE] [-i TYPE]... [--pretty] [--strict]\n"

def within (task : String) {α : Type} : Except String α → Except String α
  | .ok a => .ok a
  | .error message => .error (task ++ ": " ++ message)

/-- The message of a formula error, and after it that of the error behind it. -/
def formulaMessage (e : FormulaError) : String :=
  match e with
  | .malformed cause => e.message ++ ": " ++ cause.message
  | .coercion cause => e.message ++ ": " ++ cause.message
  | .version cause => e.message ++ ": " ++ cause.message
  | e => e.message

def loadMessage (e : LoadError) : String :=
  match e with
  | .collection _ cause => e.message ++ ": " ++ cause.message
  | e => e.message

def evaluate (s : Store) (text : String) : Except FormulaError Value := do
  let scope : Formula.Scope := [.bindings [], .shared s]
  (← Formula.ofText .initial scope text).evaluate scope

/-- Sets a variable to the value of its formula, or to the text if that is no formula. -/
def setVariable (s : Store) (definition : String) : Except String Store :=
  match Text.cut? '=' definition.toList with
  | none => .error ("variable " ++ quoted definition ++ " must look like NAME=FORMULA")
  | some (name, text) =>
    let text := String.ofList text
    let value := match evaluate s text with
      | .ok value => value
      | .error _ => .text text
    .ok (s.insert (Text.trim (String.ofList name)) value)

def evalText (formula : String) (definitions : List String) : Except String String := do
  let store ← definitions.foldlM setVariable .empty
  match evaluate store formula with
  | .ok value => .ok value.toText
  | .error e => .error ("evaluating " ++ quoted formula ++ ": " ++ formulaMessage e)

mutual

/-- The nodes of a tree, one a line, each level indented by two. -/
def outline (margin : String) : Expr → List String
  | .literal (.number x) => [margin ++ Value.numberText x]
  | .literal (.text s) => [margin ++ Json.quote s]
  | .literal (.boolean b) => [margin ++ toString b]
  | .symbol head tail _ => [margin ++ ".".intercalate (head :: tail)]
  | .member target name => (margin ++ "." ++ name) :: outline (margin ++ "  ") target
  | .unary op x => (margin ++ op.spelling) :: outline (margin ++ "  ") x
  | .binary op x y =>
    (margin ++ op.spelling) :: (outline (margin ++ "  ") x ++ outline (margin ++ "  ") y)
  | .replace x y z =>
    (margin ++ "replace") :: (outline (margin ++ "  ") x ++ outline (margin ++ "  ") y ++
      outline (margin ++ "  ") z)
  | .call name args _ => (margin ++ name ++ "()") :: outlineAll (margin ++ "  ") args
  | .tuple items => (margin ++ "()") :: outlineAll (margin ++ "  ") items

def outlineAll (margin : String) : List Expr → List String
  | [] => []
  | x :: rest => outline margin x ++ outlineAll margin rest

end

def parseText (formula : String) : Except String String :=
  match Formula.parse formula Formula.defaultDepth with
  | .ok expr => .ok ("\n".intercalate (outline "" expr))
  | .error e => .error ("parsing " ++ quoted formula ++ ": " ++ e.message)

section
variable (files : Files)

def readFile (path : String) : Except String String :=
  match files path with
  | .ok text => .ok text
  | .error e => .error ("reading " ++ quoted path ++ ": " ++ e.message)

def readJson (path : String) : Except String Json := do
  match Json.parse? (← readFile files path) with
  | some json => .ok json
  | none => .error ("parsing JSON in " ++ quoted path ++ ": malformed JSON")

def readSettings : Option String → Except String Settings
  | none => .ok .initial
  | some path => do
    match Settings.parse? (← readFile files path) with
    | some settings => .ok settings
    | none => .error ("parsing config " ++ quoted path ++ ": malformed settings")

end

def diagnosticLines (diagnostics : List Diagnostic) : List String :=
  (diagnostics.filter (·.isProblem)).map (·.toText)

def failureLines (report : DocumentReport) : List String :=
  report.failures.map fun (typeName, e) => "Pass for " ++ typeName ++ " aborted: " ++ e.message

def summary (report : DocumentReport) : String :=
  toString report.applied ++ " applied, " ++ toString report.skipped ++ " skipped" ++
    if report.aborted then ", document aborted by test" else ""

def unlines (lines : List String) : String := String.join (lines.map (· ++ "\n"))

def errorLine (message : String) : String := "Error: " ++ message

def applied (options : ApplyOptions) (done : Patch.Patched DocumentReport) : Answer :=
  let report := done.report
  let told := diagnosticLines done.diagnostics ++ failureLines report
  match report.error with
  | some e => ⟨1, "", unlines (told ++ [errorLine e.message])⟩
  | none =>
    let told := told ++ [summary report]
    let json := done.patcher.registry.toJson
    let output := unlines [if options.indented then json.writeIndented 0 else json.write]
    if options.strict && (report.skipped != 0 || !report.failures.isEmpty) then
      let failure := toString report.skipped ++ " instructions were skipped"
      ⟨1, output, unlines (told ++ [errorLine failure])⟩
    else ⟨0, output, unlines told⟩

def applyFiles (files : Files) (options : ApplyOptions) : Except String Answer := do
  let settings ← readSettings files options.settings
  let definitions ← readJson files options.definitions
  match Definitions.load definitions options.indexed with
  | .error e => .error (loadMessage e)
  | .ok registry =>
    let document := Node.ofJson (← readJson files options.patch)
    let patcher : Patcher := ⟨registry, .empty, settings⟩
    .ok (applied options (patcher.applyDocument .faithful document))

/-- A failed command prints its error and has exit code one. -/
def settle : Except String Answer → Answer
  | .ok answer => answer
  | .error message => ⟨1, "", unlines [errorLine message]⟩

def printed (text : String) : Answer := ⟨0, unlines [text], ""⟩

def Command.answer (files : Files) : Command → Answer
  | eval formula definitions => settle ((evalText formula definitions).map printed)
  | parse formula => settle ((parseText formula).map printed)
  | apply options => settle (applyFiles files options)

def answer (files : Files) (args : List String) : Answer :=
  match Command.ofArguments? args with
  | some command => command.answer files
  | none => ⟨2, "", usage⟩

end Emend.CommandLine
