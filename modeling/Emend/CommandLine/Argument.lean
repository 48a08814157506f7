import Emend.Text.Split

/-!
Arguments of a command: options with and without a value, and plain arguments between them.
-/

set_option autoImplicit false

namespace Emend.CommandLine

structure OptionName where
  long : String
  short : Option Char
  takesValue : Bool

inductive Argument where
  | plain (text : String)
  | option (name value : String)
  | flag (name : String)

namespace Argument

/-- Whether an argument cannot be the value of the option before it. -/
def isOption (s : String) : Bool := s.startsWith "-" && s != "-"

/-- Arguments in their order. The value of an option follows it, or stands after `=`; after a
short name it may also follow at once. All after `--` is plain. -/
def parse? (options : List OptionName) : List String → Option (List Argument)
  | [] => some []
  | arg :: rest =>
    let next (name : String) : Option (List Argument) :=
      match rest with
      | value :: rest =>
        if isOption value then none else (parse? options rest).map (option name value :: ·)
      | [] => none
    match arg.toList with
    | ['-', '-'] => some (rest.map plain)
    | '-' :: '-' :: long =>
      let (name, value) := match Text.cut? '=' long with
        | some (name, value) => (String.ofList name, some (String.ofList value))
        | none => (String.ofList long, none)
      match options.find? (·.long == name), value with
      | none, _ => none
      | some o, some value =>
        if o.takesValue then (parse? options rest).map (option name value :: ·) else none
      | some o, none =>
        if o.takesValue then next name else (parse? options rest).map (flag name :: ·)
    | '-' :: short :: more =>
      match options.find? (·.short == some short), more with
      | none, _ => none
      | some o, [] => if o.takesValue then next o.long else (parse? options rest).map (flag o.long :: ·)
      | some o, '=' :: value | some o, value =>
        if o.takesValue then (parse? options rest).map (option o.long (String.ofList value) :: ·)
        else none
    | _ => (parse? options rest).map (plain arg :: ·)

end Argument

abbrev Arguments := List Argument

namespace Arguments

def plain (args : Arguments) : List String :=
  args.filterMap fun
    | .plain text => some text
    | _ => none

def values (args : Arguments) (name : String) : List String :=
  args.filterMap fun
    | .option given value => if given = name then some value else none
    | _ => none

def value? (args : Arguments) (name : String) : Option (Option String) :=
  match args.values name with
  | [] => some none
  | [value] => some (some value)
  | _ => none

def flag? (args : Arguments) (name : String) : Option Bool :=
  let given := args.filter fun
    | .flag given => given == name
    | _ => false
  if given.length ≤ 1 then some (given.length == 1) else none

end Arguments

end Emend.CommandLine
