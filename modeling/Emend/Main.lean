import Emend.CommandLine.Command

/-!
The program: reads the files that a command names, and prints what it answers.
-/

set_option autoImplicit false

namespace Emend.CommandLine

def fileError : IO.Error → FileError
  | .noFileOrDirectory .. => .missing
  | .inappropriateType .. => .directory
  | e => .other (toString e)

def load (path : String) : IO (String × Except FileError String) := do
  let bytes ← (IO.FS.readBinFile path).toBaseIO
  return (path, match bytes with
    | .error e => .error (fileError e)
    | .ok bytes =>
      match String.fromUTF8? bytes with
      | some text => .ok text
      | none => .error .notText)

end Emend.CommandLine

section
open Emend.CommandLine

def main (args : List String) : IO UInt32 := do
  let files ← match Command.ofArguments? args with
    | some command => command.paths.mapM load
    | none => pure []
  let answer := answer (fun path => (files.lookup path).getD (.error .missing)) args
  IO.print answer.output
  IO.eprint answer.errors
  return UInt32.ofNat answer.code

end
