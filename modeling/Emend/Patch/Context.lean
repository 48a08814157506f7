import Emend.Patch.Error
import Emend.Settings

/-!
Formulas inside a patch document: what they see besides the shared variables.
-/

set_option autoImplicit false

namespace Emend.Patch
open Emend.Formula (Scope FormulaError)

/-- The settings of a patch run and its shared variables at one moment. -/
structure Context where
  settings : Settings
  store : Store

abbrev Bindings := List (String × Value)

/-- The names of a formula that belongs to one record: the record itself, and the value that is
there so far. -/
def Bindings.ofRecord (r : Record) (value : Value) : Bindings :=
  [("item", .record r), ("def", .record r), ("value", value)]

namespace Context

def isDelete (c : Context) (text : String) : Bool := c.settings.isDelete text

/-- Bindings come before shared variables. -/
def scope (c : Context) (bindings : Bindings) : Scope := [.bindings bindings, .shared c.store]

def formula (c : Context) (bindings : Bindings) (text : String) : Except FormulaError Formula :=
  Formula.ofText c.settings.formulaOptions (c.scope bindings) text

def evaluate (c : Context) (bindings : Bindings) (text : String) (position : Position) :
    Except PatchError Value :=
  match (c.formula bindings text).bind (·.evaluate (c.scope bindings)) with
  | .ok v => .ok v
  | .error e => .error (.formula e text position)

def evaluateBool (c : Context) (bindings : Bindings) (text : String) (position : Position) :
    Except PatchError Bool :=
  match (c.formula bindings text).bind (·.evaluateBool (c.scope bindings)) with
  | .ok b => .ok b
  | .error e => .error (.formula e text position)

end Context

end Emend.Patch
