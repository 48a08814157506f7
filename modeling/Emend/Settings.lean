import Emend.Formula.Compile
import Emend.Json.Reader

/-!
Settings of a patch run.
-/

set_option autoImplicit false

namespace Emend

structure Settings where
  /-- The longest text that a repetition may produce. -/
  repeatLimit : Nat
  /-- Whether parsed formulas are shared by their text. -/
  cacheFormulas : Bool
  /-- The scalar that removes a variable or a list element. -/
  deleteWord : String
  /-- Whether a failure outside the instructions ends only the pass it occurs in. -/
  containFailures : Bool
  depthLimit : Nat
  /-- The longest that a fixed array may grow through an index. -/
  arrayLimit : Nat
  deriving Repr, DecidableEq

namespace Settings

def initial : Settings := ⟨2048, true, "delete()", true, 128, 65536⟩

def uncached : Settings := { initial with cacheFormulas := false }

def formulaOptions (s : Settings) : Formula.Options :=
  ⟨s.repeatLimit, s.cacheFormulas, s.depthLimit⟩

/-- Whether a scalar is the delete word, in any case and between blanks. -/
def isDelete (s : Settings) (text : String) : Bool := Text.sameName (Text.trim text) s.deleteWord

def size? : Json → Option Nat
  | .int i => if 0 ≤ i then some i.toNat else none
  | _ => none

def flag? : Json → Option Bool
  | .bool b => some b
  | _ => none

def word? : Json → Option String
  | .text s => some s
  | _ => none

def names : List String :=
  ["repeat_limit", "cache_formulas", "delete_sentinel", "catch_panics", "max_formula_depth",
    "max_array_length"]

def set? (s : Settings) (name : String) (value : Json) : Option Settings :=
  match name with
  | "repeat_limit" => (size? value).map fun n => { s with repeatLimit := n }
  | "cache_formulas" => (flag? value).map fun b => { s with cacheFormulas := b }
  | "delete_sentinel" => (word? value).map fun w => { s with deleteWord := w }
  | "catch_panics" => (flag? value).map fun b => { s with containFailures := b }
  | "max_formula_depth" => (size? value).map fun n => { s with depthLimit := n }
  | "max_array_length" => (size? value).map fun n => { s with arrayLimit := n }
  | _ => some s

def isDistinct (entries : List (String × Json)) : Bool :=
  names.all fun name => (entries.filter (·.1 == name)).length ≤ 1

/-- Settings from an object by name or from a list in order; what is not given stays initial. -/
def ofJson? : Json → Option Settings
  | .object entries =>
    if isDistinct entries then
      entries.foldlM (fun s entry => s.set? entry.1 entry.2) initial
    else none
  | .list values =>
    if values.length ≤ names.length then
      (names.zip values).foldlM (fun s entry => s.set? entry.1 entry.2) initial
    else none
  | _ => none

def parse? (s : String) : Option Settings := (Json.parseEntries? s).bind ofJson?

end Settings

end Emend
