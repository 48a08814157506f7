import Emend.Formula.Code

/-!
Compiled patterns kept by their text. A text that is no pattern is read again each time, and nothing is
ever forgotten.
-/

set_option autoImplicit false

namespace Emend.Formula

structure PatternCache where
  entries : List (String × Pattern.Regex)

namespace PatternCache

def empty : PatternCache := ⟨[]⟩

def find? (cache : PatternCache) (text : String) : Option Pattern.Regex := cache.entries.lookup text

/-- The pattern with the text, compiled unless it is at hand. -/
def get (cache : PatternCache) (text : String) : Except FormulaError Pattern.Regex × PatternCache :=
  match cache.find? text with
  | some regex => (.ok regex, cache)
  | none =>
    match patternOf text with
    | .ok regex => (.ok regex, ⟨(text, regex) :: cache.entries⟩)
    | .error e => (.error e, cache)

def size (cache : PatternCache) : Nat := cache.entries.length

def isEmpty (cache : PatternCache) : Bool := cache.entries.isEmpty

end PatternCache

end Emend.Formula
