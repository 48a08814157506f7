import Emend.Formula.Parser

/-!
Parsed formulas kept by their text. A tree is kept whatever limit it was read with; a text that
is no formula is read again each time.
-/

set_option autoImplicit false

namespace Emend.Formula

structure Cache where
  entries : List (String × Expr)
  hits : Nat
  misses : Nat

namespace Cache

def empty : Cache := ⟨[], 0, 0⟩

def find? (cache : Cache) (text : String) : Option Expr := cache.entries.lookup text

/-- The tree of the text, read with the given limit unless it is at hand. -/
def parse (cache : Cache) (text : String) (limit : Nat) : Except ParseError Expr × Cache :=
  match cache.find? text with
  | some expr => (.ok expr, ⟨cache.entries, cache.hits + 1, cache.misses⟩)
  | none =>
    match Formula.parse text limit with
    | .ok expr => (.ok expr, ⟨(text, expr) :: cache.entries, cache.hits, cache.misses + 1⟩)
    | .error failure => (.error failure, ⟨cache.entries, cache.hits, cache.misses + 1⟩)

def clear (cache : Cache) : Cache := ⟨[], cache.hits, cache.misses⟩

/-- The part of the requests that found their tree at hand, in percent. -/
def hitRate (cache : Cache) : Float :=
  if cache.hits + cache.misses = 0 then 0
  else Float.ofNat cache.hits / Float.ofNat (cache.hits + cache.misses) * 100

end Cache

end Emend.Formula
