import Emend.Coercion

/-!
Equality and order of values. The kind of either operand decides how both are taken: as numbers,
as versions, as truth values, or as text.
-/

set_option autoImplicit false

namespace Emend.Value

def compareNumbers (x y : Float) : Option Ordering :=
  if x < y then some .lt else if y < x then some .gt else if x == y then some .eq else none

def holds {α : Type} (p : α → Bool) : Except CoercionError α → Bool
  | .ok a => p a
  | .error _ => false

mutual

/-- Equality of values. Nothing equals only nothing, and tuples are compared item by item. -/
def same : Value → Value → Bool
  | null, null => true
  | null, _ => false
  | _, null => false
  | number x, v => holds (x == ·) v.toNumber
  | v, number x => holds (x == ·) v.toNumber
  | version a, v => holds a.same v.toVersion
  | v, version a => holds a.same v.toVersion
  | boolean a, v => holds (a == ·) v.toBoolean
  | v, boolean a => holds (a == ·) v.toBoolean
  | tuple as, tuple bs => sameItems as bs
  | record a, record b => Datum.same (.ofRecord a) (.ofRecord b)
  | a, b => a.toText == b.toText

def sameItems : List Value → List Value → Bool
  | [], [] => true
  | a :: as, b :: bs => same a b && sameItems as bs
  | _, _ => false

end

def compareAsNumbers (a b : Value) : Except CoercionError (Option Ordering) := do
  let x ← a.toNumber
  let y ← b.toNumber
  .ok (compareNumbers x y)

def compareAsVersions (a b : Value) : Except CoercionError (Option Ordering) := do
  let v ← a.toVersion
  let w ← b.toVersion
  .ok (some (v.cmp w))

/-- The order of two values: as numbers if either is a number, as versions if either is a
version, else as text. Two numbers may have no order. -/
def compare? (a b : Value) : Except CoercionError (Option Ordering) :=
  match a, b with
  | number _, _ | _, number _ => compareAsNumbers a b
  | version _, _ | _, version _ => compareAsVersions a b
  | a, b => .ok (some (compare a.toText b.toText))

end Emend.Value
