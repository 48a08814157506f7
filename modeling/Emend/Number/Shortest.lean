import Emend.Number.Binary

/-!
The shortest decimal that reads back as a given double. The numbers that round to a double form
an interval; the coarsest grid of powers of ten with a point in that interval gives the digits.
-/

set_option autoImplicit false

namespace Emend.Number

structure Decimal where
  digits : Nat
  exponent : Int
  deriving Repr, DecidableEq

/-- Which of two grid points equally near to the number is taken. -/
inductive Tie where
  | up
  | toEven
  deriving Repr, DecidableEq

/-- The fractions with the given denominator that round to one double. -/
structure Reach where
  low : Nat
  value : Nat
  high : Nat
  denominator : Nat
  closed : Bool

namespace Reach

/-- What rounds to `m * 2 ^ e`. Below a power of two the doubles lie twice as dense. -/
def ofDyadic (m : Nat) (e : Int) : Reach :=
  let scale := Nat.pow 2 (e - 2).toNat
  let below := if m = Nat.pow 2 52 then 1 else 2
  let denominator := Nat.pow 2 (2 - e).toNat
  ⟨(4 * m - below) * scale, 4 * m * scale, (4 * m + 2) * scale, denominator, m % 2 == 0⟩

def holds (r : Reach) (n : Nat) : Bool :=
  if r.closed then r.low ≤ n && n ≤ r.high else r.low < n && n < r.high

/-- The point of the grid `10 ^ k` that lies in the interval, nearest to the value. -/
def onGrid? (tie : Tie) (r : Reach) (k : Int) : Option Nat :=
  let grown := Nat.pow 10 (-k).toNat
  let r : Reach := ⟨r.low * grown, r.value * grown, r.high * grown, r.denominator, r.closed⟩
  let step := Nat.pow 10 k.toNat * r.denominator
  let below := r.value / step
  match r.holds (below * step), r.holds ((below + 1) * step) with
  | false, false => none
  | true, false => some below
  | false, true => some (below + 1)
  | true, true =>
    match compare (2 * (r.value - below * step)) step with
    | .lt => some below
    | .gt => some (below + 1)
    | .eq => if tie = .toEven ∧ below % 2 = 0 then some below else some (below + 1)

/-- The exponent of the value's first decimal digit. -/
def leading (r : Reach) : Int :=
  let count (n : Nat) : Int := (toString n).length
  let k := count r.value - count r.denominator
  if r.value * Nat.pow 10 (-k).toNat < r.denominator * Nat.pow 10 k.toNat then k - 1 else k

/-- The first hit on the grids `10 ^ k`, `10 ^ (k - 1)` and so on. -/
def firstHit (tie : Tie) (r : Reach) : Nat → Int → Decimal
  | 0, k => ⟨r.value * Nat.pow 10 (-k).toNat / (r.denominator * Nat.pow 10 k.toNat), k⟩
  | tries + 1, k =>
    match r.onGrid? tie k with
    | some digits => ⟨digits, k⟩
    | none => firstHit tie r tries (k - 1)

end Reach

/-- The same number without trailing zeros among the digits. -/
def Decimal.trimmed (d : Decimal) : Decimal :=
  let zeros := ((toString d.digits).toList.reverse.takeWhile (· == '0')).length
  if d.digits = 0 then d else ⟨d.digits / Nat.pow 10 zeros, d.exponent + zeros⟩

/-- The shortest decimal that rounds to `m * 2 ^ e`, where `m` is positive; seventeen digits
always suffice. -/
def shortest (tie : Tie) (m : Nat) (e : Int) : Decimal :=
  let r := Reach.ofDyadic m e
  (r.firstHit tie 17 r.leading).trimmed

end Emend.Number
