import Emend.Number.Shortest

/-!
The written form of a double: its shortest decimal, set out in full or with an exponent.
-/

set_option autoImplicit false

namespace Emend.Number

structure Layout where
  tie : Tie
  /-- The exponents of the first digit that are written without an exponent, from `least` up to
  and without `greatest`; none stands for all. -/
  positional : Option (Int × Int)
  /-- What follows an integral number in positional form. -/
  integralEnd : String
  nan : String
  infinity : String

/-- Formula text: every digit is written out and integral numbers have no point. -/
def Layout.plain : Layout := ⟨.up, none, "", "NaN", "inf"⟩

/-- Stored documents: integral numbers keep `.0`, large and small ones have an exponent. What is
no number has no form and is written as the empty value. -/
def Layout.stored : Layout := ⟨.toEven, some (-5, 16), ".0", "null", "null"⟩

/-- Places the point before position `point` of the digits. -/
def placePoint (digits : List Char) (point : Int) (integralEnd : String) : String :=
  if point ≤ 0 then
    "0." ++ String.ofList (List.replicate (-point).toNat '0' ++ digits)
  else if digits.length ≤ point.toNat then
    String.ofList (digits ++ List.replicate (point.toNat - digits.length) '0') ++ integralEnd
  else
    String.ofList (digits.take point.toNat) ++ "." ++ String.ofList (digits.drop point.toNat)

private def withExponent (digits : List Char) (exponent : Int) : String :=
  let mantissa := match digits with
    | first :: second :: rest => String.ofList (first :: '.' :: second :: rest)
    | short => String.ofList short
  mantissa ++ "e" ++ (if exponent < 0 then "-" else "+") ++ toString exponent.natAbs

def Decimal.write (layout : Layout) (d : Decimal) : String :=
  let digits := (toString d.digits).toList
  let leading := d.exponent + (digits.length : Int) - 1
  match layout.positional with
  | some (least, greatest) =>
    if least ≤ leading ∧ leading < greatest then
      placePoint digits (leading + 1) layout.integralEnd
    else withExponent digits leading
  | none => placePoint digits (leading + 1) layout.integralEnd

def write (layout : Layout) (x : Float) : String :=
  let signed (sign : Float.Model.UnpackedFloat.Sign) (text : String) : String :=
    match sign with
    | .negative => "-" ++ text
    | .positive => text
  match unpack x with
  | .notANumber => layout.nan
  | .infinity .positive => layout.infinity
  | .infinity .negative =>
    if layout.infinity == layout.nan then layout.nan else "-" ++ layout.infinity
  | .zero sign => signed sign ("0" ++ layout.integralEnd)
  | .finite sign m e _ => signed sign ((shortest layout.tie m e).write layout)

def toText (x : Float) : String := write .plain x

end Emend.Number
