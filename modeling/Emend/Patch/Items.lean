import Emend.Patch.Storing

/-!
Lists whose elements are patched through the keys of a mapping: an index, a formula in parentheses
that picks elements, or the word for new elements at the end.
-/

set_option autoImplicit false

namespace Emend.Patch

def additionKey : String := "$add"

inductive ItemKey where
  | addition
  /-- A formula, with its parentheses. -/
  | choice (formula : String)
  | index (i : Nat)

/-- Digits after at most one plus sign, within the range of positions. -/
def readIndex? (s : String) : Option Nat :=
  let digits := match s.toList with
    | '+' :: rest => rest
    | cs => cs
  (Number.readNat? digits).filter (· < Nat.pow 2 64)

/-- An index may have a dollar sign in front. -/
def ItemKey.parse? (key : String) : Option ItemKey :=
  let trimmed := Text.trim key
  if Text.sameName key additionKey then some addition
  else if trimmed.startsWith "(" && trimmed.endsWith ")" then some (choice trimmed)
  else
    let digits := if key.startsWith "$" then (key.drop 1).toString else key
    (readIndex? (Text.trim digits)).map index

def freshElement (element : Descriptor) : Datum :=
  match element with
  | .record .. => .ofRecord element.newFilledRecord
  | element => element.filled

section
variable (c : Context) (element : Descriptor) (fixed : Bool) (name : String)

/-- Fresh elements up to a position. A list has no gaps; a fixed array may be filled up within the
limit for arrays. -/
def fillTo (items : List Datum) (index : Nat) (position : Position) :
    Except PatchError (List Datum) :=
  if index ≤ items.length then .ok items
  else if !fixed then
    .error (.structural ("index " ++ toString index ++ " is past the end of " ++ quoted name ++
      " (length " ++ toString items.length ++ ")") position)
  else if c.settings.arrayLimit ≤ index then
    .error (.structural ("index " ++ toString index ++ " would grow " ++ quoted name ++ " past " ++
      toString c.settings.arrayLimit ++ " elements") position)
  else .ok (items ++ List.replicate (index - items.length) (freshElement element))

/-- The elements on which a formula is true, with the list as a whole in its scope. -/
def chosen (items : List Datum) (formula : String) (position : Position) :
    Except PatchError (List Bool) :=
  let all := Value.tuple (items.map Value.ofDatum)
  items.zipIdx.mapM fun (item, index) =>
    c.evaluateBool [("item", .ofDatum item), ("value", .count index), ("collection", all)]
      formula position

def patchChosen (patch : Datum → Except PatchError Datum) :
    List Bool → List Datum → Except PatchError (List Datum)
  | true :: flags, item :: rest => do .ok ((← patch item) :: (← patchChosen patch flags rest))
  | false :: flags, item :: rest => do .ok (item :: (← patchChosen patch flags rest))
  | _, items => .ok items

/-- Patches one position of a list, which may be the one after its last element. -/
def patchAt (patch : Datum → Except PatchError Datum) (items : List Datum) (index : Nat)
    (position : Position) : Except PatchError (List Datum) := do
  let items ← fillTo c element fixed name items index position
  match items[index]? with
  | some item => .ok (items.set index (← patch item))
  | none => .ok (items ++ [← patch (freshElement element)])

/-- One entry of a mapping that patches a list. New elements, patched already, come from
`added`. -/
def patchItem (patch : Datum → Except PatchError Datum)
    (added : Unit → Except PatchError (List Datum)) (items : List Datum) (key : String)
    (position : Position) : Except PatchError (List Datum) :=
  match ItemKey.parse? key with
  | some .addition => (added ()).map (items ++ ·)
  | some (.choice formula) => do
    let flags ← chosen c items formula position
    patchChosen patch flags items
  | some (.index index) => patchAt c element fixed name patch items index position
  | none =>
    .error (.structural (quoted key ++ " is not an index, predicate or " ++ additionKey ++
      " in list " ++ quoted name) position)

end

end Emend.Patch
