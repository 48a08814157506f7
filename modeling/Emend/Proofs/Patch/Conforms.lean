import Emend.Coercion
import Emend.Proofs.Formula.Provenance

/-!
Data that conform to a declared type, and trees of types whose records are told apart by their
names.
-/

set_option autoImplicit false

namespace Emend

/-- The integers that a field of the width is declared for. -/
def ScalarKind.Admits (bits : Nat) (signed : Bool) (i : Int) : Prop :=
  match bits, signed with
  | 8, true => -128 ≤ i ∧ i ≤ 127
  | 8, false => 0 ≤ i ∧ i ≤ 255
  | 16, true => -32768 ≤ i ∧ i ≤ 32767
  | 16, false => 0 ≤ i ∧ i ≤ 65535
  | 32, true => -2147483648 ≤ i ∧ i ≤ 2147483647
  | 32, false => 0 ≤ i ∧ i ≤ 4294967295
  | 64, true => Datum.leastInt ≤ i ∧ i ≤ Datum.greatestInt
  | 64, false => 0 ≤ i ∧ i ≤ Datum.greatestInt
  | _, _ => True

/-- The datum is of the declared type, with all parts that the type declares. -/
inductive Datum.Conforms : Descriptor → Datum → Prop
  | bool (b : Bool) : Conforms (.scalar .bool) (.bool b)
  | integer {bits : Nat} {signed : Bool} {i : Int} (admitted : ScalarKind.Admits bits signed i) :
      Conforms (.scalar (.integer bits signed)) (.int i)
  | single (x : Float) : Conforms (.scalar .single) (.float x)
  | double (x : Float) : Conforms (.scalar .double) (.float x)
  | text (s : String) : Conforms (.scalar .text) (.text s)
  | noText : Conforms (.scalar .text) .null
  | char (x : Datum) : Conforms (.scalar .char) x
  | decimal (x : Datum) : Conforms (.scalar .decimal) x
  | dateTime (x : Datum) : Conforms (.scalar .dateTime) x
  | variant {name variant : String} {variants : List String} (declared : variant ∈ variants) :
      Conforms (.enumeration name variants) (.variant variant)
  | noVariant {name : String} : Conforms (.enumeration name []) .null
  | list {element : Descriptor} {fixed : Bool} {items : List Datum}
      (each : ∀ x ∈ items, Conforms element x) : Conforms (.list element fixed) (.list items)
  | noList {element : Descriptor} {fixed : Bool} : Conforms (.list element fixed) .null
  | record {name : String} {fields : List (String × Descriptor)} {identity : Option String}
      {byValue : Bool} {entries : List (String × Datum)}
      (each : ∀ field type x, Fields.find? field fields = some type →
        Fields.find? field entries = some x → Conforms type x) :
      Conforms (.record name fields identity byValue) (.record name entries)
  | noRecord {name : String} {fields : List (String × Descriptor)} {identity : Option String} :
      Conforms (.record name fields identity false) .null

/-- Every declared field that the record has holds data of its type. -/
def Record.Conforms (type : Descriptor) (r : Record) : Prop :=
  ∀ field fieldType x, Fields.find? field type.fields = some fieldType →
    r.get? field = some x → x.Conforms fieldType

theorem Record.conforms_of_mem {type : Descriptor} {r : Record}
    (each : ∀ declared ∈ type.fields, ∀ x, r.get? declared.1 = some x → x.Conforms declared.2) :
    r.Conforms type :=
  fun _ _ x declared found => each _ (Fields.mem_of_find? declared) x found

namespace Descriptor

def isRecord : Descriptor → Bool
  | record .. => true
  | _ => false

/-- The type itself, or one that its fields and elements are made of. -/
inductive Part (inner : Descriptor) : Descriptor → Prop
  | self : Part inner inner
  | field {name fieldName : String} {fields : List (String × Descriptor)}
      {identity : Option String} {byValue : Bool} {type : Descriptor}
      (member : (fieldName, type) ∈ fields) (part : Part inner type) :
      Part inner (record name fields identity byValue)
  | element {type : Descriptor} {fixed : Bool} (part : Part inner type) :
      Part inner (list type fixed)

theorem Part.trans {a b c : Descriptor} (first : a.Part b) (second : b.Part c) : a.Part c := by
  induction second with
  | self => exact first
  | field member _ ih => exact .field member ih
  | element _ ih => exact .element ih

/-- Record types of one name are one type. -/
def Coherent (root : Descriptor) : Prop :=
  ∀ a b : Descriptor, a.Part root → b.Part root → a.isRecord → b.isRecord → a.name = b.name →
    a = b

theorem mem_fields_part {type inner : Descriptor} {name : String}
    (member : (name, inner) ∈ type.fields) : inner.Part type := by
  cases type with
  | record => exact .field member .self
  | _ => cases member

theorem find?_of_field? {type fieldType : Descriptor} {key name : String}
    (found : type.field? key = some (name, fieldType)) :
    Fields.find? name type.fields = some fieldType := by
  unfold field? at found
  split at found
  · rename_i exact
    cases found
    exact exact
  · -- An earlier field of the same name would have been found by the key as well.
    generalize type.fields = fields at found
    induction fields with
    | nil => cases found
    | cons field rest ih =>
        rw [List.find?_cons] at found
        rw [Fields.find?_cons]
        split at found
        · cases found
          rw [if_pos rfl]
        · rename_i other
          have later := ih found
          split
          · rename_i same
            have named := List.find?_some found
            dsimp only at named
            rw [same] at named
            rw [named] at other
            cases other
          · exact later

end Descriptor

/-- The record conforms to the type of its name, if the tree has one. -/
def Record.Sound (root : Descriptor) (r : Record) : Prop :=
  ∀ type : Descriptor, type.Part root → type.isRecord → type.name = r.typeName → r.Conforms type

/-- All records inside are sound, also where no field declares them. -/
def Datum.Sound (root : Descriptor) (x : Datum) : Prop := ∀ r : Record, x.Inside r → r.Sound root

def Value.Sound (root : Descriptor) (v : Value) : Prop := ∀ r : Record, v.Inside r → r.Sound root

end Emend
