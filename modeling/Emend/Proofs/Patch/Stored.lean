import Emend.Patch.Storing
import Emend.Proofs.Patch.Conforms

/-!
Data of a declared type: what a new record starts from, and what scalars, variants, records and
lists become when they are stored.
-/

set_option autoImplicit false

namespace Emend

namespace ScalarKind

/-- The bounds of the widths below the widest are doubles. -/
theorem asDouble_bounds : ∀ bits ∈ [8, 16, 32], ∀ signed,
    asDouble (bounds bits signed).1 = (bounds bits signed).1 ∧
      asDouble (bounds bits signed).2 = (bounds bits signed).2 := by
  decide

theorem asDouble_zero : asDouble 0 = 0 := by decide

theorem clamp_mem (i : Int) :
    Datum.leastInt ≤ Datum.clamp i ∧ Datum.clamp i ≤ Datum.greatestInt := by
  unfold Datum.clamp Datum.leastInt Datum.greatestInt
  omega

theorem clamp_of_mem {i : Int} (above : Datum.leastInt ≤ i) (below : i ≤ Datum.greatestInt) :
    Datum.clamp i = i := by
  unfold Datum.clamp
  omega

theorem bounds_stored : ∀ bits ∈ [8, 16, 32, 64], ∀ signed,
    Datum.leastInt ≤ (bounds bits signed).1 ∧ (bounds bits signed).2 ≤ Datum.greatestInt := by
  decide

section
variable {bits : Nat} {signed : Bool}

theorem admits_iff_bounds (width : bits ∈ [8, 16, 32, 64]) {i : Int} :
    Admits bits signed i ↔ (bounds bits signed).1 ≤ i ∧ i ≤ (bounds bits signed).2 := by
  simp only [List.mem_cons, List.not_mem_nil, or_false] at width
  rcases width with rfl | rfl | rfl | rfl <;> cases signed <;> exact Iff.rfl

/-- A rounded number is compared with the bounds as doubles have them, and brought within the range of
stored integers. -/
theorem toInteger_of_rounded {x : Float} {n : Int} (rounded : Number.roundInt? .halfAway x = some n) :
    toInteger bits signed x =
      if asDouble (bounds bits signed).1 ≤ n ∧ n ≤ asDouble (bounds bits signed).2 then
        .ok (Datum.clamp n)
      else .error (.outOfRange x (integer bits signed).name) := by
  unfold toInteger
  rw [rounded]
  dsimp only
  split
  · rename_i outside
    rw [if_neg (by omega)]
  · rename_i inside
    rw [if_pos (by omega)]

theorem of_toInteger_ok {x : Float} {i : Int} (success : toInteger bits signed x = .ok i) :
    ∃ n, Number.roundInt? .halfAway x = some n ∧ asDouble (bounds bits signed).1 ≤ n ∧
      n ≤ asDouble (bounds bits signed).2 ∧ i = Datum.clamp n := by
  cases rounded : Number.roundInt? .halfAway x with
  | none =>
      unfold toInteger at success
      rw [rounded] at success
      cases success
  | some n =>
      rw [toInteger_of_rounded rounded] at success
      split at success
      · rename_i within
        cases success
        exact ⟨n, rfl, within.1, within.2, rfl⟩
      · cases success

theorem store_number (x : Float) :
    (integer bits signed).store (.number x) = (toInteger bits signed x).map .int := by
  change (toInteger bits signed x >>= fun i => .ok (Datum.int i)) = _
  cases toInteger bits signed x <;> rfl

theorem read_of_parseNumber? {s : String} {x : Float} (parsed : Value.parseNumber? s = some x) :
    (integer bits signed).read s = (integer bits signed).store (.number x) := by
  have number : (Value.text s).toNumber = .ok x := by
    unfold Value.toNumber
    dsimp only
    rw [parsed]
  change (do Except.ok (Datum.int (← toInteger bits signed (← (Value.text s).toNumber)))) = _
  rw [number]
  rfl

theorem narrow_admits {n : Int} (narrow : bits ∈ [8, 16, 32])
    (above : asDouble (bounds bits signed).1 ≤ n) (below : n ≤ asDouble (bounds bits signed).2) :
    Admits bits signed (Datum.clamp n) := by
  have width : bits ∈ [8, 16, 32, 64] := List.mem_append_left [64] narrow
  obtain ⟨least, greatest⟩ := asDouble_bounds bits narrow signed
  obtain ⟨stored, stored'⟩ := bounds_stored bits width signed
  rw [least] at above
  rw [greatest] at below
  rw [clamp_of_mem (Int.le_trans stored above) (Int.le_trans below stored')]
  exact (admits_iff_bounds width).mpr ⟨above, below⟩

end

theorem wide_admits {signed : Bool} {n : Int} (above : asDouble (bounds 64 signed).1 ≤ n) :
    Admits 64 signed (Datum.clamp n) := by
  obtain ⟨least, greatest⟩ := clamp_mem n
  cases signed with
  | true => exact ⟨least, greatest⟩
  | false =>
      have nonnegative : 0 ≤ n := asDouble_zero ▸ above
      refine ⟨?_, greatest⟩
      unfold Datum.clamp Datum.leastInt Datum.greatestInt
      omega

theorem toInteger_admits {bits : Nat} {signed : Bool} {x : Float} {i : Int}
    (success : toInteger bits signed x = .ok i) : Admits bits signed i := by
  obtain ⟨n, -, above, below, rfl⟩ := of_toInteger_ok success
  by_cases narrow : bits ∈ [8, 16, 32]
  · exact narrow_admits narrow above below
  · by_cases wide : bits = 64
    · subst wide
      exact wide_admits above
    · unfold Admits
      split <;> simp_all

theorem zero_admits (bits : Nat) (signed : Bool) : Admits bits signed 0 := by
  unfold Admits
  split <;> decide

end ScalarKind

namespace Datum

/-- Neither a record nor a list, which may hold one. -/
def isFlat : Datum → Bool
  | record .. | list _ => false
  | _ => true

theorem Sound.of_isFlat {root : Descriptor} {x : Datum} (flat : x.isFlat) : x.Sound root := by
  intro r inside
  cases inside <;> cases flat

section
variable {root : Descriptor} {typeName : String} {fields : List (String × Datum)}
  {items : List Datum}

theorem Sound.record (whole : Record.Sound root ⟨typeName, fields⟩)
    (each : ∀ name x, (name, x) ∈ fields → x.Sound root) : (record typeName fields).Sound root := by
  intro r inside
  cases inside with
  | here => exact whole
  | field member inner => exact each _ _ member r inner

theorem Sound.list (each : ∀ x ∈ items, x.Sound root) : (list items).Sound root := by
  intro r inside
  cases inside with
  | item member inner => exact each _ member r inner

theorem Sound.field {name : String} {x : Datum} (sound : (Datum.record typeName fields).Sound root)
    (member : (name, x) ∈ fields) : x.Sound root :=
  fun r inside => sound r (.field member inside)

theorem Sound.item {x : Datum} (sound : (Datum.list items).Sound root) (member : x ∈ items) :
    x.Sound root :=
  fun r inside => sound r (.item member inside)

end

/-- Of the declared type, with sound records inside. -/
structure Fits (root type : Descriptor) (x : Datum) : Prop where
  conforms : x.Conforms type
  sound : x.Sound root

theorem Fits.list {root element : Descriptor} {fixed : Bool} {items : List Datum}
    (each : ∀ x ∈ items, x.Fits root element) : (list items).Fits root (.list element fixed) :=
  ⟨.list fun x member => (each x member).conforms, .list fun x member => (each x member).sound⟩

/-- The record fits if its fields do, since no other type has its name. -/
theorem Fits.record {root : Descriptor} {name : String} {fields : List (String × Descriptor)}
    {identity : Option String} {byValue : Bool} {entries : List (String × Datum)}
    (coherent : root.Coherent) (part : (Descriptor.record name fields identity byValue).Part root)
    (conforms : ∀ field type x, Fields.find? field fields = some type →
      Fields.find? field entries = some x → x.Conforms type)
    (sound : ∀ field x, (field, x) ∈ entries → x.Sound root) :
    (record name entries).Fits root (.record name fields identity byValue) := by
  refine ⟨.record conforms, .record ?_ sound⟩
  intro type inner isRecord named
  cases coherent type _ inner part isRecord rfl named
  exact conforms

end Datum

namespace Descriptor

section
variable {root : Descriptor} (coherent : root.Coherent)
include coherent

theorem made_fits {name : String} {fields : List (String × Descriptor)}
    {identity : Option String} {byValue : Bool} (make : Descriptor → Datum)
    (part : (record name fields identity byValue).Part root)
    (each : ∀ field type, (field, type) ∈ fields → (make type).Fits root type) :
    (Datum.record name (fields.map fun field => (field.1, make field.2))).Fits root
      (record name fields identity byValue) := by
  apply Datum.Fits.record coherent part
  · intro field type x declared found
    rw [Fields.find?_map fun _ type => make type, declared] at found
    cases found
    exact (each field type (Fields.mem_of_find? declared)).conforms
  · intro field x member
    obtain ⟨⟨key, type⟩, listed, same⟩ := List.mem_map.mp member
    cases same
    exact (each key type listed).sound

theorem initial_fits : (type : Descriptor) → type.Part root → type.initial.Fits root type
  | .scalar (.integer bits signed), _ =>
      ⟨.integer (ScalarKind.zero_admits bits signed), .of_isFlat rfl⟩
  | .scalar .bool, _ => ⟨.bool _, .of_isFlat rfl⟩
  | .scalar .single, _ => ⟨.single _, .of_isFlat rfl⟩
  | .scalar .double, _ => ⟨.double _, .of_isFlat rfl⟩
  | .scalar .text, _ => ⟨.noText, .of_isFlat rfl⟩
  | .scalar .char, _ => ⟨.char _, .of_isFlat rfl⟩
  | .scalar .decimal, _ => ⟨.decimal _, .of_isFlat rfl⟩
  | .scalar .dateTime, _ => ⟨.dateTime _, .of_isFlat rfl⟩
  | .enumeration _ [], _ => ⟨.noVariant, .of_isFlat rfl⟩
  | .enumeration _ (_ :: _), _ => ⟨.variant List.mem_cons_self, .of_isFlat rfl⟩
  | .list _ _, _ => ⟨.noList, .of_isFlat rfl⟩
  | .record _ _ _ false, _ => ⟨.noRecord, .of_isFlat rfl⟩
  | .record name fields identity true, part => by
      rw [initial, initialFields_eq_map]
      apply made_fits coherent initial part
      intro field type member
      exact initial_fits type (.trans (.field member .self) part)
termination_by type => sizeOf type
decreasing_by
  have smaller := List.sizeOf_lt_of_mem member
  simp only [record.sizeOf_spec, Prod.mk.sizeOf_spec] at smaller ⊢
  omega

theorem filled_fits {type : Descriptor} (part : type.Part root) : type.filled.Fits root type := by
  cases type with
  | scalar kind => exact initial_fits coherent _ part
  | enumeration name variants => exact initial_fits coherent _ part
  | list element fixed => exact .list fun x member => absurd member List.not_mem_nil
  | record name fields identity byValue =>
      rw [filled, initialFields_eq_map]
      exact made_fits coherent initial part fun field type member =>
        initial_fits coherent type (.trans (.field member .self) part)

theorem newFilledRecord_fits {name : String} {fields : List (String × Descriptor)}
    {identity : Option String} {byValue : Bool}
    (part : (record name fields identity byValue).Part root) :
    (Datum.ofRecord (record name fields identity byValue).newFilledRecord).Fits root
      (record name fields identity byValue) :=
  made_fits coherent filled part fun _ _ member =>
    filled_fits coherent (.trans (.field member .self) part)

end

end Descriptor

theorem ScalarKind.store_fits {root : Descriptor} {kind : ScalarKind} {v : Value} {x : Datum}
    (success : kind.store v = .ok x) : x.Fits root (.scalar kind) := by
  cases kind with
  | bool =>
      obtain ⟨b, -, rfl⟩ := of_map_ok success
      exact ⟨.bool b, .of_isFlat rfl⟩
  | integer bits signed =>
      obtain ⟨y, -, success⟩ := of_bind_ok success
      obtain ⟨i, rounded, success⟩ := of_bind_ok success
      cases success
      exact ⟨.integer (toInteger_admits rounded), .of_isFlat rfl⟩
  | single =>
      obtain ⟨y, -, rfl⟩ := of_map_ok success
      exact ⟨.single _, .of_isFlat rfl⟩
  | double =>
      obtain ⟨y, -, rfl⟩ := of_map_ok success
      exact ⟨.double y, .of_isFlat rfl⟩
  | text =>
      unfold store at success
      dsimp only at success
      split at success <;> cases success
      · exact ⟨.noText, .of_isFlat rfl⟩
      · exact ⟨.text _, .of_isFlat rfl⟩
  | char | decimal | dateTime => cases success

theorem ScalarKind.read_fits {root : Descriptor} {kind : ScalarKind} {s : String} {x : Datum}
    (success : kind.read s = .ok x) : x.Fits root (.scalar kind) := by
  unfold read at success
  split at success
  · cases success
    exact ⟨.text s, .of_isFlat rfl⟩
  · exact store_fits success

namespace Patch

theorem variant?_fits {root : Descriptor} {name text : String} {variants : List String} {x : Datum}
    (found : variant? variants text = some x) : x.Fits root (.enumeration name variants) := by
  obtain ⟨variant, chosen, rfl⟩ := Option.map_eq_some_iff.mp found
  exact ⟨.variant (List.mem_of_find?_eq_some chosen), .of_isFlat rfl⟩

theorem store_fits {root : Descriptor} {name : String} {position : Position} :
    (type : Descriptor) → type.Part root → (v : Value) → v.Sound root → (x : Datum) →
      store name position type v = .ok x → x.Fits root type
  | .scalar kind, _, v, _, x, success => by
      unfold store at success
      split at success <;> cases success
      rename_i stored
      exact ScalarKind.store_fits stored
  | .enumeration typeName variants, _, v, _, x, success => by
      unfold store at success
      split at success <;> cases success
      rename_i found
      exact variant?_fits found
  | .record typeName fields identity byValue, part, v, sound, x, success => by
      unfold store at success
      split at success
      · split at success
        · cases success
        · rename_i byReference
          cases success
          cases byValue
          · exact ⟨.noRecord, .of_isFlat rfl⟩
          · exact absurd rfl byReference
      · rename_i r
        split at success
        · rename_i named
          cases success
          obtain ⟨recordName, entries⟩ := r
          cases named
          have conforms := sound _ (.record .here) _ part rfl rfl
          exact ⟨.record conforms, fun inner inside => sound inner (.record inside)⟩
        · cases success
      · cases success
  | .list element fixed, part, v, sound, x, success => by
      unfold store at success
      split at success
      · cases success
        exact ⟨.noList, .of_isFlat rfl⟩
      · obtain ⟨items, stored, rfl⟩ := of_map_ok success
        apply Datum.Fits.list
        intro y member
        obtain ⟨w, listed, made⟩ := of_mapM_ok stored y member
        exact store_fits element (.trans (.element .self) part) w
          (fun r inside => sound r (.item listed inside)) y made
      · cases success

end Patch

end Emend
