import Emend.Proofs.Except
import Emend.Proofs.Fields
import Emend.Registry.Definitions
import Mathlib.Data.List.Forall2
import Mathlib.Data.List.Nodup

/-!
Definitions read and written again. Types are inferred from all values at one place together: where
these are of one kind, every one of them is stored as what it is, and written as it was read, up to
the order of the fields.
-/

set_option autoImplicit false

namespace Emend

namespace Json

mutual

/-- Equality of values, with objects compared without the order of their entries. -/
def Same : Json → Json → Prop
  | list items, list others => SameItems items others
  | object entries, object others => entries.length = others.length ∧ SameEntries entries others
  | a, b => a = b

def SameItems : List Json → List Json → Prop
  | [], [] => True
  | a :: items, b :: others => Same a b ∧ SameItems items others
  | _, _ => False

/-- Every entry has an equal one of its name. -/
def SameEntries : List (String × Json) → List (String × Json) → Prop
  | [], _ => True
  | (name, a) :: rest, others =>
    (∃ b, Fields.find? name others = some b ∧ Same a b) ∧ SameEntries rest others

end

/-- The kind of a value that neither nests nor is null. Integers are those that can be stored. -/
def scalar? : Json → Option ScalarKind
  | bool _ => some .bool
  | int i => if Datum.leastInt ≤ i ∧ i ≤ Datum.greatestInt then some (.integer 64 true) else none
  | float _ => some .double
  | text _ => some .text
  | _ => none

theorem scalar?_int {i : Int} {kind : ScalarKind} :
    (int i).scalar? = some kind ↔
      (Datum.leastInt ≤ i ∧ i ≤ Datum.greatestInt) ∧ ScalarKind.integer 64 true = kind := by
  simp [scalar?]

end Json

namespace Definitions

/-- The values found at one place are of one kind, apart from nulls. Items of lists are at a place
of their own, and so are the values under each key of objects, which all have the same keys. -/
inductive Uniform : List Json → Prop where
  | scalars {values : List Json} (kind : ScalarKind)
      (each : ∀ v ∈ values, v = .null ∨ v.scalar? = some kind) : Uniform values
  | lists {values : List Json} (each : ∀ v ∈ values, v = .null ∨ ∃ items, v = .list items)
      (items : Uniform (values.filterMap Json.items?).flatten) : Uniform values
  | objects {values : List Json} (keys : List String) (apart : keys.Nodup)
      (each : ∀ v ∈ values, v = .null ∨
        ∃ entries, v = .object entries ∧ (entries.map (·.1)).Perm keys)
      (fields : ∀ key ∈ keys,
        Uniform ((values.filterMap Json.entries?).filterMap (Fields.find? key))) :
      Uniform values

def valuesOf (key : String) (entries : List (String × Json)) : List Json :=
  entries.filterMap fun entry => if entry.1 = key then some entry.2 else none

def gatherEntry (fields : List (String × List Json)) (entry : String × Json) :
    List (String × List Json) :=
  Fields.put entry.1 ((Fields.find? entry.1 fields).getD [] ++ [entry.2]) fields

theorem gather_eq (records : List (List (String × Json))) :
    gather records = records.flatten.foldl gatherEntry [] := rfl

/-- The induction is on the entries; each comes after the values that its field has so far. -/
theorem find?_gatherEntries (key : String) (entries : List (String × Json))
    (fields : List (String × List Json)) :
    (Fields.find? key (entries.foldl gatherEntry fields)).getD [] =
      (Fields.find? key fields).getD [] ++ valuesOf key entries := by
  induction entries generalizing fields with
  | nil => exact (List.append_nil _).symm
  | cons entry rest ih =>
      rw [List.foldl_cons, ih, gatherEntry, Fields.find?_put]
      by_cases here : key = entry.1
      · subst here
        simp [valuesOf]
      · simp [valuesOf, here, Ne.symm here]

theorem names_gatherEntries (entries : List (String × Json)) {fields : List (String × List Json)}
    (apart : (fields.map (·.1)).Nodup) :
    ((entries.foldl gatherEntry fields).map (·.1)).Nodup ∧
      ∀ key, key ∈ (entries.foldl gatherEntry fields).map (·.1) ↔
        key ∈ fields.map (·.1) ∨ key ∈ entries.map (·.1) := by
  induction entries generalizing fields with
  | nil => exact ⟨apart, by simp⟩
  | cons entry rest ih =>
      have next : ((gatherEntry fields entry).map (·.1)).Nodup := Fields.put_apart _ _ apart
      obtain ⟨differ, listed⟩ := ih next
      refine ⟨differ, fun key => (listed key).trans ?_⟩
      rw [gatherEntry, Fields.mem_names_put, List.map_cons, List.mem_cons,
        or_comm (a := key = entry.1), or_assoc]

theorem valuesOf_of_apart {key : String} {entries : List (String × Json)}
    (apart : (entries.map (·.1)).Nodup) :
    valuesOf key entries = (Fields.find? key entries).toList := by
  induction entries with
  | nil => rfl
  | cons entry rest ih =>
      obtain ⟨differ, later⟩ := List.nodup_cons.mp apart
      have others := ih later
      rw [Fields.find?_cons]
      by_cases here : key = entry.1
      · subst here
        rw [Fields.find?_eq_none.mpr differ] at others
        simpa [valuesOf] using others
      · simpa [valuesOf, here, Ne.symm here] using others

theorem valuesOf_flatten {key : String} {records : List (List (String × Json))}
    (apart : ∀ entries ∈ records, (entries.map (·.1)).Nodup) :
    valuesOf key records.flatten = records.filterMap (Fields.find? key) := by
  induction records with
  | nil => rfl
  | cons entries rest ih =>
      obtain ⟨first, others⟩ := List.forall_mem_cons.mp apart
      have joined : valuesOf key (entries ++ rest.flatten) =
          valuesOf key entries ++ valuesOf key rest.flatten := List.filterMap_append
      rw [List.flatten_cons, joined, valuesOf_of_apart first, ih others]
      cases here : Fields.find? key entries <;> simp [here]

/-- What is gathered of records that all have the same keys: each key once, with the value that each
record has under it. -/
theorem gather_uniform {keys : List String} {records : List (List (String × Json))}
    (apart : keys.Nodup) (keyed : ∀ entries ∈ records, (entries.map (·.1)).Perm keys)
    (some : records ≠ []) :
    ((gather records).map (·.1)).Perm keys ∧
      ∀ key ∈ keys, Fields.find? key (gather records) =
        .some (records.filterMap (Fields.find? key)) := by
  have distinct : ∀ entries ∈ records, (entries.map (·.1)).Nodup :=
    fun entries member => (keyed entries member).nodup_iff.mpr apart
  have fresh : (([] : List (String × List Json)).map (·.1)).Nodup := .nil
  obtain ⟨differ, listed⟩ := names_gatherEntries records.flatten fresh
  rw [← gather_eq] at differ listed
  have names (key : String) : key ∈ (gather records).map (·.1) ↔ key ∈ keys := by
    rw [listed key, List.map_nil, List.map_flatten]
    simp only [List.not_mem_nil, false_or]
    constructor
    · intro member
      obtain ⟨_, inside, member⟩ := List.mem_flatten.mp member
      obtain ⟨entries, listed, rfl⟩ := List.mem_map.mp inside
      exact (keyed entries listed).mem_iff.mp member
    · intro member
      obtain ⟨first, rest, rfl⟩ := List.exists_cons_of_ne_nil some
      exact List.mem_flatten.mpr ⟨first.map (·.1), List.mem_map_of_mem List.mem_cons_self,
        (keyed first List.mem_cons_self).mem_iff.mpr member⟩
  refine ⟨(List.perm_ext_iff_of_nodup differ apart).mpr names, fun key member => ?_⟩
  have values := find?_gatherEntries key records.flatten []
  rw [← gather_eq, valuesOf_flatten distinct] at values
  obtain ⟨found, here⟩ := Option.isSome_iff_exists.mp
    (Fields.isSome_find?_iff.mpr ((names key).mpr member))
  rw [here] at values ⊢
  exact congrArg Option.some (by simpa using values)

theorem storeFields_eq {type : Descriptor} {t : String → Descriptor} {entries : List (String × Json)}
    (typed : ∀ entry ∈ entries, Fields.find? entry.1 type.fields = some (t entry.1))
    (record : Record) :
    storeFields type record entries =
      ⟨record.typeName, Fields.putAll
        (entries.map fun entry => (entry.1, store (t entry.1) entry.2)) record.fields⟩ := by
  induction entries generalizing record with
  | nil => rfl
  | cons entry rest ih =>
      obtain ⟨first, others⟩ := List.forall_mem_cons.mp typed
      have declared : type.field? entry.1 = some (entry.1, t entry.1) := by
        unfold Descriptor.field?
        rw [first]
      rw [storeFields, declared]
      exact ih others _

end Definitions

namespace Json

theorem ofFields_eq (fields : List (String × Datum)) :
    ofFields fields = fields.map fun entry => (entry.1, ofDatum entry.2) := by
  induction fields with
  | nil => rfl
  | cons field rest ih => rw [ofFields, ih, List.map_cons]

theorem ofItems_eq (items : List Datum) : ofItems items = items.map ofDatum := by
  induction items with
  | nil => rfl
  | cons item rest ih => rw [ofItems, ih, List.map_cons]

theorem sameItems_map {α : Type} {items : List α} {f g : α → Json}
    (each : ∀ item ∈ items, Same (f item) (g item)) : SameItems (items.map f) (items.map g) := by
  induction items with
  | nil => trivial
  | cons item rest ih =>
      obtain ⟨first, others⟩ := List.forall_mem_cons.mp each
      exact ⟨first, ih others⟩

theorem heightItems_le_iff {values : List Json} {n : Nat} :
    heightItems values ≤ n ↔ ∀ v ∈ values, v.height ≤ n := by
  induction values with
  | nil => simp [heightItems]
  | cons v rest ih => rw [heightItems, Nat.max_le, ih, List.forall_mem_cons]

theorem heightItems_lt {values others : List Json} {v : Json} (member : v ∈ values)
    (nests : 0 < v.height) (below : ∀ w ∈ others, ∃ u ∈ values, w.height < u.height) :
    heightItems others < heightItems values := by
  have bound := heightItems_le_iff.mp (Nat.le_refl (heightItems values))
  have positive : 0 < heightItems values := Nat.lt_of_lt_of_le nests (bound v member)
  refine Nat.lt_of_le_of_lt (heightItems_le_iff.mpr fun w listed => ?_)
    (Nat.sub_one_lt (Nat.ne_of_gt positive))
  obtain ⟨u, inside, less⟩ := below w listed
  exact Nat.le_sub_one_of_lt (Nat.lt_of_lt_of_le less (bound u inside))

theorem heightEntries_le_iff {entries : List (String × Json)} {n : Nat} :
    heightEntries entries ≤ n ↔ ∀ entry ∈ entries, entry.2.height ≤ n := by
  induction entries with
  | nil => simp [heightEntries]
  | cons entry rest ih => rw [heightEntries, Nat.max_le, ih, List.forall_mem_cons]

theorem sameEntries_iff {entries others : List (String × Json)} :
    SameEntries entries others ↔
      ∀ entry ∈ entries, ∃ b, Fields.find? entry.1 others = some b ∧ Same entry.2 b := by
  induction entries with
  | nil => simp [SameEntries]
  | cons entry rest ih => rw [SameEntries, ih, List.forall_mem_cons]

end Json

namespace Definitions

theorem recordOf_same {type : Descriptor} {t : String → Descriptor} {entries : List (String × Json)}
    (apart : (entries.map (·.1)).Nodup) (declares : (entries.map (·.1)).Perm (type.fields.map (·.1)))
    (typed : ∀ entry ∈ entries, Fields.find? entry.1 type.fields = some (t entry.1))
    (each : ∀ entry ∈ entries, Json.Same entry.2 (.ofDatum (store (t entry.1) entry.2))) :
    Json.Same (.object entries) (.ofRecord (recordOf type entries)) := by
  have initial : type.newRecord.fields.map (·.1) = type.fields.map (·.1) := by
    rw [Descriptor.newRecord, Descriptor.initialFields_eq_map, List.map_map]
    rfl
  rw [recordOf, storeFields_eq typed, Json.ofRecord, Json.ofFields_eq]
  generalize given : (entries.map fun entry => (entry.1, store (t entry.1) entry.2)) = written
  have names : written.map (·.1) = entries.map (·.1) := by
    rw [← given, List.map_map]
    rfl
  have known : ∀ name ∈ written.map (·.1), name ∈ type.newRecord.fields.map (·.1) := by
    rw [names, initial]
    exact fun name => declares.mem_iff.mp
  refine ⟨?_, Json.sameEntries_iff.mpr fun entry member => ⟨_, ?_, each entry member⟩⟩
  · have sizes := congrArg List.length (Fields.names_putAll known)
    rw [initial, ← declares.length_eq] at sizes
    simpa using sizes.symm
  · have inside : (entry.1, store (t entry.1) entry.2) ∈ written := by
      rw [← given]
      exact List.mem_map_of_mem member
    have there := Fields.find?_putAll_of_mem type.newRecord.fields (names ▸ apart) inside
    rw [Fields.find?_map fun _ d => Json.ofDatum d, there]
    rfl

/-- Null is stored as null, whatever the type. -/
theorem same_of_present {type : Descriptor} {v : Json}
    (given : v ≠ .null → Json.Same v (.ofDatum (store type v))) :
    Json.Same v (.ofDatum (store type v)) := by
  by_cases absent : v = .null
  · subst absent
    unfold store
    trivial
  · exact given absent

theorem store_scalar {kind : ScalarKind} {v : Json} (given : v.scalar? = some kind) :
    Json.Same v (.ofDatum (store (.scalar kind) v)) := by
  cases v with
  | null | list _ | object _ => cases given
  | bool b | float x | text s => cases given; simp [store, Json.ofDatum, Json.Same]
  | int i =>
      obtain ⟨bounds, rfl⟩ := Json.scalar?_int.mp given
      simp [store, bounds.2, Json.ofDatum, Json.Same]

theorem infer_scalar {values : List Json} {kind : ScalarKind}
    (each : ∀ v ∈ values, v = .null ∨ v.scalar? = some kind) {v : Json}
    (first : values.find? (!·.isNull) = some v) (fuel : Nat) (name : String) :
    infer (fuel + 1) name values = .scalar kind := by
  have present : v.isNull = false := by simpa using List.find?_some first
  have given := (each v (List.mem_of_find?_eq_some first)).resolve_left (by
    rintro rfl
    cases present)
  rw [infer, first]
  cases v with
  | null | list _ | object _ => cases given
  | bool b | float x | text s => cases given; rfl
  | int i =>
      obtain ⟨-, rfl⟩ := Json.scalar?_int.mp given
      have whole : (values.filter Json.isNumber).all Json.isInt = true := by
        rw [List.all_eq_true]
        intro w member
        obtain ⟨member, number⟩ := List.mem_filter.mp member
        cases w with
        | int _ => rfl
        | float x => rcases each _ member with same | same <;> cases same
        | null | bool _ | text _ | list _ | object _ => cases number
      simp only [whole, ↓reduceIte]

theorem infer_list {values : List Json} {items : List Json}
    (first : values.find? (!·.isNull) = some (.list items)) (fuel : Nat) (name : String) :
    infer (fuel + 1) name values =
      .list (infer fuel name (values.filterMap Json.items?).flatten) false := by
  rw [infer, first]

/-- The fields that records are inferred to have. -/
def inferFields (fuel : Nat) (name : String) (records : List (List (String × Json))) :
    List (String × Descriptor) :=
  (gather records).map fun (key, values) => (key, infer fuel (name ++ key) values)

theorem infer_object {values : List Json} {entries : List (String × Json)}
    (first : values.find? (!·.isNull) = some (.object entries)) (fuel : Nat) (name : String) :
    infer (fuel + 1) name values =
      .ofFields name (inferFields fuel name (values.filterMap Json.entries?)) none false := by
  rw [infer, first]
  rfl

theorem exists_first {values : List Json} {v : Json} (member : v ∈ values) (present : v ≠ .null) :
    ∃ w ∈ values, values.find? (!·.isNull) = some w ∧ w ≠ .null := by
  have found : (values.find? (!·.isNull)).isSome := by
    rw [List.find?_isSome]
    refine ⟨v, member, ?_⟩
    cases v <;> first | rfl | exact absurd rfl present
  obtain ⟨w, first⟩ := Option.isSome_iff_exists.mp found
  refine ⟨w, List.mem_of_find?_eq_some first, first, ?_⟩
  rintro rfl
  cases List.find?_some first

theorem storeItems_eq (element : Descriptor) (items : List Json) :
    storeItems element items = items.map (store element) := by
  induction items with
  | nil => rfl
  | cons item rest ih => rw [storeItems, ih, List.map_cons]

theorem heightItems_flatten {values items : List Json} (member : .list items ∈ values) :
    Json.heightItems (values.filterMap Json.items?).flatten < Json.heightItems values := by
  refine Json.heightItems_lt member (Nat.succ_pos _) fun item listed => ?_
  obtain ⟨others, inside, listed⟩ := List.mem_flatten.mp listed
  obtain ⟨v, inside, given⟩ := List.mem_filterMap.mp inside
  cases v with
  | list _ =>
      cases given
      refine ⟨_, inside, ?_⟩
      rw [Json.height, Nat.lt_succ_iff]
      exact Json.heightItems_le_iff.mp (Nat.le_refl _) item listed
  | null | bool _ | int _ | float _ | text _ | object _ => cases given

theorem heightItems_fields {values : List Json} {entries : List (String × Json)}
    (member : .object entries ∈ values) (key : String) :
    Json.heightItems ((values.filterMap Json.entries?).filterMap (Fields.find? key)) <
      Json.heightItems values := by
  refine Json.heightItems_lt member (Nat.succ_pos _) fun v listed => ?_
  obtain ⟨others, inside, found⟩ := List.mem_filterMap.mp listed
  obtain ⟨object, inside, given⟩ := List.mem_filterMap.mp inside
  cases object with
  | object _ =>
      cases given
      refine ⟨_, inside, ?_⟩
      rw [Json.height, Nat.lt_succ_iff]
      exact Json.heightEntries_le_iff.mp (Nat.le_refl _) _ (Fields.mem_of_find? found)
  | null | bool _ | int _ | float _ | text _ | list _ => cases given

theorem ofDatum_store_object (name : String) (fields : List (String × Descriptor))
    (entries : List (String × Json)) :
    Json.ofDatum (store (.ofFields name fields none false) (.object entries)) =
      .ofRecord (recordOf (.ofFields name fields none false) entries) := by
  rw [Descriptor.ofFields, store]
  rfl

theorem keyed_of_objects {values : List Json} {keys : List String}
    (each : ∀ v ∈ values, v = .null ∨
      ∃ entries, v = .object entries ∧ (entries.map (·.1)).Perm keys) :
    ∀ entries ∈ values.filterMap Json.entries?, (entries.map (·.1)).Perm keys := by
  intro entries member
  obtain ⟨v, inside, given⟩ := List.mem_filterMap.mp member
  rcases each v inside with rfl | ⟨others, rfl, perm⟩
  · cases given
  · cases given
    exact perm

theorem recordOf_inferred {keys : List String} {records : List (List (String × Json))}
    (apart : keys.Nodup) (keyed : ∀ entries ∈ records, (entries.map (·.1)).Perm keys)
    {fuel : Nat} {name : String}
    (each : ∀ key ∈ keys, ∀ v ∈ records.filterMap (Fields.find? key), Json.Same v
      (.ofDatum (store (infer fuel (name ++ key) (records.filterMap (Fields.find? key))) v)))
    {entries : List (String × Json)} (member : entries ∈ records) :
    Json.Same (.object entries) (.ofRecord (recordOf
      (.ofFields name (inferFields fuel name records) none false) entries)) := by
  obtain ⟨names, found⟩ := gather_uniform apart keyed (List.ne_nil_of_mem member)
  have declared : (inferFields fuel name records).map (·.1) = (gather records).map (·.1) := by
    rw [inferFields, List.map_map]
    rfl
  have fields : (Descriptor.ofFields name (inferFields fuel name records) none false).fields =
      inferFields fuel name records := by
    change Fields.ofList _ = _
    rw [Fields.ofList_of_apart]
    rw [declared]
    exact names.nodup_iff.mpr apart
  have listed (entry : String × Json) (inside : entry ∈ entries) : entry.1 ∈ keys :=
    (keyed entries member).mem_iff.mp (List.mem_map_of_mem inside)
  have distinct := (keyed entries member).nodup_iff.mpr apart
  refine recordOf_same (t := fun key =>
      infer fuel (name ++ key) (records.filterMap (Fields.find? key))) distinct ?_ ?_ ?_
  · rw [fields, declared]
    exact (keyed entries member).trans names.symm
  · intro entry inside
    rw [fields, inferFields, Fields.find?_map fun key values => infer fuel (name ++ key) values,
      found entry.1 (listed entry inside)]
    rfl
  · intro entry inside
    exact each entry.1 (listed entry inside) entry.2
      (List.mem_filterMap.mpr ⟨entries, member, Fields.find?_of_mem distinct inside⟩)

/-- The induction is on the uniformity of the values, with the fuel that their depth takes. -/
theorem store_infer {values : List Json} (uniform : Uniform values) {fuel : Nat}
    (enough : Json.heightItems values < fuel) (name : String) :
    ∀ v ∈ values, Json.Same v (.ofDatum (store (infer fuel name values) v)) := by
  induction uniform generalizing fuel name with
  | @scalars values kind each =>
      intro v member
      refine same_of_present fun present => ?_
      obtain ⟨fuel, rfl⟩ := Nat.exists_eq_add_of_lt enough
      obtain ⟨w, -, first, -⟩ := exists_first member present
      rw [infer_scalar each first]
      exact store_scalar ((each v member).resolve_left present)
  | @lists values each items ih =>
      intro v member
      refine same_of_present fun present => ?_
      obtain ⟨fuel, rfl⟩ := Nat.exists_eq_add_of_lt enough
      obtain ⟨w, there, first, solid⟩ := exists_first member present
      obtain ⟨others, rfl⟩ := (each w there).resolve_left solid
      obtain ⟨items, rfl⟩ := (each v member).resolve_left present
      have below := heightItems_flatten there
      rw [infer_list first, store, Json.ofDatum, Json.ofItems_eq, storeItems_eq, List.map_map]
      rw [Json.Same, ← List.map_id items, List.map_map]
      refine Json.sameItems_map fun item listed => ih (by omega) name item ?_
      exact List.mem_flatten.mpr ⟨items, List.mem_filterMap.mpr ⟨_, member, rfl⟩, listed⟩
  | @objects values keys apart each fields ih =>
      intro v member
      refine same_of_present fun present => ?_
      obtain ⟨fuel, rfl⟩ := Nat.exists_eq_add_of_lt enough
      obtain ⟨w, there, first, solid⟩ := exists_first member present
      obtain ⟨others, rfl, -⟩ := (each w there).resolve_left solid
      obtain ⟨entries, rfl, -⟩ := (each v member).resolve_left present
      rw [infer_object first, ofDatum_store_object]
      refine recordOf_inferred apart (keyed_of_objects each) (fun key listed => ih key listed ?_ _) ?_
      · have := heightItems_fields there key
        omega
      · exact List.mem_filterMap.mpr ⟨_, member, rfl⟩

theorem records_ofList (identity : Option String) (records : List Record) :
    (Collection.ofList identity records).records = records := by
  change (records.map some).filterMap id = records
  rw [List.filterMap_map]
  exact List.filterMap_some

/-- The definition of a type: a record, or a list of records that are uniform. -/
def UniformType : Json → Prop
  | .object entries => Uniform [.object entries]
  | .list items => (∀ item ∈ items, ∃ entries, item = .object entries) ∧ Uniform items
  | _ => False

/-- Records of a type are written as they were read. -/
theorem recordOf_inferRecord {records : List (List (String × Json))}
    (uniform : Uniform (records.map .object)) (name : String) {entries : List (String × Json)}
    (member : entries ∈ records) :
    Json.Same (.object entries) (.ofRecord (recordOf (inferRecord name records) entries)) := by
  have inside : Json.object entries ∈ records.map .object := List.mem_map_of_mem member
  obtain ⟨w, there, first, -⟩ := exists_first inside (by simp)
  obtain ⟨others, -, rfl⟩ := List.mem_map.mp there
  have same := store_infer uniform
    (Nat.lt_succ_of_lt (Nat.lt_succ_self (Json.heightItems (records.map .object)))) name _ inside
  have only : (records.map Json.object).filterMap Json.entries? = records := by
    rw [List.filterMap_map]
    exact List.filterMap_some
  rw [infer_object first, ofDatum_store_object, only] at same
  exact same

theorem objects_eq {items : List Json} (objects : ∀ item ∈ items, ∃ entries, item = .object entries) :
    (items.filterMap Json.entries?).map .object = items := by
  induction items with
  | nil => rfl
  | cons item rest ih =>
      obtain ⟨⟨entries, rfl⟩, others⟩ := List.forall_mem_cons.mp objects
      exact congrArg (Json.object entries :: ·) (ih others)

/-- A uniform type is registered under its name, and written as it was read. -/
theorem register_uniform {body : Json} (uniform : UniformType body) (r : Registry) (name : String) :
    ∃ descriptor stored, register [] r name body = .ok (r.register descriptor stored) ∧
      descriptor.name = name ∧ Json.Same body stored.toJson := by
  cases body with
  | object entries =>
      refine ⟨inferRecord name [entries], _, rfl, rfl, ?_⟩
      have single : Uniform ([entries].map .object) := uniform
      exact recordOf_inferRecord single name List.mem_cons_self
  | list items =>
      obtain ⟨objects, uniform⟩ := uniform
      rw [← objects_eq objects] at uniform
      refine ⟨inferRecord name (items.filterMap Json.entries?), _, rfl, rfl, ?_⟩
      rw [Stored.toJson, records_ofList, List.map_map, Json.Same]
      nth_rewrite 1 [← objects_eq objects]
      exact Json.sameItems_map fun entries member => recordOf_inferRecord uniform name member
  | null | bool _ | int _ | float _ | text _ => exact uniform.elim

/-- The type is registered under its name, and its records are written as they were read. -/
def SavedAs (type : String × Json) (entry : String × Registration) : Prop :=
  type.1 = entry.1 ∧ Json.Same type.2 entry.2.stored.toJson

/-- The induction is on the types that are left. Each comes after those that are registered. -/
theorem load_types {types : List (String × Json)} {r : Registry}
    (apart : (r.types.map (·.1) ++ types.map (·.1)).Nodup)
    (uniform : ∀ entry ∈ types, UniformType entry.2) :
    ∃ added, types.foldlM (fun r (name, body) => register [] r name body) r =
        .ok ⟨r.types ++ added⟩ ∧
      List.Forall₂ SavedAs types added := by
  induction types generalizing r with
  | nil => exact ⟨[], by rw [List.append_nil]; rfl, .nil⟩
  | cons type rest ih =>
      obtain ⟨name, body⟩ := type
      have first : UniformType body := uniform _ List.mem_cons_self
      have others := fun entry member => uniform entry (List.mem_cons_of_mem (name, body) member)
      obtain ⟨descriptor, stored, registered, rfl, same⟩ := register_uniform first r name
      have absent : descriptor.name ∉ r.types.map (·.1) := fun member =>
        (List.nodup_append.mp apart).2.2 _ member _ List.mem_cons_self rfl
      have after : r.register descriptor stored =
          ⟨r.types ++ [(descriptor.name, ⟨descriptor, stored⟩)]⟩ := by
        rw [Registry.register, Fields.put_of_absent _ absent]
      rw [after] at registered
      obtain ⟨added, loaded, alike⟩ := ih
        (r := ⟨r.types ++ [(descriptor.name, ⟨descriptor, stored⟩)]⟩) (by simpa using apart) others
      refine ⟨(descriptor.name, ⟨descriptor, stored⟩) :: added, ?_, .cons ⟨rfl, same⟩ alike⟩
      rw [List.foldlM_cons]
      dsimp only
      rw [registered, ok_bind, loaded, List.append_assoc]
      rfl

theorem sameEntries_of_alike {types : List (String × Json)} {added : List (String × Registration)}
    (apart : (types.map (·.1)).Nodup) (alike : List.Forall₂ SavedAs types added) :
    Json.SameEntries types
      (added.map fun (name, registration) => (name, registration.stored.toJson)) := by
  have names : added.map (·.1) = types.map (·.1) := by
    induction alike with
    | nil => rfl
    | cons pair others ih =>
        rw [List.map_cons, List.map_cons, pair.1, ih (List.nodup_cons.mp apart).2]
  refine Json.sameEntries_iff.mpr fun type member => ?_
  obtain ⟨n, bound, rfl⟩ := List.getElem_of_mem member
  have inside : n < added.length := alike.length_eq ▸ bound
  obtain ⟨named, same⟩ := alike.get bound inside
  refine ⟨_, ?_, same⟩
  have found := Fields.find?_of_mem (names ▸ apart) (List.getElem_mem inside)
  rw [Fields.find?_map fun _ (registration : Registration) => registration.stored.toJson,
    show types[n].1 = added[n].1 from named, found]
  rfl

/-- Uniform definitions can be loaded, and are written as they were read. -/
theorem load_uniform {types : List (String × Json)} (apart : (types.map (·.1)).Nodup)
    (uniform : ∀ entry ∈ types, UniformType entry.2) :
    ∃ r, load (.object types) [] = .ok r ∧ Json.Same (.object types) r.toJson := by
  obtain ⟨added, loaded, alike⟩ := load_types (r := .empty) apart uniform
  refine ⟨⟨added⟩, loaded, ?_⟩
  rw [Registry.toJson, Json.Same]
  exact ⟨by simpa using alike.length_eq, sameEntries_of_alike apart alike⟩

/-- Two ships with their fields in different orders, one without a name and one without a crew. -/
def fleet : List Json :=
  [.object [("ShipId", .int 1), ("Name", .null), ("Crew", .list [.object [("Rank", .text "Mate")]])],
    .object [("Name", .text "Bob"), ("Crew", .list []), ("ShipId", .int 2)]]

def manifest : List (String × Json) :=
  [("Ship", .list fleet), ("Harbour", .object [("Depth", .float 2.5)])]

theorem fleet_uniform : Uniform fleet := by
  refine .objects ["ShipId", "Name", "Crew"] (by decide) ?_ ?_
  · intro v member
    rcases List.mem_cons.mp member with rfl | member
    · exact .inr ⟨_, rfl, by decide⟩
    · rw [List.mem_singleton.mp member]
      exact .inr ⟨_, rfl, by decide⟩
  · have entries : fleet.filterMap Json.entries? =
        [[("ShipId", .int 1), ("Name", .null), ("Crew", .list [.object [("Rank", .text "Mate")]])],
          [("Name", .text "Bob"), ("Crew", .list []), ("ShipId", .int 2)]] := rfl
    rw [entries]
    simp only [List.forall_mem_cons, List.filterMap_cons, List.filterMap_nil, Fields.find?_cons,
      String.reduceEq, ↓reduceIte]
    refine ⟨.scalars (.integer 64 true) ?_, .scalars .text ?_, .lists ?_ ?_, List.forall_mem_nil _⟩
    · simp [Json.scalar?, Datum.leastInt, Datum.greatestInt]
    · simp [Json.scalar?]
    · simp
    · refine .objects ["Rank"] (by decide) ?_ ?_
      · simp [Json.items?]
      · simp [Json.items?, Json.entries?, Fields.find?_cons]
        exact .scalars .text (by simp [Json.scalar?])

theorem manifest_uniform : ∀ entry ∈ manifest, UniformType entry.2 := by
  have harbour : UniformType (.object [("Depth", .float 2.5)]) := by
    refine .objects ["Depth"] (by decide) ?_ ?_
    · simp
    · simp [Json.entries?, Fields.find?_cons]
      exact .scalars .double (by simp [Json.scalar?])
  have ships : UniformType (.list fleet) := ⟨by simp [fleet], fleet_uniform⟩
  simp [manifest, harbour, ships]

theorem load_uniform_manifest :
    (manifest.map (·.1)).Nodup ∧ (∀ entry ∈ manifest, UniformType entry.2) ∧
    ∃ r, load (.object manifest) [] = .ok r ∧ Json.Same (.object manifest) r.toJson := by
  have apart : (manifest.map (·.1)).Nodup := by decide
  exact ⟨apart, manifest_uniform, load_uniform apart manifest_uniform⟩

end Definitions

end Emend
