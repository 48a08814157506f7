import Emend.Collection.Rebuild

/-!
A rebuilt collection: sorting only moves its records, each has a slot of its own, and the index
leads from a key to the first slot whose record has it.
-/

set_option autoImplicit false

namespace Emend

namespace IdentityIndex

theorem get?_erase (index : IdentityIndex) (key other : IdentityKey) :
    (index.erase key).get? other = if other = key then none else index.get? other := by
  induction index with
  | nil => simp [erase, get?]
  | cons entry rest ih =>
      obtain ⟨first, slot⟩ := entry
      unfold erase get? at ih ⊢
      rw [List.filter_cons]
      by_cases dropped : first = key
      · have kept : (first != key) = false := by simpa using dropped
        simp only [kept, Bool.false_eq_true, ↓reduceIte, ih, List.lookup_cons]
        by_cases same : other = key
        · simp only [same, ↓reduceIte]
        · have differ : (other == first) = false := by simpa [dropped] using same
          simp only [same, ↓reduceIte, differ]
      · have kept : (first != key) = true := by simpa using dropped
        simp only [kept, ↓reduceIte, List.lookup_cons, ih]
        by_cases same : other = first
        · have differ : ¬ other = key := fun equal => dropped (same ▸ equal)
          simp [same, dropped]
        · have differ : (other == first) = false := by simpa using same
          simp only [differ]

theorem get?_insert (index : IdentityIndex) (key other : IdentityKey) (slot : Nat) :
    (index.insert key slot).get? other = if other = key then some slot else index.get? other := by
  unfold insert
  change List.lookup other ((key, slot) :: index.erase key) = _
  rw [List.lookup_cons]
  by_cases same : other = key
  · simp [same]
  · have differ : (other == key) = false := by simpa using same
    have rest := get?_erase index key other
    simp only [same, ↓reduceIte] at rest
    simp only [differ, same, ↓reduceIte]
    exact rest

end IdentityIndex

namespace Collection

theorem insertBackwards_perm (before : Record → Record → Bool) (r : Record)
    (records : List Record) : (insertBackwards before r records).Perm (r :: records) := by
  induction records with
  | nil => exact .refl _
  | cons last rest ih =>
      unfold insertBackwards
      split
      · exact (ih.cons last).trans (.swap r last rest)
      · exact .refl _

theorem foldl_insertBackwards_perm (before : Record → Record → Bool)
    (records sorted : List Record) :
    (records.foldl (fun sorted r => insertBackwards before r sorted) sorted).Perm
      (records ++ sorted) := by
  induction records generalizing sorted with
  | nil => exact .refl _
  | cons r rest ih =>
      have inserted := (insertBackwards_perm before r sorted).append_left rest
      exact (ih _).trans (inserted.trans List.perm_middle)

theorem sortRecords_perm (before : Record → Record → Bool) (records : List Record) :
    (sortRecords before records).Perm records := by
  have folded := foldl_insertBackwards_perm before records []
  rw [List.append_nil] at folded
  exact (List.reverse_perm _).trans folded

theorem sorted_perm (c : Collection) : c.sorted.Perm c.records := sortRecords_perm _ _

/-- A slot entered earlier stays; of the records still to come the first one with a key gives its
slot. -/
theorem get?_indexFrom (c : Collection) (key : IdentityKey) (records : List Record) (slot : Nat)
    (done : Indexing) :
    (c.indexFrom slot done records).index.get? key =
      (done.index.get? key).or
        ((records.findIdx? fun r => c.keyOf? r = some key).map (slot + ·)) := by
  induction records generalizing slot done with
  | nil => simp [indexFrom]
  | cons r rest ih =>
      unfold indexFrom
      rw [ih, List.findIdx?_cons]
      have shifted : ∀ later : Option Nat,
          later.map (slot + 1 + ·) = (later.map (· + 1)).map (slot + ·) := by
        intro later
        cases later with
        | none => rfl
        | some n => simp only [Option.map_some, Option.some.injEq]; omega
      rw [shifted]
      cases first : c.keyOf? r with
      | none => simp
      | some taken =>
          by_cases same : taken = key
          · subst same
            cases entered : done.index.get? taken with
            | none => simp [entered, IdentityIndex.get?_insert]
            | some old => simp [entered]
          · have other : ¬ key = taken := fun equal => same equal.symm
            cases entered : done.index.get? taken with
            | none => simp [entered, IdentityIndex.get?_insert, other, same]
            | some old => simp [entered, same]

def keyAt? (c : Collection) (slot : Nat) : Option IdentityKey := (c.get? slot).bind c.keyOf?

def Compact (c : Collection) : Prop := c.slotCount = c.size

/-- The index has a key if and only if a record has it, and then leads to the lowest slot of
such a record. -/
def Exact (c : Collection) : Prop :=
  ∀ identity key, IdentityKey.ofDatum? identity = some key →
    (∀ slot, c.getIndex? identity = some slot ↔
      c.keyAt? slot = some key ∧ ∀ lower < slot, c.keyAt? lower ≠ some key) ∧
    (c.getIndex? identity = none ↔ ∀ r ∈ c.records, c.keyOf? r ≠ some key)

theorem rebuild_identity (c : Collection) : c.rebuild.2.identity = c.identity := by
  obtain ⟨identity, slots⟩ := c
  cases slots <;> rfl

theorem rebuild_isIndexed (c : Collection) : c.rebuild.2.isIndexed = c.isIndexed := by
  obtain ⟨identity, slots⟩ := c
  cases slots <;> rfl

section
variable {c : Collection} (indexed : c.isIndexed)
include indexed

theorem rebuild_eq : c.rebuild.2 =
    ⟨c.identity, .indexed (c.sorted.map some) (c.indexFrom 0 ⟨[], 0, 0⟩ c.sorted).index⟩ := by
  obtain ⟨identity, slots⟩ := c
  cases slots with
  | ordered records => cases indexed
  | indexed slots index => rfl

theorem rebuild_records : c.rebuild.2.records = c.sorted := by
  rw [rebuild_eq indexed]
  simp [records, cells]

theorem rebuild_records_perm : c.rebuild.2.records.Perm c.records := by
  rw [rebuild_records indexed]
  exact sorted_perm c

theorem rebuild_compact : c.rebuild.2.Compact := by
  rw [Compact, size, rebuild_records indexed, slotCount, rebuild_eq indexed]
  simp [cells]

theorem rebuild_keyOf? (r : Record) : c.rebuild.2.keyOf? r = c.keyOf? r := by
  rw [rebuild_eq indexed]
  rfl

theorem rebuild_keyAt? (slot : Nat) :
    c.rebuild.2.keyAt? slot = (c.sorted[slot]?).bind c.keyOf? := by
  have kept : c.rebuild.2.keyOf? = c.keyOf? := funext (rebuild_keyOf? indexed)
  rw [keyAt?, kept, rebuild_eq indexed]
  simp only [get?, cells, List.getElem?_map]
  cases c.sorted[slot]? <;> rfl

theorem rebuild_getIndex? (identity : Datum) (key : IdentityKey)
    (keyed : IdentityKey.ofDatum? identity = some key) :
    c.rebuild.2.getIndex? identity = c.sorted.findIdx? fun r => c.keyOf? r = some key := by
  rw [rebuild_eq indexed]
  simp only [getIndex?, keyed, Option.bind_some]
  rw [get?_indexFrom]
  simp [IdentityIndex.get?]

theorem rebuild_exact : c.rebuild.2.Exact := by
  intro identity key keyed
  rw [rebuild_getIndex? indexed identity key keyed]
  constructor
  · intro slot
    rw [List.findIdx?_eq_some_iff_getElem, rebuild_keyAt? indexed]
    constructor
    · rintro ⟨inside, here, below⟩
      refine ⟨by simpa [List.getElem?_eq_getElem inside] using here, ?_⟩
      intro lower less
      have absent := below lower less
      rw [rebuild_keyAt? indexed, List.getElem?_eq_getElem (by omega)]
      simpa using absent
    · rintro ⟨here, below⟩
      obtain ⟨r, found, same⟩ := Option.bind_eq_some_iff.mp here
      obtain ⟨inside, rfl⟩ := List.getElem?_eq_some_iff.mp found
      refine ⟨inside, by simpa using same, ?_⟩
      intro lower less
      have absent := below lower less
      rw [rebuild_keyAt? indexed, List.getElem?_eq_getElem (by omega)] at absent
      simpa using absent
  · rw [List.findIdx?_eq_none_iff, rebuild_records indexed]
    simp only [decide_eq_false_iff_not, rebuild_keyOf? indexed, ne_eq]

end

end Collection

end Emend
