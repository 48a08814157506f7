import Emend.Fields

/-!
Entries looked up after one of them was replaced or added.
-/

set_option autoImplicit false

namespace Emend.Fields

variable {α : Type}

@[simp] theorem find?_nil (name : String) : find? name ([] : List (String × α)) = none := rfl

theorem find?_cons (name key : String) (value : α) (rest : List (String × α)) :
    find? name ((key, value) :: rest) = if name = key then some value else find? name rest := by
  unfold find?
  rw [List.lookup_cons]
  by_cases same : name = key
  · simp [same]
  · have differ : (name == key) = false := by simpa using same
    simp only [differ, same, ↓reduceIte]

theorem find?_put_self (name : String) (value : α) (entries : List (String × α)) :
    find? name (put name value entries) = some value := by
  induction entries with
  | nil => simp [put, find?_cons]
  | cons entry rest ih =>
      obtain ⟨key, old⟩ := entry
      unfold put
      split
      · rename_i same
        rw [find?_cons, if_pos same.symm]
      · rename_i other
        rw [find?_cons, if_neg (fun same => other same.symm), ih]

theorem find?_put_other (name other : String) (value : α) (entries : List (String × α))
    (differ : other ≠ name) : find? other (put name value entries) = find? other entries := by
  induction entries with
  | nil => simp [put, find?_cons, differ]
  | cons entry rest ih =>
      obtain ⟨key, old⟩ := entry
      unfold put
      split
      · rename_i same
        rw [find?_cons, find?_cons, if_neg (same ▸ differ), if_neg (same ▸ differ)]
      · rw [find?_cons, find?_cons, ih]

theorem find?_put (name other : String) (value : α) (entries : List (String × α)) :
    find? other (put name value entries) =
      if other = name then some value else find? other entries := by
  split
  · rename_i same
    rw [same, find?_put_self]
  · rename_i differ
    exact find?_put_other name other value entries differ

theorem names_put (name : String) (value : α) (entries : List (String × α))
    (present : (find? name entries).isSome) :
    (put name value entries).map (·.1) = entries.map (·.1) := by
  induction entries with
  | nil => cases present
  | cons entry rest ih =>
      obtain ⟨key, old⟩ := entry
      unfold put
      split
      · rfl
      · rename_i other
        rw [find?_cons, if_neg (fun same => other same.symm)] at present
        simp only [List.map_cons, ih present]

theorem mem_put {name : String} {value : α} {entries : List (String × α)} {entry : String × α}
    (member : entry ∈ put name value entries) : entry = (name, value) ∨ entry ∈ entries := by
  induction entries with
  | nil => exact .inl (by simpa [put] using member)
  | cons first rest ih =>
      obtain ⟨key, old⟩ := first
      unfold put at member
      split at member
      · rename_i same
        rcases List.mem_cons.mp member with rfl | later
        · exact .inl (by rw [same])
        · exact .inr (List.mem_cons_of_mem _ later)
      · rcases List.mem_cons.mp member with rfl | later
        · exact .inr List.mem_cons_self
        · exact (ih later).imp_right (List.mem_cons_of_mem _)

theorem mem_of_find? {name : String} {value : α} {entries : List (String × α)}
    (found : find? name entries = some value) : (name, value) ∈ entries := by
  induction entries with
  | nil => cases found
  | cons entry rest ih =>
      obtain ⟨key, old⟩ := entry
      rw [find?_cons] at found
      split at found
      · rename_i same
        cases found
        rw [same]
        exact List.mem_cons_self
      · exact List.mem_cons_of_mem _ (ih found)

theorem put_of_find? {name : String} {value : α} {entries : List (String × α)}
    (found : find? name entries = some value) : put name value entries = entries := by
  induction entries with
  | nil => cases found
  | cons entry rest ih =>
      obtain ⟨key, old⟩ := entry
      rw [find?_cons] at found
      unfold put
      split at found
      · rename_i same
        cases found
        rw [if_pos same.symm]
      · rename_i other
        rw [if_neg (Ne.symm other), ih found]

theorem find?_put_of_not {p : String × α → Bool} {name : String} {value : α}
    (entries : List (String × α)) (unlike : ∀ x, p (name, x) = false) :
    (put name value entries).find? p = entries.find? p := by
  induction entries with
  | nil => simp [put, unlike]
  | cons entry rest ih =>
      obtain ⟨key, old⟩ := entry
      unfold put
      split
      · rename_i same
        subst same
        rw [List.find?_cons, List.find?_cons, unlike, unlike]
      · rw [List.find?_cons, List.find?_cons, ih]

theorem findAnyCase?_put {name other : String} (value : α) (entries : List (String × α))
    (differ : Text.sameName name other = false) :
    findAnyCase? other (put name value entries) = findAnyCase? other entries := by
  have inexact : other ≠ name := by
    rintro rfl
    simp [Text.sameName] at differ
  unfold findAnyCase?
  rw [find?_put_other name other value entries inexact,
    find?_put_of_not entries fun _ => differ]

theorem find?_put_of_only {p : String × α → Bool} {name : String} {value : α}
    {entries : List (String × α)} (unlike : ∀ entry ∈ entries, p entry = false)
    (alike : p (name, value)) : (put name value entries).find? p = some (name, value) := by
  induction entries with
  | nil => simp [put, alike]
  | cons entry rest ih =>
      obtain ⟨key, old⟩ := entry
      unfold put
      split
      · rename_i same
        rw [same, List.find?_cons, alike]
      · rw [List.find?_cons, unlike _ List.mem_cons_self]
        exact ih fun later member => unlike later (List.mem_cons_of_mem _ member)

theorem findAnyCase?_eq_none {name : String} {entries : List (String × α)}
    (unlike : ∀ entry ∈ entries, Text.sameName entry.1 name = false) :
    findAnyCase? name entries = none := by
  have inexact : find? name entries = none := by
    cases found : find? name entries with
    | none => rfl
    | some value =>
        have other := unlike _ (mem_of_find? found)
        simp [Text.sameName] at other
  unfold findAnyCase?
  rw [inexact, Option.none_or, Option.map_eq_none_iff, List.find?_eq_none]
  intro entry member
  rw [unlike entry member]
  exact Bool.false_ne_true

theorem isSome_findAnyCase? (name : String) (entries : List (String × α)) :
    (findAnyCase? name entries).isSome = (entries.map (·.1)).any (Text.sameName · name) := by
  rw [List.any_map]
  cases like : entries.any fun entry => Text.sameName entry.1 name with
  | false =>
      rw [findAnyCase?_eq_none fun entry member => ?_]
      · exact like.symm
      · simpa using List.any_eq_false.mp like entry member
  | true =>
      unfold findAnyCase?
      rw [Option.isSome_or, Option.isSome_map, List.isSome_find?, like, Bool.or_true]
      exact like.symm

theorem findAnyCase?_put_of_only {name other : String} {value : α} {entries : List (String × α)}
    (unlike : ∀ entry ∈ entries, Text.sameName entry.1 other = false)
    (alike : Text.sameName name other) :
    findAnyCase? other (put name value entries) = some value := by
  have inexact : find? other entries = none := by
    have absent := findAnyCase?_eq_none unlike
    unfold findAnyCase? at absent
    exact (Option.or_eq_none_iff.mp absent).1
  unfold findAnyCase?
  rw [find?_put, inexact, find?_put_of_only unlike alike]
  split <;> rfl

theorem findAnyCase?_put_self (name : String) (value : α) (entries : List (String × α)) :
    findAnyCase? name (put name value entries) = some value := by
  unfold findAnyCase?
  rw [find?_put_self, Option.some_or]

def putAll (written entries : List (String × α)) : List (String × α) :=
  written.foldl (fun entries entry => put entry.1 entry.2 entries) entries

theorem putAll_cons (name : String) (value : α) (written entries : List (String × α)) :
    putAll ((name, value) :: written) entries = putAll written (put name value entries) := rfl

theorem find?_putAll_other {name : String} {written : List (String × α)}
    (entries : List (String × α)) (absent : name ∉ written.map (·.1)) :
    find? name (putAll written entries) = find? name entries := by
  induction written generalizing entries with
  | nil => rfl
  | cons entry rest ih =>
      obtain ⟨differ, later⟩ := not_or.mp (mt List.mem_cons.mpr absent)
      rw [putAll_cons, ih _ later, find?_put_other _ _ _ _ differ]

theorem isSome_find?_putAll {name : String} {written : List (String × α)}
    (entries : List (String × α))
    (given : name ∈ written.map (·.1) ∨ (find? name entries).isSome) :
    (find? name (putAll written entries)).isSome := by
  induction written generalizing entries with
  | nil => exact given.resolve_left List.not_mem_nil
  | cons entry rest ih =>
      rw [putAll_cons]
      apply ih
      rw [find?_put]
      split
      · exact .inr rfl
      · rename_i differ
        exact given.imp_left fun member => (List.mem_cons.mp member).resolve_left differ

/-- The first entry takes what is written under its name; all else goes to the others. -/
theorem exists_putAll_cons (written : List (String × α)) (key : String) (old : α)
    (rest : List (String × α)) :
    ∃ value, putAll written ((key, old) :: rest) =
      (key, value) :: putAll (written.filter (·.1 ≠ key)) rest := by
  induction written generalizing old rest with
  | nil => exact ⟨old, rfl⟩
  | cons entry others ih =>
      obtain ⟨name, value⟩ := entry
      rw [putAll_cons]
      unfold put
      by_cases same : key = name
      · rw [if_pos same, List.filter_cons_of_neg (by simpa using same.symm)]
        exact ih value rest
      · rw [if_neg same, List.filter_cons_of_pos (by simpa using Ne.symm same)]
        exact ih old (put name value rest)

/-- Nothing changes where every name that is written is there and is found with what it had. -/
theorem putAll_self {written entries : List (String × α)}
    (present : ∀ name ∈ written.map (·.1), (find? name entries).isSome)
    (same : ∀ name, find? name (putAll written entries) = find? name entries) :
    putAll written entries = entries := by
  induction entries generalizing written with
  | nil =>
      cases written with
      | nil => rfl
      | cons entry rest => cases present entry.1 List.mem_cons_self
  | cons entry rest ih =>
      obtain ⟨key, old⟩ := entry
      obtain ⟨value, split⟩ := exists_putAll_cons written key old rest
      rw [split] at same ⊢
      have first := same key
      rw [find?_cons, find?_cons, if_pos rfl, if_pos rfl] at first
      have apart : key ∉ (written.filter (·.1 ≠ key)).map (·.1) := by simp
      rw [Option.some.inj first, ih ?_ ?_]
      · intro name member
        obtain ⟨entry, inside, rfl⟩ := List.mem_map.mp member
        obtain ⟨inside, differ⟩ := List.mem_filter.mp inside
        have there := present _ (List.mem_map_of_mem inside)
        rwa [find?_cons, if_neg (by simpa using differ)] at there
      · intro name
        by_cases here : name = key
        · rw [here, find?_putAll_other rest apart]
        · have there := same name
          rwa [find?_cons, find?_cons, if_neg here, if_neg here] at there

theorem find?_eq_none {name : String} {entries : List (String × α)} :
    find? name entries = none ↔ name ∉ entries.map (·.1) := by
  induction entries with
  | nil => simp
  | cons entry rest ih =>
      rw [find?_cons, List.map_cons, List.mem_cons, not_or, ← ih]
      by_cases same : name = entry.1 <;> simp [same]

theorem isSome_find?_iff {name : String} {entries : List (String × α)} :
    (find? name entries).isSome ↔ name ∈ entries.map (·.1) := by
  rw [← Option.ne_none_iff_isSome, Ne, find?_eq_none, Decidable.not_not]

theorem put_of_absent {name : String} (value : α) {entries : List (String × α)}
    (absent : name ∉ entries.map (·.1)) : put name value entries = entries ++ [(name, value)] := by
  induction entries with
  | nil => rfl
  | cons entry rest ih =>
      obtain ⟨differ, later⟩ := not_or.mp (mt List.mem_cons.mpr absent)
      rw [put, if_neg (Ne.symm differ), ih later, List.cons_append]

theorem mem_names_put {name other : String} (value : α) {entries : List (String × α)} :
    other ∈ (put name value entries).map (·.1) ↔ other = name ∨ other ∈ entries.map (·.1) := by
  rw [← isSome_find?_iff, ← isSome_find?_iff, find?_put]
  by_cases same : other = name <;> simp [same]

theorem put_apart (name : String) (value : α) {entries : List (String × α)}
    (apart : (entries.map (·.1)).Nodup) : ((put name value entries).map (·.1)).Nodup := by
  by_cases present : name ∈ entries.map (·.1)
  · rwa [names_put _ _ _ (isSome_find?_iff.mpr present)]
  · rw [put_of_absent value present, List.map_append]
    refine List.nodup_append.mpr ⟨apart, List.pairwise_singleton _ _, ?_⟩
    rintro other member _ (_ | ⟨_, ⟨⟩⟩) rfl
    exact present member

theorem find?_map {β : Type} (f : String → α → β) (name : String) (entries : List (String × α)) :
    find? name (entries.map fun entry => (entry.1, f entry.1 entry.2)) =
      (find? name entries).map (f name) := by
  induction entries with
  | nil => rfl
  | cons entry rest ih =>
      rw [List.map_cons, find?_cons, find?_cons, ih]
      by_cases same : name = entry.1 <;> simp [same]

theorem find?_of_mem {entry : String × α} {entries : List (String × α)}
    (apart : (entries.map (·.1)).Nodup) (member : entry ∈ entries) :
    find? entry.1 entries = some entry.2 := by
  induction entries with
  | nil => cases member
  | cons first rest ih =>
      obtain ⟨differ, later⟩ := List.nodup_cons.mp apart
      rw [find?_cons]
      rcases List.mem_cons.mp member with rfl | member
      · rw [if_pos rfl]
      · rw [if_neg, ih later member]
        exact fun same => differ (List.mem_map.mpr ⟨entry, member, same⟩)

theorem putAll_of_apart {written entries : List (String × α)}
    (apart : ((entries ++ written).map (·.1)).Nodup) : putAll written entries = entries ++ written := by
  induction written generalizing entries with
  | nil => exact (List.append_nil entries).symm
  | cons entry rest ih =>
      have absent : entry.1 ∉ entries.map (·.1) := by
        intro member
        rw [List.map_append, List.map_cons] at apart
        exact (List.nodup_append.mp apart).2.2 _ member _ List.mem_cons_self rfl
      rw [putAll_cons, put_of_absent entry.2 absent, ih (by simpa using apart)]
      simp

theorem ofList_of_apart {entries : List (String × α)} (apart : (entries.map (·.1)).Nodup) :
    ofList entries = entries := putAll_of_apart apart

theorem find?_putAll_of_mem {written : List (String × α)} {entry : String × α}
    (entries : List (String × α)) (apart : (written.map (·.1)).Nodup) (member : entry ∈ written) :
    find? entry.1 (putAll written entries) = some entry.2 := by
  induction written generalizing entries with
  | nil => cases member
  | cons first rest ih =>
      obtain ⟨differ, later⟩ := List.nodup_cons.mp apart
      rw [putAll_cons]
      rcases List.mem_cons.mp member with rfl | member
      · rw [find?_putAll_other _ differ, find?_put_self]
      · exact ih _ later member

theorem names_putAll {written entries : List (String × α)}
    (present : ∀ name ∈ written.map (·.1), name ∈ entries.map (·.1)) :
    (putAll written entries).map (·.1) = entries.map (·.1) := by
  induction written generalizing entries with
  | nil => rfl
  | cons first rest ih =>
      obtain ⟨here, later⟩ := List.forall_mem_cons.mp present
      have kept := names_put first.1 first.2 entries (isSome_find?_iff.mpr here)
      rw [putAll_cons, ih (by rwa [kept]), kept]

section
variable {written others : List (String × α)} (perm : written.Perm others)
  (apart : (written.map (·.1)).Nodup)
include perm apart

theorem find?_putAll_perm (name : String) (entries : List (String × α)) :
    find? name (putAll others entries) = find? name (putAll written entries) := by
  by_cases given : name ∈ written.map (·.1)
  · obtain ⟨entry, member, rfl⟩ := List.mem_map.mp given
    rw [find?_putAll_of_mem entries apart member,
      find?_putAll_of_mem entries ((perm.map _).nodup_iff.mp apart) (perm.mem_iff.mp member)]
  · rw [find?_putAll_other entries given,
      find?_putAll_other entries (mt (perm.map _).mem_iff.mpr given)]

/-- Only the entries that are added come in another order. -/
theorem putAll_perm (entries : List (String × α)) :
    (putAll written entries).Perm (putAll others entries) := by
  induction entries generalizing written others with
  | nil =>
      rw [putAll_of_apart apart, putAll_of_apart ((perm.map _).nodup_iff.mp apart)]
      exact perm
  | cons entry rest ih =>
      obtain ⟨key, old⟩ := entry
      obtain ⟨value, first⟩ := exists_putAll_cons written key old rest
      obtain ⟨other, second⟩ := exists_putAll_cons others key old rest
      have same := find?_putAll_perm perm apart key ((key, old) :: rest)
      rw [first, second, find?_cons, find?_cons, if_pos rfl, if_pos rfl] at same
      rw [first, second, Option.some.inj same]
      exact (ih (perm.filter _) (apart.sublist (List.filter_sublist.map _))).cons _

end

end Emend.Fields
