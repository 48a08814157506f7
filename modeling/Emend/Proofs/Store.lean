import Emend.Proofs.Fields
import Emend.Store

/-!
Variables looked up after one of them was set or removed. Setting works in any list of entries;
that a removed variable is gone needs the names to be different, as they are in a sorted store.
-/

set_option autoImplicit false

namespace Emend.Store

theorem find?_putSorted (name other : String) (value : Value) (entries : List (String × Value)) :
    Fields.find? other (putSorted name value entries) =
      if other = name then some value else Fields.find? other entries := by
  induction entries with
  | nil => rw [putSorted, Fields.find?_cons]
  | cons entry rest ih =>
      obtain ⟨key, old⟩ := entry
      unfold putSorted
      split
      · rename_i same
        rw [Fields.find?_cons, Fields.find?_cons, same]
        split <;> rfl
      · split
        · rw [Fields.find?_cons]
        · rename_i differ _
          rw [Fields.find?_cons, Fields.find?_cons, ih]
          by_cases first : other = key
          · rw [if_pos first, if_pos first, if_neg (first ▸ differ)]
          · rw [if_neg first, if_neg first]

theorem get?_insert (s : Store) (name other : String) (value : Value) :
    (s.insert name value).get? other = if other = name then some value else s.get? other :=
  find?_putSorted name other value s.entries

/-- The names come in their order, each of them once. -/
def Sorted (s : Store) : Prop := s.entries.Pairwise fun a b => a.1 < b.1

theorem empty_sorted : empty.Sorted := List.Pairwise.nil

theorem mem_putSorted {name : String} {value : Value} {entries : List (String × Value)}
    {entry : String × Value} (member : entry ∈ putSorted name value entries) :
    entry = (name, value) ∨ entry ∈ entries := by
  induction entries with
  | nil => exact .inl (List.mem_singleton.mp member)
  | cons first rest ih =>
      obtain ⟨key, old⟩ := first
      unfold putSorted at member
      split at member
      · exact (List.mem_cons.mp member).imp_right (List.mem_cons_of_mem _)
      · split at member
        · exact List.mem_cons.mp member
        · rcases List.mem_cons.mp member with rfl | later
          · exact .inr List.mem_cons_self
          · exact (ih later).imp_right (List.mem_cons_of_mem _)

theorem putSorted_sorted (name : String) (value : Value) {entries : List (String × Value)}
    (sorted : entries.Pairwise fun a b => a.1 < b.1) :
    (putSorted name value entries).Pairwise fun a b => a.1 < b.1 := by
  induction entries with
  | nil => exact List.pairwise_singleton _ _
  | cons first rest ih =>
      obtain ⟨key, old⟩ := first
      obtain ⟨least, others⟩ := List.pairwise_cons.mp sorted
      unfold putSorted
      split
      · rename_i same
        subst same
        exact List.pairwise_cons.mpr ⟨least, others⟩
      · rename_i differ
        split
        · rename_i before
          refine List.pairwise_cons.mpr ⟨?_, sorted⟩
          intro entry member
          rcases List.mem_cons.mp member with rfl | later
          · exact before
          · exact String.lt_trans before (least entry later)
        · rename_i after
          refine List.pairwise_cons.mpr ⟨?_, ih others⟩
          intro entry member
          rcases mem_putSorted member with rfl | later
          · exact Std.lt_of_le_of_ne (String.not_lt.mp after) differ
          · exact least entry later

theorem Sorted.insert {s : Store} (sorted : s.Sorted) (name : String) (value : Value) :
    (s.insert name value).Sorted := putSorted_sorted name value sorted

theorem Sorted.getOrInsert {s : Store} (sorted : s.Sorted) (name : String) (value : Value) :
    (s.getOrInsert name value).2.Sorted := by
  unfold Store.getOrInsert
  split
  · exact sorted
  · exact sorted.insert name value

theorem erase_sublist (name : String) (entries : List (String × Value)) :
    (Fields.erase name entries).Sublist entries := by
  induction entries with
  | nil => exact .slnil
  | cons first rest ih =>
      unfold Fields.erase
      split
      · exact .cons _ (.refl _)
      · exact ih.cons_cons _

theorem Sorted.erase {s : Store} (sorted : s.Sorted) (name : String) : (s.erase name).Sorted :=
  List.Pairwise.sublist (erase_sublist name s.entries) sorted

theorem find?_eq_none_of_lt {name : String} {entries : List (String × Value)}
    (greater : ∀ entry ∈ entries, name < entry.1) : Fields.find? name entries = none := by
  cases found : Fields.find? name entries with
  | none => rfl
  | some value =>
      exact absurd (greater _ (Fields.mem_of_find? found)) (String.lt_irrefl name)

theorem find?_erase (name other : String) {entries : List (String × Value)}
    (sorted : entries.Pairwise fun a b => a.1 < b.1) :
    Fields.find? other (Fields.erase name entries) =
      if other = name then none else Fields.find? other entries := by
  induction entries with
  | nil => simp [Fields.erase]
  | cons first rest ih =>
      obtain ⟨key, old⟩ := first
      obtain ⟨least, others⟩ := List.pairwise_cons.mp sorted
      unfold Fields.erase
      split
      · rename_i same
        subst same
        rw [Fields.find?_cons]
        by_cases removed : other = key
        · rw [if_pos removed, removed, find?_eq_none_of_lt least]
        · rw [if_neg removed, if_neg removed]
      · rename_i differ
        rw [Fields.find?_cons, Fields.find?_cons, ih others]
        by_cases here : other = key
        · rw [if_pos here, if_pos here, if_neg (here ▸ differ)]
        · rw [if_neg here, if_neg here]

theorem get?_erase {s : Store} (sorted : s.Sorted) (name other : String) :
    (s.erase name).get? other = if other = name then none else s.get? other :=
  find?_erase name other sorted

/-- Asking for a variable either finds it or sets it. -/
theorem getOrInsert_get? (s : Store) (name other : String) (value : Value) :
    (s.getOrInsert name value).2.get? other =
      if other = name ∧ s.get? name = none then some value else s.get? other := by
  unfold getOrInsert
  cases present : s.get? name with
  | some old => simp
  | none => simp [get?_insert]

theorem ofList_sorted (given : List (String × Value)) : (ofList given).Sorted := by
  have each (s : Store) (sorted : s.Sorted) :
      (given.foldl (fun s entry => s.insert entry.1 entry.2) s).Sorted := by
    induction given generalizing s with
    | nil => exact sorted
    | cons entry rest ih => exact ih _ (sorted.insert entry.1 entry.2)
  exact each empty empty_sorted

end Emend.Store
