import Emend.Proofs.Collection.Distinct

/-!
Records taken out one after the other, the last one first. The slots of the records that come before
are then still what they were when the records were chosen, whether later records move up or leave
an empty slot behind.
-/

set_option autoImplicit false

namespace Emend.Collection

/-- The cells without the record of a slot: of an indexed collection the slot stays. -/
def vacate (indexed : Bool) (cells : List (Option Record)) (slot : Nat) : List (Option Record) :=
  if indexed then cells.set slot none else cells.eraseIdx slot

/-- The cells without the records on which `p` is true. -/
def leave (indexed : Bool) (p : Record → Bool) (cells : List (Option Record)) :
    List (Option Record) :=
  if indexed then cells.map (Option.filter (!p ·)) else cells.filter (Option.all (!p ·))

section
variable (indexed : Bool) (cell : Option Record) (cells : List (Option Record))

theorem vacate_zero : vacate indexed (cell :: cells) 0 = if indexed then none :: cells else cells :=
  rfl

theorem vacate_succ (slot : Nat) :
    vacate indexed (cell :: cells) (slot + 1) = cell :: vacate indexed cells slot := by
  cases indexed <;> rfl

theorem vacate_outside {slot : Nat} (empty : (cells[slot]?).join = none)
    (dense : indexed = false → ∀ cell ∈ cells, cell.isSome) :
    vacate indexed cells slot = cells := by
  rw [Option.join_eq_none_iff] at empty
  cases indexed with
  | true =>
      rcases empty with outside | here
      · exact List.set_eq_of_length_le (List.getElem?_eq_none_iff.mp outside)
      · obtain ⟨inside, here⟩ := List.getElem?_eq_some_iff.mp here
        change cells.set slot none = cells
        rw [← here, List.set_getElem_self]
  | false =>
      rcases empty with outside | here
      · exact List.eraseIdx_of_length_le (List.getElem?_eq_none_iff.mp outside)
      · cases dense rfl none (List.mem_of_getElem? here)

variable {p : Record → Bool}

theorem leave_vacant : leave indexed p (none :: cells) = none :: leave indexed p cells := by
  cases indexed <;> rfl

theorem leave_chosen {r : Record} (chosen : p r = true) :
    leave indexed p (some r :: cells) =
      if indexed then none :: leave indexed p cells else leave indexed p cells := by
  cases indexed <;> simp [leave, Option.filter, chosen]

theorem leave_spared {r : Record} (spared : p r = false) :
    leave indexed p (some r :: cells) = some r :: leave indexed p cells := by
  cases indexed <;> simp [leave, Option.filter, spared]

theorem filterMap_leave :
    (leave indexed p cells).filterMap id = (cells.filterMap id).filter (!p ·) := by
  induction cells with
  | nil => cases indexed <;> rfl
  | cons cell rest ih =>
      cases cell with
      | none => rw [leave_vacant, List.filterMap_cons_none rfl, ih, List.filterMap_cons_none rfl]
      | some r =>
          have first (cells : List (Option Record)) :
              (some r :: cells).filterMap id = r :: cells.filterMap id := rfl
          cases chosen : p r with
          | true =>
              rw [leave_chosen indexed rest chosen, first,
                List.filter_cons_of_neg (by simp [chosen]), ← ih]
              cases indexed <;> rfl
          | false =>
              rw [leave_spared indexed rest chosen, first, first,
                List.filter_cons_of_pos (by simp [chosen]), ih]

end

theorem liveFrom_succ (start : Nat) (cells : List (Option Record)) :
    liveFrom (start + 1) cells =
      (liveFrom start cells).map fun entry => (entry.1 + 1, entry.2) := by
  induction cells generalizing start with
  | nil => rfl
  | cons cell rest ih =>
      cases cell with
      | none => exact ih (start + 1)
      | some r => exact congrArg ((start + 1, r) :: ·) (ih (start + 1))

/-- The induction is on the cells. Slots past the first one are the slots of the rest, moved by one,
and taking records out of them keeps the first cell, which comes last. -/
theorem foldr_vacate (indexed : Bool) (p : Record → Bool) (cells : List (Option Record)) :
    ((liveFrom 0 cells).filter fun entry => p entry.2).foldr
      (fun entry cells => vacate indexed cells entry.1) cells = leave indexed p cells := by
  have behind (cell : Option Record) (cells : List (Option Record))
      (entries : List (Nat × Record)) :
      (entries.map fun entry => (entry.1 + 1, entry.2)).foldr
        (fun entry cells => vacate indexed cells entry.1) (cell :: cells) =
      cell :: entries.foldr (fun entry cells => vacate indexed cells entry.1) cells := by
    induction entries with
    | nil => rfl
    | cons entry rest ih => rw [List.map_cons, List.foldr_cons, ih, vacate_succ, List.foldr_cons]
  induction cells with
  | nil => cases indexed <;> rfl
  | cons cell rest ih =>
      have later : ((liveFrom 1 rest).filter fun entry => p entry.2).foldr
          (fun entry cells => vacate indexed cells entry.1) (cell :: rest) =
          cell :: leave indexed p rest := by
        rw [liveFrom_succ, List.filter_map, behind]
        exact congrArg (cell :: ·) ih
      cases cell with
      | none => exact later.trans (leave_vacant indexed rest).symm
      | some r =>
          unfold liveFrom
          cases chosen : p r with
          | true =>
              rw [List.filter_cons_of_pos (by exact chosen), List.foldr_cons, later, vacate_zero,
                leave_chosen indexed rest chosen]
          | false =>
              rw [List.filter_cons_of_neg (by simp [chosen]), later,
                leave_spared indexed rest chosen]

variable (c : Collection)

theorem cells_remove (slot : Nat) : (c.remove slot).cells = vacate c.isIndexed c.cells slot := by
  obtain ⟨identity, slots⟩ := c
  cases there : get? ⟨identity, slots⟩ slot with
  | none =>
      unfold remove
      rw [there]
      refine (vacate_outside _ _ there fun ordered cell member => ?_).symm
      cases slots with
      | ordered records =>
          obtain ⟨r, -, rfl⟩ := List.mem_map.mp member
          rfl
      | indexed slots index => cases ordered
  | some r =>
      unfold remove
      rw [there]
      cases slots with
      | ordered records => exact (List.eraseIdx_map ..).symm
      | indexed slots index => rfl

/-- A record stands between those of the lower slots and those of the higher ones, which stay when
another record takes its place or when it is taken out. -/
theorem exists_between {slot : Nat} {r : Record} (there : c.get? slot = some r) :
    ∃ front back, c.records = front ++ r :: back ∧ (c.remove slot).records = front ++ back ∧
      ∀ next, (c.replace slot next).records = front ++ next :: back := by
  have taken : (c.get? slot).isSome := by rw [there]; rfl
  obtain ⟨inside, here⟩ := List.getElem?_eq_some_iff.mp (Option.join_eq_some_iff.mp there)
  refine ⟨(c.cells.take slot).filterMap id, (c.cells.drop (slot + 1)).filterMap id, ?_, ?_,
    fun next => ?_⟩
  · unfold records
    conv_lhs => rw [← List.take_append_drop slot c.cells, List.drop_eq_getElem_cons inside, here]
    rw [List.filterMap_append]
    rfl
  · unfold records
    rw [cells_remove]
    unfold vacate
    cases c.isIndexed with
    | true =>
        rw [if_pos rfl, List.set_eq_take_append_cons_drop, if_pos inside, List.filterMap_append]
        rfl
    | false =>
        rw [if_neg (by decide), List.eraseIdx_eq_take_drop_succ, List.filterMap_append]
  · unfold records
    rw [cells_replace taken, List.set_eq_take_append_cons_drop, if_pos inside,
      List.filterMap_append]
    rfl

variable (chosen : List (Nat × Record))

theorem cells_foldl_remove :
    (chosen.foldl (fun c entry => c.remove entry.1) c).cells =
      chosen.foldl (fun cells entry => vacate c.isIndexed cells entry.1) c.cells := by
  induction chosen generalizing c with
  | nil => rfl
  | cons entry rest ih => rw [List.foldl_cons, List.foldl_cons, ih, remove_isIndexed, cells_remove]

variable {c} {p : Record → Bool}

/-- Once all records on which `p` is true are taken out, the others are left, in their order; an
indexed collection still has them in their slots. -/
theorem foldl_remove_live :
    let after := ((c.live.filter fun entry => p entry.2).reverse).foldl
      (fun c entry => c.remove entry.1) c
    after.identity = c.identity ∧ after.isIndexed = c.isIndexed ∧
    after.records = c.records.filter (!p ·) ∧
    (c.isIndexed → ∀ slot, after.get? slot = (c.get? slot).filter (!p ·)) := by
  intro after
  have edited : c.Edited after := Edited.refl.foldl_remove _
  have left : after.cells = leave c.isIndexed p c.cells := by
    rw [cells_foldl_remove, List.foldl_reverse]
    exact foldr_vacate c.isIndexed p c.cells
  refine ⟨edited.identity, edited.isIndexed, ?_, fun indexed slot => ?_⟩
  · unfold records
    rw [left, filterMap_leave]
  · unfold get?
    rw [left, indexed]
    change ((c.cells.map _)[slot]?).join = _
    rw [List.getElem?_map]
    cases c.cells[slot]? with
    | none => rfl
    | some cell => rfl

end Emend.Collection
