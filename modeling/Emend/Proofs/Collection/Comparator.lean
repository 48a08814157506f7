import Emend.Proofs.Collection.Sorting

/-!
The comparator by which a rebuild sorts. It gives a total preorder of the identities that are not the
number NaN. NaN is equal to every number, so the order does not carry over it: two numbers that are
equal to it may differ.
-/

set_option autoImplicit false

namespace Emend

open Collection (IsProper compareIdentities_eq_rank)

theorem compareIdentities_swap (a b : Option Datum) :
    compareIdentities b a = (compareIdentities a b).swap := by
  unfold compareIdentities
  cases a.bind Datum.toFloat? with
  | none => cases b.bind Datum.toFloat? <;> rfl
  | some x =>
      cases b.bind Datum.toFloat? with
      | none => rfl
      | some y =>
          dsimp only
          rw [Number.compareNumbers_swap]
          cases Value.compareNumbers x y <;> rfl

instance : Std.OrientedCmp compareIdentities where
  eq_swap := compareIdentities_swap _ _

/-- NaN is equal to every number and comes before all else. -/
theorem compareIdentities_of_isNaN {a : Option Datum} {x : Float}
    (counted : a.bind Datum.toFloat? = some x) (unordered : x.isNaN) (b : Option Datum) :
    compareIdentities a b = if (b.bind Datum.toFloat?).isSome then .eq else .lt := by
  unfold compareIdentities
  rw [counted]
  cases b.bind Datum.toFloat? with
  | none => rfl
  | some y =>
      dsimp only
      rw [Number.compareNumbers_of_isNaN (.inl unordered)]
      rfl

theorem exists_of_not_isProper {x : Option Float} (improper : ¬ IsProper x) :
    ∃ y, x = some y ∧ y.isNaN := by
  unfold IsProper at improper
  simpa using improper

theorem isSome_of_isLE_nan {a b : Option Datum} {x : Float}
    (counted : b.bind Datum.toFloat? = some x) (least : (compareIdentities a b).isLE) :
    (a.bind Datum.toFloat?).isSome := by
  unfold compareIdentities at least
  rw [counted] at least
  cases number : a.bind Datum.toFloat? with
  | none =>
      rw [number] at least
      cases least
  | some y => rfl

theorem compareIdentities_trans {a b c : Option Datum} (proper : IsProper (b.bind Datum.toFloat?))
    (first : (compareIdentities a b).isLE) (second : (compareIdentities b c).isLE) :
    (compareIdentities a c).isLE := by
  by_cases left : IsProper (a.bind Datum.toFloat?)
  · by_cases right : IsProper (c.bind Datum.toFloat?)
    · rw [compareIdentities_eq_rank left proper, Ordering.isLE_iff_ne_gt] at first
      rw [compareIdentities_eq_rank proper right, Ordering.isLE_iff_ne_gt] at second
      rw [compareIdentities_eq_rank left right, Ordering.isLE_iff_ne_gt]
      exact compare_le_iff_le.mpr
        (le_trans (compare_le_iff_le.mp first) (compare_le_iff_le.mp second))
    · obtain ⟨x, counted, unordered⟩ := exists_of_not_isProper right
      obtain ⟨y, middle⟩ := Option.isSome_iff_exists.mp (isSome_of_isLE_nan counted second)
      have number := isSome_of_isLE_nan middle first
      rw [compareIdentities_swap c a, compareIdentities_of_isNaN counted unordered, if_pos number]
      rfl
  · obtain ⟨x, counted, unordered⟩ := exists_of_not_isProper left
    rw [compareIdentities_of_isNaN counted unordered]
    split <;> rfl

/-- The comparator is a total preorder as far as NaN is not in between. -/
theorem compareIdentities_preorder (b : Option Datum) :
    compareIdentities b b = .eq ∧
    (∀ a, compareIdentities b a = (compareIdentities a b).swap) ∧
    (IsProper (b.bind Datum.toFloat?) ↔ ∀ a c,
      ((compareIdentities a b).isLE → (compareIdentities b c).isLE → (compareIdentities a c).isLE) ∧
      (compareIdentities a b = .eq → compareIdentities b c = .eq → compareIdentities a c = .eq)) := by
  refine ⟨Std.ReflCmp.compare_self, fun a => compareIdentities_swap a b,
    fun proper a c => ⟨compareIdentities_trans proper, fun first second => ?_⟩, fun carries => ?_⟩
  · have up : (compareIdentities a c).isLE :=
      compareIdentities_trans proper (by rw [first]; rfl) (by rw [second]; rfl)
    have down : (compareIdentities c a).isLE :=
      compareIdentities_trans proper (by rw [compareIdentities_swap b c, second]; rfl)
        (by rw [compareIdentities_swap a b, first]; rfl)
    exact Std.OrientedCmp.isLE_antisymm up down
  · by_contra improper
    obtain ⟨x, counted, unordered⟩ := exists_of_not_isProper improper
    have two : compareIdentities (some (.int 2)) b = .eq := by
      rw [compareIdentities_swap b, compareIdentities_of_isNaN counted unordered]
      rfl
    have one : compareIdentities b (some (.int 1)) = .eq := by
      rw [compareIdentities_of_isNaN counted unordered]
      rfl
    have equal := (carries (some (.int 2)) (some (.int 1))).2 two one
    revert equal
    decide +kernel

/-- Two and one are equal to a text that is read as NaN, but not to each other. -/
theorem compareIdentities_nan :
    compareIdentities (some (.int 2)) (some (.text "Nan")) = .eq ∧
    compareIdentities (some (.text "Nan")) (some (.int 1)) = .eq ∧
    compareIdentities (some (.int 2)) (some (.int 1)) = .gt := by
  refine ⟨?_, ?_, ?_⟩ <;> decide +kernel

end Emend
