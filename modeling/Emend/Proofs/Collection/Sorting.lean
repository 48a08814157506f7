import Emend.Proofs.Collection.Rebuild
import Emend.Proofs.Number.Order

/-!
The order of the records of a rebuilt collection. Those whose identities are numbers come first, by
their numbers, and then all others; records of equal rank keep their order. Sorting records that are
sorted changes nothing.
-/

set_option autoImplicit false

namespace Emend

namespace Collection

section
variable (before : Record → Record → Bool)

theorem insertBackwards_filter {p : Record → Bool}
    (equal : ∀ a b, p a → p b → before a b = false) (r : Record) (sorted : List Record) :
    (insertBackwards before r sorted).filter p = (r :: sorted).filter p := by
  induction sorted with
  | nil => rfl
  | cons last rest ih =>
      unfold insertBackwards
      split
      · rename_i passed
        rw [List.filter_cons, ih]
        by_cases chosen : p r
        · -- The record is of this kind, so what it passes is not.
          have other : ¬ p last := fun also => by
            rw [equal r last chosen also] at passed
            cases passed
          simp [chosen, other]
        · simp [List.filter_cons, chosen]
      · rfl

theorem foldl_insertBackwards_filter {p : Record → Bool}
    (equal : ∀ a b, p a → p b → before a b = false) (records sorted : List Record) :
    (records.foldl (fun sorted r => insertBackwards before r sorted) sorted).filter p =
      (records.filter p).reverse ++ sorted.filter p := by
  induction records generalizing sorted with
  | nil => rfl
  | cons r rest ih =>
      rw [List.foldl_cons, ih, insertBackwards_filter before equal, List.filter_cons,
        List.filter_cons]
      split <;> simp

/-- Records of equal rank keep their order. -/
theorem sortRecords_filter {p : Record → Bool} (equal : ∀ a b, p a → p b → before a b = false)
    (records : List Record) : (sortRecords before records).filter p = records.filter p := by
  unfold sortRecords
  rw [List.filter_reverse, foldl_insertBackwards_filter before equal, List.filter_nil,
    List.append_nil, List.reverse_reverse]

theorem insertBackwards_of_last {r : Record} {sorted : List Record}
    (last : ∀ s ∈ sorted, before r s = false) : insertBackwards before r sorted = r :: sorted := by
  cases sorted with
  | nil => rfl
  | cons first rest =>
      unfold insertBackwards
      rw [last first List.mem_cons_self]
      rfl

theorem foldl_insertBackwards_of_sorted {records sorted : List Record}
    (ordered : (sorted.reverse ++ records).Pairwise fun a b => before b a = false) :
    records.foldl (fun sorted r => insertBackwards before r sorted) sorted =
      records.reverse ++ sorted := by
  induction records generalizing sorted with
  | nil => rfl
  | cons r rest ih =>
      have last : ∀ s ∈ sorted, before r s = false := fun s member =>
        (List.pairwise_append.mp ordered).2.2 s (List.mem_reverse.mpr member) r List.mem_cons_self
      rw [List.foldl_cons, insertBackwards_of_last before last, ih]
      · simp
      · simpa using ordered

theorem sortRecords_of_sorted {records : List Record}
    (ordered : records.Pairwise fun a b => before b a = false) :
    sortRecords before records = records := by
  have whole : (([] : List Record).reverse ++ records).Pairwise fun a b => before b a = false :=
    ordered
  unfold sortRecords
  rw [foldl_insertBackwards_of_sorted before whole, List.append_nil, List.reverse_reverse]

end

section
variable {R : Type} [LinearOrder R] {before : Record → Record → Bool} {rank : Record → R}

theorem insertBackwards_sorted {r : Record} {sorted : List Record}
    (ranked : ∀ s ∈ sorted, before r s = decide (rank r < rank s))
    (ordered : sorted.Pairwise fun a b => rank b ≤ rank a) :
    (insertBackwards before r sorted).Pairwise fun a b => rank b ≤ rank a := by
  induction sorted with
  | nil => exact List.pairwise_singleton _ _
  | cons last rest ih =>
      obtain ⟨above, inside⟩ := List.pairwise_cons.mp ordered
      unfold insertBackwards
      rw [ranked last List.mem_cons_self]
      split
      · rename_i less
        refine List.pairwise_cons.mpr
          ⟨?_, ih (fun s member => ranked s (List.mem_cons_of_mem _ member)) inside⟩
        intro s member
        rcases List.mem_cons.mp ((insertBackwards_perm before r rest).mem_iff.mp member) with rfl | later
        · exact le_of_lt (of_decide_eq_true less)
        · exact above s later
      · rename_i reached
        have most : rank last ≤ rank r := not_lt.mp fun less => reached (decide_eq_true less)
        refine List.pairwise_cons.mpr ⟨?_, ordered⟩
        intro s member
        rcases List.mem_cons.mp member with rfl | later
        · exact most
        · exact le_trans (above s later) most

theorem foldl_insertBackwards_sorted {records sorted : List Record}
    (ranked : ∀ a ∈ records, ∀ b ∈ records ++ sorted, before a b = decide (rank a < rank b))
    (ordered : sorted.Pairwise fun a b => rank b ≤ rank a) :
    (records.foldl (fun sorted r => insertBackwards before r sorted) sorted).Pairwise
      fun a b => rank b ≤ rank a := by
  induction records generalizing sorted with
  | nil => exact ordered
  | cons r rest ih =>
      refine ih (fun a first b second => ?_) (insertBackwards_sorted (fun s member => ?_) ordered)
      · refine ranked a (List.mem_cons_of_mem _ first) b ?_
        have same := (insertBackwards_perm before r sorted).append_left rest
        exact (same.trans List.perm_middle).mem_iff.mp second
      · exact ranked r List.mem_cons_self s (List.mem_append_right _ member)

theorem sortRecords_sorted {records : List Record}
    (ranked : ∀ a ∈ records, ∀ b ∈ records, before a b = decide (rank a < rank b)) :
    (sortRecords before records).Pairwise fun a b => rank a ≤ rank b := by
  have whole : ∀ a ∈ records, ∀ b ∈ records ++ [], before a b = decide (rank a < rank b) := by
    rw [List.append_nil]
    exact ranked
  unfold sortRecords
  rw [List.pairwise_reverse]
  exact foldl_insertBackwards_sorted whole .nil

end

/-- The number that the identity of a record counts as. -/
def number? (c : Collection) (r : Record) : Option Float := (c.identityOf? r).bind Datum.toFloat?

def InOrder : Option Float → Option Float → Prop
  | some x, some y => x ≤ y
  | none, some _ => False
  | _, none => True

def sameRank : Option Float → Option Float → Bool
  | some x, some y => x == y
  | none, none => true
  | _, _ => false

/-- Where a record stands; one without a number stands behind all others. -/
def rank (x : Option Float) : WithTop Number.Place :=
  match x with
  | some x => Number.place x
  | none => ⊤

/-- The identity is not the number NaN. -/
def IsProper (x : Option Float) : Prop := ∀ y, x = some y → y.isNaN = false

section
variable {x y : Option Float} (first : IsProper x) (second : IsProper y)
include first second

theorem inOrder_iff_rank : InOrder x y ↔ rank x ≤ rank y := by
  cases x with
  | none =>
      cases y with
      | none => exact ⟨fun _ => le_refl _, fun _ => trivial⟩
      | some y => exact ⟨False.elim, fun least => absurd least (not_le.mpr (WithTop.coe_lt_top _))⟩
  | some x =>
      cases y with
      | none => exact ⟨fun _ => le_top, fun _ => trivial⟩
      | some y =>
          exact (Number.le_iff_place (first x rfl) (second y rfl)).trans WithTop.coe_le_coe.symm

theorem sameRank_iff_rank : sameRank x y ↔ rank x = rank y := by
  cases x with
  | none =>
      cases y with
      | none => exact ⟨fun _ => rfl, fun _ => rfl⟩
      | some y => exact ⟨nofun, fun same => absurd same (WithTop.top_ne_coe)⟩
  | some x =>
      cases y with
      | none => exact ⟨nofun, fun same => absurd same (WithTop.coe_ne_top)⟩
      | some y =>
          exact (Number.beq_iff_place (first x rfl) (second y rfl)).trans WithTop.coe_inj.symm

end

/-- The order of two identities by their ranks. -/
theorem compareIdentities_eq_rank {a b : Option Datum} (first : IsProper (a.bind Datum.toFloat?))
    (second : IsProper (b.bind Datum.toFloat?)) :
    compareIdentities a b =
      compare (rank (a.bind Datum.toFloat?)) (rank (b.bind Datum.toFloat?)) := by
  unfold compareIdentities
  generalize a.bind Datum.toFloat? = x at first ⊢
  generalize b.bind Datum.toFloat? = y at second ⊢
  cases x with
  | none =>
      cases y with
      | none => exact (compare_eq_iff_eq.mpr rfl).symm
      | some y => exact (compare_gt_iff_gt.mpr (WithTop.coe_lt_top _)).symm
  | some x =>
      cases y with
      | none => exact (compare_lt_iff_lt.mpr (WithTop.coe_lt_top _)).symm
      | some y =>
          dsimp only
          rw [Number.compareNumbers_eq_place (first x rfl) (second y rfl), Option.getD_some]
          rcases lt_trichotomy (Number.place x) (Number.place y) with below | same | above
          · rw [compare_lt_iff_lt.mpr below]
            exact (compare_lt_iff_lt.mpr (WithTop.coe_lt_coe.mpr below)).symm
          · rw [compare_eq_iff_eq.mpr same]
            exact (compare_eq_iff_eq.mpr (WithTop.coe_inj.mpr same)).symm
          · rw [compare_gt_iff_gt.mpr above]
            exact (compare_gt_iff_gt.mpr (WithTop.coe_lt_coe.mpr above)).symm

theorem identityBefore_eq {c : Collection} {a b : Record} (first : IsProper (c.number? a))
    (second : IsProper (c.number? b)) :
    identityBefore (c.identityOf? a) (c.identityOf? b) =
      decide (rank (c.number? a) < rank (c.number? b)) := by
  unfold identityBefore
  rw [compareIdentities_eq_rank first second, Bool.eq_iff_iff, beq_iff_eq, decide_eq_true_iff]
  exact compare_lt_iff_lt

theorem IsProper.of_sameRank {x y : Option Float} (same : sameRank x y) : IsProper y := by
  rintro z rfl
  cases x with
  | none => cases same
  | some x => exact Number.isNaN_of_beq same

theorem identityBefore_of_sameRank {c : Collection} {x : Option Float} (proper : IsProper x)
    {a b : Record} (first : sameRank x (c.number? a)) (second : sameRank x (c.number? b)) :
    identityBefore (c.identityOf? a) (c.identityOf? b) = false := by
  have left := IsProper.of_sameRank first
  have right := IsProper.of_sameRank second
  have equal : rank (c.number? a) = rank (c.number? b) :=
    ((sameRank_iff_rank proper left).mp first).symm.trans ((sameRank_iff_rank proper right).mp second)
  rw [identityBefore_eq left right, equal, decide_eq_false_iff_not]
  exact lt_irrefl _

end Collection

end Emend
