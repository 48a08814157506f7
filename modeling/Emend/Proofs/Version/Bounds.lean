import Emend.Proofs.Version.Order
import Emend.Version.Range

/-!
The bounds of a range. A range that is narrowed by one constraint after the other keeps one bound at
either end, the strictest, so the versions in it are those that meet every constraint.
-/

set_option autoImplicit false

namespace Emend

/-- The ways in which a version can be bounded by another one. -/
inductive Bounding where
  | greater | atLeast | less | atMost | equal
  deriving DecidableEq

structure VersionConstraint where
  bounding : Bounding
  version : Version

/-- Whether a version stands to the named one as the constraint says. -/
def VersionConstraint.Holds (c : VersionConstraint) (v : Version) : Prop :=
  match c.bounding with
  | .greater => v.cmp c.version = .gt
  | .atLeast => (v.cmp c.version).isGE
  | .less => v.cmp c.version = .lt
  | .atMost => (v.cmp c.version).isLE
  | .equal => v.cmp c.version = .eq

namespace VersionRange

section
variable (cmp : Version → Version → Ordering)

/-- Whether a version comes after a bound, or has its place where that is included. -/
def passes (v : Version) (b : VersionBound) : Bool :=
  match cmp v b.version with
  | .gt => true
  | .eq => b.inclusive
  | .lt => false

def stricter (b current : VersionBound) : VersionBound :=
  match cmp b.version current.version with
  | .gt => b
  | .eq => if b.inclusive then current else b
  | .lt => current

variable {cmp} {v : Version} {b current : VersionBound}

theorem passes_of_gt (after : cmp v b.version = .gt) : passes cmp v b = true := by
  unfold passes
  rw [after]

theorem isGE_of_passes (passed : passes cmp v b = true) : (cmp v b.version).isGE := by
  unfold passes at passed
  split at passed
  · rename_i after
    rw [after]
    rfl
  · rename_i tied
    rw [tied]
    rfl
  · cases passed

theorem passes_of_later [Std.TransCmp cmp] (later : cmp b.version current.version = .gt)
    (passed : passes cmp v b = true) : passes cmp v current = true :=
  passes_of_gt (Std.TransCmp.gt_of_isGE_of_gt (isGE_of_passes passed) later)

variable (cmp v b current) in
theorem passes_stricter [Std.TransCmp cmp] :
    passes cmp v (stricter cmp b current) = (passes cmp v b && passes cmp v current) := by
  unfold stricter
  cases order : cmp b.version current.version with
  | gt =>
      have both := passes_of_later (v := v) order
      cases passed : passes cmp v b with
      | false => rfl
      | true => rw [both passed, Bool.and_self]
  | lt =>
      have both := passes_of_later (v := v) (Std.OrientedCmp.gt_of_lt order)
      cases passed : passes cmp v current with
      | false => rw [Bool.and_false]
      | true => rw [both passed, Bool.and_self]
  | eq =>
      have place : cmp v b.version = cmp v current.version := Std.TransCmp.congr_right order
      -- The bounds tie, so only a version in their place sees which of them includes it.
      dsimp only
      unfold passes
      rw [place]
      cases included : b.inclusive <;> cases position : cmp v current.version <;>
        simp [place, position, included]

end

variable {r : VersionRange} {v : Version} {b : VersionBound}

theorem isAbove_eq (v : Version) (b : VersionBound) : isAbove v b = passes Version.cmp v b := rfl

/-- The order from later versions to earlier ones. -/
def downward (a b : Version) : Ordering := b.cmp a

instance : Std.TransCmp downward := @Std.TransCmp.opposite _ Version.cmp _

theorem cmp_eq_swap (a b : Version) : a.cmp b = (downward a b).swap := Std.OrientedCmp.eq_swap

theorem isBelow_eq (v : Version) (b : VersionBound) : isBelow v b = passes downward v b := by
  unfold isBelow passes
  rw [cmp_eq_swap]
  cases downward v b.version <;> rfl

theorem contains_raise (r : VersionRange) (b : VersionBound) (v : Version) :
    (r.raise b).contains v = (r.contains v && isAbove v b) := by
  obtain ⟨lower, upper⟩ := r
  cases lower with
  | none => simp [raise, contains, Bool.and_comm]
  | some current =>
      have kept : raise ⟨some current, upper⟩ b = ⟨some (stricter Version.cmp b current), upper⟩ := by
        unfold raise stricter
        dsimp only
        cases b.version.cmp current.version <;> cases b.inclusive <;> rfl
      rw [kept]
      simp only [contains, Option.all_some, isAbove_eq, passes_stricter]
      ac_rfl

theorem contains_cap (r : VersionRange) (b : VersionBound) (v : Version) :
    (r.cap b).contains v = (r.contains v && isBelow v b) := by
  obtain ⟨lower, upper⟩ := r
  cases upper with
  | none => simp [cap, contains]
  | some current =>
      have kept : cap ⟨lower, some current⟩ b = ⟨lower, some (stricter downward b current)⟩ := by
        unfold cap stricter
        dsimp only
        rw [cmp_eq_swap]
        cases downward b.version current.version <;> cases b.inclusive <;> rfl
      rw [kept]
      simp only [contains, Option.all_some, isBelow_eq, passes_stricter]
      ac_rfl

/-- The part of a range in which a constraint holds. -/
def narrow (r : VersionRange) (c : VersionConstraint) : VersionRange :=
  match c.bounding with
  | .greater => r.raise ⟨c.version, false⟩
  | .atLeast => r.raise ⟨c.version, true⟩
  | .less => r.cap ⟨c.version, false⟩
  | .atMost => r.cap ⟨c.version, true⟩
  | .equal => (r.raise ⟨c.version, true⟩).cap ⟨c.version, true⟩

theorem contains_narrow (r : VersionRange) (c : VersionConstraint) (v : Version) :
    (r.narrow c).contains v ↔ r.contains v ∧ c.Holds v := by
  obtain ⟨bounding, w⟩ := c
  cases bounding <;>
    simp only [narrow, contains_raise, contains_cap, Bool.and_eq_true, VersionConstraint.Holds,
      isAbove, isBelow, and_assoc] <;>
    cases v.cmp w <;> simp

/-- A version is in a range if and only if it meets every constraint by which the range was narrowed,
whatever their order. -/
theorem contains_foldl_narrow (constraints : List VersionConstraint) (v : Version) :
    (constraints.foldl narrow r).contains v ↔ r.contains v ∧ ∀ c ∈ constraints, c.Holds v := by
  induction constraints generalizing r with
  | nil => simp
  | cons c constraints ih => rw [List.foldl_cons, ih, contains_narrow, List.forall_mem_cons, and_assoc]

end VersionRange

end Emend
