import Emend.Edit
import Emend.Proofs.Except

/-!
Work in place that reads and computes all that it needs before it writes. Nothing fails after that, so
it leaves either what it was to make or what was there.
-/

set_option autoImplicit false

namespace Emend.Edit
variable {ε ε' σ α : Type}

/-- What the work makes of `s`, or why it failed. -/
def result (work : Edit ε σ Unit) (s : σ) : Except ε σ :=
  match work.on s with
  | (.ok _, left) => .ok left
  | (.error e, _) => .error e

/-- A failure leaves everything as it was. -/
def Atomic (work : Edit ε σ α) : Prop := ∀ s e left, work.on s = (.error e, left) → left = s

theorem on_bind {β : Type} (first : Edit ε σ α) (next : α → Edit ε σ β) (s : σ) :
    (first >>= next).on s = match first.on s with
      | (.ok a, left) => (next a).on left
      | (.error e, left) => (.error e, left) := by
  change (ExceptT.bindCont next (first.on s).1).run (first.on s).2 = _
  rcases first.on s with ⟨a | a, left⟩ <;> rfl

theorem on_adapt (f : ε → ε') (work : Edit ε σ α) (s : σ) :
    Edit.on (ExceptT.adapt f work) s = match work.on s with
      | (.ok a, left) => (.ok a, left)
      | (.error e, left) => (.error (f e), left) := by
  change ((work.on s).1.mapError f, (work.on s).2) = _
  rcases work.on s with ⟨a | a, left⟩ <;> rfl

theorem on_discard (work : Edit ε σ α) (s : σ) :
    Edit.on (discard work) s = match work.on s with
      | (.ok _, left) => (.ok (), left)
      | (.error e, left) => (.error e, left) :=
  on_bind work (fun _ => pure ()) s

theorem on_forM {ι : Type} (f : σ → ι → σ) (items : List ι) (s : σ) :
    Edit.on (items.forM fun item => (modify (f · item) : Edit ε σ PUnit)) s =
      (.ok (), items.foldl f s) := by
  induction items generalizing s with
  | nil => rfl
  | cons item rest ih =>
      change Edit.on ((modify (f · item) : Edit ε σ PUnit) >>= fun _ =>
        rest.forM fun item => modify (f · item)) s = _
      rw [on_bind]
      exact ih (f s item)

theorem result_lift_bind (x : Except ε α) (next : α → Edit ε σ Unit) (s : σ) :
    result (liftM x >>= next) s = x >>= fun a => (next a).result s := by
  cases x <;> rfl

theorem result_get_bind (next : σ → Edit ε σ Unit) (s : σ) :
    result (get >>= next) s = (next s).result s := rfl

theorem result_modify (f : σ → σ) (s : σ) :
    result (modify f : Edit ε σ PUnit) s = .ok (f s) := rfl

theorem result_forM {ι : Type} (f : σ → ι → σ) (items : List ι) (s : σ) :
    result (items.forM fun item => (modify (f · item) : Edit ε σ PUnit)) s =
      .ok (items.foldl f s) := by
  rw [result, on_forM]

theorem result_discard_adapt (f : ε → ε') (work : Edit ε σ α) (s : σ) :
    result (discard (ExceptT.adapt f work)) s = match work.outcome s with
      | .ok (_, left) => .ok left
      | .error e => .error (f e) := by
  unfold result outcome
  rw [on_discard, on_adapt]
  rcases work.on s with ⟨_ | _, left⟩ <;> rfl

namespace Atomic

theorem lift_bind (x : Except ε α) {next : α → Edit ε σ Unit}
    (later : ∀ a, Atomic (next a)) : Atomic (liftM x >>= next) := by
  intro s e left failed
  cases x with
  | error _ =>
      cases failed
      rfl
  | ok a => exact later a s e left failed

theorem get_bind {next : σ → Edit ε σ Unit} (later : ∀ s, Atomic (next s)) :
    Atomic (get >>= next) :=
  fun s e left failed => later s s e left failed

theorem of_modify (f : σ → σ) : Atomic (modify f : Edit ε σ PUnit) :=
  fun _ _ _ failed => nomatch failed

theorem of_set (s' : σ) : Atomic (set s' : Edit ε σ PUnit) := fun _ _ _ failed => nomatch failed

theorem of_throw (e : ε) : Atomic (throw e : Edit ε σ Unit) := by
  rintro s _ _ ⟨⟩
  rfl

theorem of_forM {ι : Type} (f : σ → ι → σ) (items : List ι) :
    Atomic (items.forM fun item => (modify (f · item) : Edit ε σ PUnit)) := by
  intro s e left failed
  cases (on_forM f items s).symm.trans failed

theorem adapt (f : ε → ε') {work : Edit ε σ α} (atomic : work.Atomic) :
    Atomic (ExceptT.adapt f work : Edit ε' σ α) := by
  intro s e left failed
  rw [on_adapt] at failed
  split at failed <;> cases failed
  exact atomic s _ _ ‹_›

theorem discard {work : Edit ε σ α} (atomic : work.Atomic) :
    Atomic (Functor.discard work : Edit ε σ PUnit) := by
  intro s e left failed
  rw [on_discard] at failed
  split at failed <;> cases failed
  exact atomic s _ _ ‹_›

end Atomic

/-- Work that is atomic is known by its result. -/
theorem Atomic.on_eq {work : Edit ε σ Unit} (atomic : work.Atomic) (s : σ) :
    work.on s = match work.result s with
      | .ok left => (.ok (), left)
      | .error e => (.error e, s) := by
  unfold result
  cases done : work.on s with
  | mk outcome left =>
      cases outcome with
      | ok _ => rfl
      | error e =>
          cases atomic s e left done
          rfl

end Emend.Edit
