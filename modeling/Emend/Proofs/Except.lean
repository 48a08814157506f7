/-!
What a successful computation says about its parts, and computations that fail alike.
-/

set_option autoImplicit false

namespace Emend

variable {ε α β : Type}

theorem ok_bind (a : α) (next : α → Except ε β) : (Except.ok a >>= next) = next a := rfl

theorem error_bind (e : ε) (next : α → Except ε β) : (Except.error e >>= next) = .error e := rfl

theorem of_bind_ok {first : Except ε α} {next : α → Except ε β} {b : β}
    (success : (first >>= next) = .ok b) : ∃ a, first = .ok a ∧ next a = .ok b := by
  cases first with
  | error e => cases success
  | ok a => exact ⟨a, rfl, success⟩

theorem of_bind_error {first : Except ε α} {next : α → Except ε β} {e : ε}
    (failure : (first >>= next) = .error e) :
    first = .error e ∨ ∃ a, first = .ok a ∧ next a = .error e := by
  cases first with
  | error e => exact .inl (congrArg _ (Except.error.inj failure))
  | ok a => exact .inr ⟨a, rfl, failure⟩

theorem of_map_ok {first : Except ε α} {f : α → β} {b : β}
    (success : first.map f = .ok b) : ∃ a, first = .ok a ∧ f a = b := by
  cases first with
  | error e => cases success
  | ok a => exact ⟨a, rfl, Except.ok.inj success⟩

theorem of_map_error {first : Except ε α} {f : α → β} {e : ε}
    (failure : first.map f = .error e) : first = .error e := by
  cases first with
  | error e => exact congrArg _ (Except.error.inj failure)
  | ok a => cases failure

theorem of_toOption_map {x : Except ε α} {f : α → β} {b : β}
    (success : x.toOption.map f = some b) : ∃ a, x = .ok a ∧ f a = b := by
  cases x with
  | error e => cases success
  | ok a => exact ⟨a, rfl, Option.some.inj success⟩

theorem of_isOk {x : Except ε α} (success : x.isOk) : ∃ a, x = .ok a := by
  cases x with
  | error e => cases success
  | ok a => exact ⟨a, rfl⟩

def errorOf? : Except ε α → Option ε
  | .ok _ => none
  | .error e => some e

theorem of_errorOf?_map {x : Except ε α} {f : ε → β} {b : β}
    (failure : (errorOf? x).map f = some b) : ∃ e, x = .error e ∧ f e = b := by
  cases x with
  | error e => exact ⟨e, rfl, Option.some.inj failure⟩
  | ok a => cases failure

theorem getElem?_of_mapM_ok {f : α → Except ε β} {items : List α} {results : List β}
    (success : items.mapM f = .ok results) {k : Nat} {b : β} (there : results[k]? = some b) :
    ∃ a, items[k]? = some a ∧ f a = .ok b := by
  induction items generalizing results k with
  | nil =>
      cases success
      cases there
  | cons item rest ih =>
      rw [List.mapM_cons] at success
      obtain ⟨first, head, success⟩ := of_bind_ok success
      obtain ⟨others, tail, success⟩ := of_bind_ok success
      cases success
      cases k with
      | zero =>
          cases there
          exact ⟨item, rfl, head⟩
      | succ k => exact ih tail there

theorem of_mapM_ok {f : α → Except ε β} {items : List α} {results : List β}
    (success : items.mapM f = .ok results) : ∀ b ∈ results, ∃ a ∈ items, f a = .ok b := by
  intro b member
  obtain ⟨k, there⟩ := List.mem_iff_getElem?.mp member
  obtain ⟨a, here, made⟩ := getElem?_of_mapM_ok success there
  exact ⟨a, List.mem_of_getElem? here, made⟩

theorem mapM_eq_ok {f : α → Except ε β} {g : β → α} {results : List β}
    (each : ∀ b ∈ results, f (g b) = .ok b) : (results.map g).mapM f = .ok results := by
  induction results with
  | nil => rfl
  | cons b rest ih =>
      obtain ⟨first, others⟩ := List.forall_mem_cons.mp each
      rw [List.map_cons, List.mapM_cons, first, ih others]
      rfl

theorem mapM_congr {f g : α → Except ε β} {items : List α} (same : ∀ a ∈ items, f a = g a) :
    items.mapM f = items.mapM g := by
  induction items with
  | nil => rfl
  | cons item rest ih =>
      obtain ⟨first, others⟩ := List.forall_mem_cons.mp same
      rw [List.mapM_cons, List.mapM_cons, first, ih others]

/-- Items in another order give the results in that order, or some item fails in either. -/
theorem exists_mapM_of_perm {f : α → Except ε β} {items others : List α} {results : List β}
    (perm : items.Perm others) (success : items.mapM f = .ok results) :
    ∃ again, others.mapM f = .ok again ∧ results.Perm again := by
  induction perm generalizing results with
  | nil => exact ⟨results, success, .refl _⟩
  | cons item _ ih =>
      rw [List.mapM_cons] at success
      obtain ⟨first, head, success⟩ := of_bind_ok success
      obtain ⟨rest, tail, success⟩ := of_bind_ok success
      cases success
      obtain ⟨again, made, perm⟩ := ih tail
      refine ⟨first :: again, ?_, perm.cons first⟩
      rw [List.mapM_cons, head, made]
      rfl
  | swap item other rest =>
      rw [List.mapM_cons, List.mapM_cons] at success
      obtain ⟨second, head, success⟩ := of_bind_ok success
      obtain ⟨_, tail, success⟩ := of_bind_ok success
      obtain ⟨first, next, tail⟩ := of_bind_ok tail
      obtain ⟨results, made, last⟩ := of_bind_ok tail
      cases last
      cases success
      refine ⟨first :: second :: results, ?_, .swap _ _ _⟩
      rw [List.mapM_cons, List.mapM_cons, head, next, made]
      rfl
  | trans _ _ first second =>
      obtain ⟨middle, made, perm⟩ := first success
      obtain ⟨again, remade, further⟩ := second made
      exact ⟨again, remade, perm.trans further⟩

/-- Both fail with the same error, or both succeed with related results. -/
inductive Alike (R : α → β → Prop) : Except ε α → Except ε β → Prop
  | error (e : ε) : Alike R (.error e) (.error e)
  | ok {a : α} {b : β} (related : R a b) : Alike R (.ok a) (.ok b)

namespace Alike

variable {γ δ : Type} {R : α → β → Prop} {S : γ → δ → Prop}

theorem bind {first : Except ε α} {second : Except ε β} {next : α → Except ε γ}
    {other : β → Except ε δ} (alike : Alike R first second)
    (follow : ∀ a b, R a b → Alike S (next a) (other b)) :
    Alike S (first >>= next) (second >>= other) := by
  cases alike with
  | error e => exact .error e
  | ok related => exact follow _ _ related

theorem same {R : α → α → Prop} (x : Except ε α) (related : ∀ a, x = .ok a → R a a) :
    Alike R x x := by
  cases x with
  | error e => exact .error e
  | ok a => exact .ok (related a rfl)

end Alike

end Emend
