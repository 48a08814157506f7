import Emend.Proofs.Fields
import Emend.Registry.Basic

/-!
A registered type found again after its records were replaced.
-/

set_option autoImplicit false

namespace Emend.Registry

theorem nameOf?_eq (r : Registry) (name : String) :
    r.nameOf? name =
      if (Fields.find? name r.types).isSome then some name
      else (r.types.map (·.1)).find? (Text.sameName · name) := by
  unfold nameOf?
  rw [List.find?_map]
  rfl

theorem find?_eq_some {r : Registry} {name key : String} {registration : Registration}
    (found : r.find? name = some (key, registration)) :
    r.nameOf? name = some key ∧ Fields.find? key r.types = some registration := by
  unfold find? at found
  simp only [Option.bind_eq_bind, Option.bind_eq_some_iff, Option.some.injEq,
    Prod.mk.injEq] at found
  obtain ⟨_, named, _, kept, rfl, rfl⟩ := found
  exact ⟨named, kept⟩

theorem find?_of_nameOf? {r : Registry} {name key : String} {registration : Registration}
    (named : r.nameOf? name = some key)
    (kept : Fields.find? key r.types = some registration) :
    r.find? name = some (key, registration) := by
  unfold find?
  simp [named, kept]

/-- Replaced records are found under every name that led to the old ones. -/
theorem find?_update {r : Registry} {name key : String} {registration : Registration}
    (found : r.find? name = some (key, registration)) (stored : Stored) :
    (r.update key stored).find? name = some (key, ⟨registration.descriptor, stored⟩) := by
  obtain ⟨named, kept⟩ := find?_eq_some found
  have updated : r.update key stored =
      ⟨Fields.put key ⟨registration.descriptor, stored⟩ r.types⟩ := by
    unfold update
    rw [kept]
  rw [updated]
  refine find?_of_nameOf? ?_ (Fields.find?_put_self _ _ _)
  rw [nameOf?_eq] at named ⊢
  dsimp only
  rw [Fields.names_put _ _ _ (by rw [kept]; rfl), Fields.find?_put]
  split at named
  · rename_i exact
    cases named
    simp
  · rename_i inexact
    have differ : ¬ name = key := by
      rintro rfl
      rw [kept] at inexact
      exact inexact rfl
    rw [if_neg differ, if_neg inexact]
    exact named

end Emend.Registry
