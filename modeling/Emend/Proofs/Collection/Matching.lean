import Emend.Proofs.Collection.Numbered

/-!
What a lookup finds. The look into the slot of the same number is a shortcut: a record is found if and
only if the scan finds one, it has the identity, and it is the one of the scan if no other record has
the identity as well.
-/

set_option autoImplicit false

namespace Emend.Collection

/-- The slot holds a record with the identity. -/
def Matches (c : Collection) (identity : Datum) (slot : Nat) : Prop :=
  ∃ r, c.get? slot = some r ∧ c.hasIdentity identity r

section
variable {c : Collection} {identity : Datum} {slot : Nat}

theorem matches_iff : c.Matches identity slot ↔
    ∃ x, c.identityAt? slot = some x ∧ x.sameIdentity identity := by
  rw [← hasIdentity_get?, Option.any_eq_true]
  rfl

theorem exists_matches : (∃ slot, c.Matches identity slot) ↔
    ∃ r ∈ c.records, c.hasIdentity identity r := by
  constructor
  · rintro ⟨slot, r, there, same⟩
    refine ⟨r, ?_, same⟩
    unfold records
    rw [← map_snd_liveFrom 0]
    exact List.mem_map.mpr ⟨(slot, r), live_of_get? there, rfl⟩
  · rintro ⟨r, member, same⟩
    obtain ⟨slot, live⟩ := exists_live member
    exact ⟨slot, r, get?_of_live live, same⟩

theorem scan_eq_some : c.scan identity = some slot ↔
    c.Matches identity slot ∧ ∀ lower < slot, ¬ c.Matches identity lower := by
  have least {slot : Nat} (found : c.scan identity = some slot) :
      c.Matches identity slot ∧ ∀ lower < slot, ¬ c.Matches identity lower := by
    obtain ⟨⟨s, r⟩, first, rfl⟩ := Option.map_eq_some_iff.mp found
    obtain ⟨same, before, after, parts, unlike⟩ := List.find?_eq_some_iff_append.mp first
    have increasing := c.live_increasing
    rw [parts, List.pairwise_append] at increasing
    refine ⟨⟨r, get?_of_live (List.mem_of_find?_eq_some first), same⟩, ?_⟩
    rintro lower less ⟨r', there, matched⟩
    have member := live_of_get? there
    rw [parts] at member
    rcases List.mem_append.mp member with early | late
    · have := unlike _ early
      rw [matched] at this
      cases this
    · rcases List.mem_cons.mp late with here | later
      · cases here
        exact Nat.lt_irrefl _ less
      · have further := (List.pairwise_cons.mp increasing.2.1).1 _ later
        exact absurd less (Nat.lt_asymm further)
  constructor
  · exact least
  · rintro ⟨matched, first⟩
    have exists_scan : (c.scan identity).isSome := by
      obtain ⟨r, there, same⟩ := matched
      unfold scan
      rw [Option.isSome_map, List.find?_isSome]
      exact ⟨(slot, r), live_of_get? there, same⟩
    obtain ⟨s, found⟩ := Option.isSome_iff_exists.mp exists_scan
    obtain ⟨here, lowest⟩ := least found
    rcases Nat.lt_trichotomy s slot with lower | rfl | higher
    · exact absurd here (first s lower)
    · exact found
    · exact absurd matched (lowest slot higher)

end

/-- A lookup finds what the scan finds, if only one record can be found. -/
theorem find?_matches (c : Collection) (identity : Datum) :
    ((c.find? identity).isSome ↔ ∃ r ∈ c.records, c.hasIdentity identity r) ∧
    (∀ slot, c.find? identity = some slot →
      ∃ r, c.get? slot = some r ∧ c.hasIdentity identity r) ∧
    (∀ slot, c.scan identity = some slot ↔
      c.Matches identity slot ∧ ∀ lower < slot, ¬ c.Matches identity lower) ∧
    ((∀ s t, c.Matches identity s → c.Matches identity t → s = t) →
      c.find? identity = c.scan identity) := by
  have sound : ∀ slot, c.find? identity = some slot → c.Matches identity slot :=
    fun slot found => matches_iff.mpr (of_find? found)
  have complete : ∀ slot, c.Matches identity slot → (c.find? identity).isSome := by
    intro slot matched
    obtain ⟨x, there, same⟩ := matches_iff.mp matched
    exact isSome_find? there same
  refine ⟨?_, sound, fun slot => scan_eq_some, fun unique => ?_⟩
  · rw [← exists_matches]
    constructor
    · intro found
      obtain ⟨slot, there⟩ := Option.isSome_iff_exists.mp found
      exact ⟨slot, sound slot there⟩
    · rintro ⟨slot, matched⟩
      exact complete slot matched
  · cases found : c.find? identity with
    | none =>
        cases scanned : c.scan identity with
        | none => rfl
        | some slot =>
            have := complete slot (scan_eq_some.mp scanned).1
            rw [found] at this
            cases this
    | some slot =>
        have matched := sound slot found
        refine (scan_eq_some.mpr ⟨matched, fun lower less other => ?_⟩).symm
        exact Nat.ne_of_lt less (unique lower slot other matched)

/-- Two records with one identity, the second of them in the slot of that number. -/
def twins : Collection :=
  let twin : Option Record := some ⟨"Twin", [("Id", .int 2)]⟩
  ⟨some "Id", .indexed [twin, none, twin] []⟩

example : twins.find? (.int 2) = some 2 ∧ twins.scan (.int 2) = some 0 := by decide +kernel

end Emend.Collection
