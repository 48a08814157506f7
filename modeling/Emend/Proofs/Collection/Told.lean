import Emend.Proofs.Collection.Numbered
import Emend.Proofs.Number.Whole

/-!
Integers looked up among integers. They are compared as doubles, so an integer of fewer than fifty-four
bits leads to its own record whatever the others are, and a longer one does if no other of the
collection has the same double.
-/

set_option autoImplicit false

namespace Emend.Collection

variable {c : Collection} {ids : List Int}

/-- A number leads to the record that has it, and no other record is taken for it. -/
theorem find?_int_iff (identities : c.identities = ids.map fun i => some (.int i))
    (apart : ids.Nodup) {i : Int}
    (told : 2 ^ 53 ≤ i.natAbs → ∀ j ∈ ids, Float.ofInt j == Float.ofInt i → j = i) {slot : Nat} :
    c.find? (.int i) = some slot ↔ c.identityAt? slot = some (.int i) := by
  have listed := givenIdentities_of_ints identities
  have differ : c.givenIdentities.Nodup := by
    rw [listed]
    exact apart.map fun _ _ => Datum.int.inj
  have exact {s : Nat} (found : c.find? (.int i) = some s) : c.identityAt? s = some (.int i) := by
    obtain ⟨x, here, same⟩ := of_find? found
    obtain ⟨j, member, rfl⟩ := List.mem_map.mp (listed ▸ mem_givenIdentities here)
    have equal : Float.ofInt j == Float.ofInt i := same
    rcases Nat.lt_or_ge i.natAbs (2 ^ 53) with short | long
    · rw [Number.ofInt_beq_of_short short] at equal
      rw [here, of_decide_eq_true equal]
    · rw [here, told long j member equal]
  constructor
  · exact exact
  · intro there
    have same : (Datum.int i).sameIdentity (.int i) := Number.ofInt_beq_self i
    obtain ⟨s, found⟩ := Option.isSome_iff_exists.mp (isSome_find? there same)
    rw [found, slot_unique differ (exact found) there]

/-- Three records, two of them with numbers of more than fifty-three bits. -/
def buoys : Collection :=
  let buoy (id : Int) : Option Record := some ⟨"Buoy", [("Id", .int id)]⟩
  ⟨some "Id", .indexed [buoy 9007199254740996, none, buoy (-1), buoy 9007199254740993] []⟩

theorem find?_int_iff_buoys :
    buoys.identities = [9007199254740996, -1, 9007199254740993].map (fun i => some (.int i)) ∧
    [9007199254740996, -1, (9007199254740993 : Int)].Nodup ∧
    (∀ j ∈ [9007199254740996, -1, (9007199254740993 : Int)],
      Float.ofInt j == Float.ofInt 9007199254740993 → j = 9007199254740993) ∧
    (buoys.find? (.int 9007199254740993) = some 3 ↔
      buoys.identityAt? 3 = some (.int 9007199254740993)) := by
  have apart : [9007199254740996, -1, (9007199254740993 : Int)].Nodup := by decide
  have told : ∀ j ∈ [9007199254740996, -1, (9007199254740993 : Int)],
      Float.ofInt j == Float.ofInt 9007199254740993 → j = 9007199254740993 := by decide +kernel
  exact ⟨rfl, apart, told, find?_int_iff rfl apart fun _ => told⟩

/-- The only record has another number, of which the double is the same. -/
theorem find?_int_neighbour :
    let buoy : Record := ⟨"Buoy", [("Id", .int 9007199254740992)]⟩
    ∀ lone ∈ [ofList (some "Id") [buoy], (ofListIndexed (some "Id") [buoy]).2],
      lone.identities = [some (.int 9007199254740992)] ∧
      lone.find? (.int 9007199254740993) = some 0 ∧
      lone.identityAt? 0 ≠ some (.int 9007199254740993) := by
  intro buoy lone member
  have kinds : lone = ofList (some "Id") [buoy] ∨ lone = (ofListIndexed (some "Id") [buoy]).2 := by
    simpa using member
  rcases kinds with rfl | rfl
  · exact ⟨rfl, by decide +kernel, nofun⟩
  · exact ⟨rfl, by decide +kernel, nofun⟩

end Emend.Collection
