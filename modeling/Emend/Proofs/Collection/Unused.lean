import Emend.Proofs.Collection.Keys
import Emend.Proofs.Collection.NextFree
import Emend.Proofs.Number.Nearest

/-!
The next free identity among identities of any kind. It is past all that count as integers, so no
integer and no double is taken for it as long as the integer before it has another double. A text is
not counted if it is no integer as it is written, and may still be read as the number that is next.
-/

set_option autoImplicit false

namespace Emend

theorem Datum.le_clamp {i n : Int} (most : n ≤ greatestInt) (reached : n ≤ i) : n ≤ clamp i := by
  unfold clamp
  omega

/-- What is taken for an integer has the double of that integer. It counts as an integer, unless it
is a text. -/
theorem Datum.of_sameIdentity_int {d : Datum} {n : Int} (least : leastInt ≤ n)
    (most : n ≤ greatestInt) (same : d.sameIdentity (.int n)) :
    (∃ i, Float.ofInt i == Float.ofInt n ∧ ∃ j, d.toInt? = some j ∧ (j < n → i < n)) ∨
      (∃ s, d = .text s) ∧ d.toInt? = none ∧ d.toFloat?.any (· == Float.ofInt n) := by
  have within : n.natAbs < 2 ^ 64 := by
    unfold leastInt at least
    unfold greatestInt at most
    omega
  cases d with
  | null | bool | variant | record | list => cases same
  | int i => exact .inl ⟨i, same, i, rfl, id⟩
  | float x =>
      have equal : x == Float.ofInt n := same
      have whole : Number.isIntegral x := by
        rw [Number.isIntegral_congr equal]
        exact Number.isIntegral_ofInt within
      obtain ⟨i, rounded⟩ := Number.exists_roundInt? .towardZero whole
      refine .inl ⟨i, ?_, clamp i, ?_, fun less => ?_⟩
      · rw [← Number.beq_congr (Number.beq_ofInt_of_isIntegral whole rounded)
          (Number.ofInt_beq_self n)]
        exact equal
      · unfold toInt?
        dsimp only
        rw [if_pos whole, rounded]
        rfl
      · by_contra reached
        exact absurd less (not_lt.mpr (le_clamp most (not_lt.mp reached)))
  | text s =>
      have mixed : ∀ a b, text s = text a → int n ≠ text b := fun _ _ _ => nofun
      cases number : (Datum.text s).toFloat? with
      | none =>
          rw [sameIdentity_of_none (.inl number) mixed] at same
          cases same
      | some x =>
          rw [sameIdentity_of_numbers number rfl mixed] at same
          cases counted : (Datum.text s).toInt? with
          | none => exact .inr ⟨⟨s, rfl⟩, rfl, same⟩
          | some i =>
              left
              obtain ⟨k, read, stored⟩ := Option.bind_eq_some_iff.mp counted
              obtain ⟨rfl, -⟩ := storedInt?_eq_some.mp stored
              obtain ⟨y, found, equal⟩ := Number.ofText?_of_readInt? read
              cases number.symm.trans found
              refine ⟨k, ?_, k, rfl, id⟩
              rw [← Number.beq_congr equal (Number.ofInt_beq_self n)]
              exact same

namespace Collection

/-- The next free identity is one that no record has, be its identity an integer, a double, a text or
no number at all, and a record with it can be inserted. -/
theorem nextFreeId_unused {c : Collection} (least : Datum.leastInt ≤ c.nextFreeId)
    (most : c.nextFreeId ≤ Datum.greatestInt)
    (told : (Float.ofInt (c.nextFreeId - 1) == Float.ofInt c.nextFreeId) = false)
    (read : ∀ s, .text s ∈ c.givenIdentities → (Datum.text s).toInt? = none →
      (Datum.text s).toFloat?.any (· == Float.ofInt c.nextFreeId) = false) :
    (∀ identity ∈ c.givenIdentities, identity.sameIdentity (.int c.nextFreeId) = false) ∧
    c.find? (.int c.nextFreeId) = none ∧
    ∀ r, c.identityOf? r = some (.int c.nextFreeId) → c.insert r = .ok (c.slotCount, c.push r) := by
  have unused : ∀ identity ∈ c.givenIdentities,
      identity.sameIdentity (.int c.nextFreeId) = false := by
    intro identity given
    rw [Bool.eq_false_iff]
    intro same
    rcases Datum.of_sameIdentity_int least most same with
      ⟨i, equal, j, counted, lower⟩ | ⟨⟨s, rfl⟩, uncounted, number⟩
    · have below := lower (lt_nextFreeId_of_toInt? given counted)
      have within : c.nextFreeId.natAbs < 2 ^ 64 := by
        unfold Datum.leastInt at least
        unfold Datum.greatestInt at most
        omega
      have before := Number.ofInt_beq_between (Int.le_sub_one_of_lt below)
        (Int.sub_le_self _ (by decide)) within equal
      rw [told] at before
      cases before
    · rw [read s given uncounted] at number
      cases number
  have absent : c.find? (.int c.nextFreeId) = none := by
    refine Option.eq_none_iff_forall_ne_some.mpr fun slot found => ?_
    obtain ⟨x, there, same⟩ := of_find? found
    rw [unused x (mem_givenIdentities there)] at same
    cases same
  refine ⟨unused, absent, fun r identified => ?_⟩
  rw [insert_eq, identified]
  dsimp only
  rw [absent, Option.isSome_none, Bool.and_false, if_neg Bool.false_ne_true]

/-- Buoys with identities of several kinds. The text of the last one is no integer. -/
def moorings : Collection :=
  let buoy (id : Datum) : Option Record := some ⟨"Buoy", [("Id", id)]⟩
  ⟨some "Id", .indexed [buoy (.int (-3)), none, buoy (.text "7"), buoy (.float 2.5), buoy .null,
    buoy (.text "8.5")] []⟩

theorem nextFreeId_unused_moorings :
    moorings.nextFreeId = 8 ∧ (Float.ofInt 7 == Float.ofInt 8) = false ∧
    (∀ s, .text s ∈ moorings.givenIdentities → (Datum.text s).toInt? = none →
      (Datum.text s).toFloat?.any (· == Float.ofInt 8) = false) ∧
    moorings.find? (.int 8) = none ∧
    moorings.insert ⟨"Buoy", [("Id", .int 8)]⟩ =
      .ok (6, moorings.push ⟨"Buoy", [("Id", .int 8)]⟩) := by
  have next : moorings.nextFreeId = 8 := by decide +kernel
  have told : (Float.ofInt 7 == Float.ofInt 8) = false := by decide +kernel
  have other : (Datum.text "8.5").toFloat?.any (· == Float.ofInt 8) = false := by decide +kernel
  have read : ∀ s, .text s ∈ moorings.givenIdentities → (Datum.text s).toInt? = none →
      (Datum.text s).toFloat?.any (· == Float.ofInt 8) = false := by
    intro s given uncounted
    have listed : moorings.givenIdentities =
      [.int (-3), .text "7", .float 2.5, .null, .text "8.5"] := rfl
    simp only [listed, List.mem_cons, List.not_mem_nil, reduceCtorEq, or_false, false_or,
      Datum.text.injEq] at given
    rcases given with rfl | rfl
    · have counted : (Datum.text "7").toInt? = some 7 := by decide +kernel
      rw [counted] at uncounted
      cases uncounted
    · exact other
  have unused := nextFreeId_unused (c := moorings) (by rw [next]; decide) (by rw [next]; decide)
    (by rw [next]; exact told) (by rw [next]; exact read)
  rw [next] at unused
  exact ⟨next, told, read, unused.2.1, unused.2.2 _ rfl⟩

/-- The only record has a text that is read as zero but is not counted, so the next free identity is
zero. The record is taken for it, and no other one can be inserted with it. -/
theorem nextFreeId_used :
    let buoy : Record := ⟨"Buoy", [("Id", .text "0.0")]⟩
    (∀ lone ∈ [ofList (some "Id") [buoy], (ofListIndexed (some "Id") [buoy]).2],
      lone.nextFreeId = 0 ∧ lone.identityOf? buoy = some (.text "0.0") ∧ buoy ∈ lone.records ∧
      (Datum.text "0.0").sameIdentity (.int lone.nextFreeId)) ∧
    (ofListIndexed (some "Id") [buoy]).2.insert ⟨"Buoy", [("Id", .int 0)]⟩ =
      .error (.duplicate "0") := by
  intro buoy
  refine ⟨fun lone member => ?_, ?_⟩
  · have kinds :
        lone = ofList (some "Id") [buoy] ∨ lone = (ofListIndexed (some "Id") [buoy]).2 := by
      simpa using member
    rcases kinds with rfl | rfl
    · exact ⟨by decide +kernel, rfl, List.mem_cons_self, by decide +kernel⟩
    · exact ⟨by decide +kernel, rfl, List.mem_cons_self, by decide +kernel⟩
  · have found : ((ofListIndexed (some "Id") [buoy]).2.find? (.int 0)).isSome := by decide +kernel
    have identified : (ofListIndexed (some "Id") [buoy]).2.identityOf? ⟨"Buoy", [("Id", .int 0)]⟩ =
        some (.int 0) := rfl
    rw [insert_eq, identified]
    dsimp only
    rw [found, Bool.and_true]
    exact if_pos rfl

end Collection

end Emend
