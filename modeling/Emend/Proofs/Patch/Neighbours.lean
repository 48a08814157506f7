import Emend.Proofs.Collection.Vacated
import Emend.Proofs.Number.Denoted
import Emend.Proofs.Patch.Spellings

/-!
Literal identities that denote numbers, where records are told apart by integers. Such a text is
taken for an integer, halves going away from zero, and leads to the record of that integer or to
none.
-/

set_option autoImplicit false

namespace Emend

/-- The text is taken for an integer, which is next to the number that it denotes. -/
structure TakenFor (t : String) (x : ℚ) (y : Int) : Prop where
  read : Value.literalInteger? (Text.trim t) = some y
  neighbours : Number.Neighbours x y

/-- A stored integer is within the bounds of its field, or it is as near to them as it can be. -/
theorem ScalarKind.of_read_integer {bits : Nat} {signed : Bool} {s : String} {d : Datum}
    (success : (ScalarKind.integer bits signed).read s = .ok d) :
    ∃ y, Value.literalInteger? s = some y ∧ d = .int (Datum.clamp y) := by
  cases parsed : Value.parseNumber? s with
  | none =>
      obtain ⟨x, number, -⟩ := of_bind_ok success
      unfold Value.toNumber at number
      dsimp only at number
      rw [parsed] at number
      cases number
  | some x =>
      rw [read_of_parseNumber? parsed, store_number] at success
      obtain ⟨i, stored, rfl⟩ := of_map_ok success
      obtain ⟨y, rounded, -, -, rfl⟩ := of_toInteger_ok stored
      refine ⟨y, ?_, rfl⟩
      unfold Value.literalInteger?
      rw [parsed]
      exact rounded

theorem Datum.eq_of_clamp {y n : Int} (same : clamp y = n) (short : n.natAbs < 2 ^ 53) : y = n := by
  unfold clamp leastInt greatestInt at same
  omega

namespace Patch

theorem of_literalIdentity {type : Descriptor} {field name t : String} {bits : Nat} {signed : Bool}
    (declared : type.field? field = some (name, .scalar (.integer bits signed)))
    {position : Position} {identity : Datum} (success : literalIdentity type field t position = .ok identity) :
    ∃ y, Value.literalInteger? (Text.trim t) = some y ∧ identity = .int (Datum.clamp y) := by
  unfold literalIdentity at success
  rw [declared] at success
  dsimp only at success
  split at success
  · rename_i d read
    cases success
    exact ScalarKind.of_read_integer read
  · cases success

/-- An update or a removal of the record with a literal identity, which is the value of its first
identity entry or all that the removal says. -/
inductive NamesLiteral (field t : String) : Instruction → Prop
  | entry (u : Unnamed) {key : String} (verb : u.verb = .update ∨ u.verb = .remove)
      (first : ∀ entry ∈ u.before, identityForm? field entry.1 = none)
      (literal : identityForm? field key = some .literal) (plain : key.startsWith "$" = false) :
      NamesLiteral field t (u.named key t)
  | payload (place position : Position) : NamesLiteral field t ⟨.remove, .scalar t place, position⟩

/-- Among records with integers of fewer than fifty-four bits an integer leads to its own record. -/
theorem of_slotOf_int {type : Descriptor} {records : Collection} {ids : List Int} {i : Int}
    (identities : records.identities = ids.map fun n => some (.int n))
    (short : ∀ n ∈ ids, n.natAbs < 2 ^ 53) {position : Position} {slot : Nat}
    (found : slotOf type records (.int i) position = .ok slot) :
    i ∈ ids ∧ ∃ r, records.get? slot = some r ∧ records.identityOf? r = some (.int i) := by
  unfold slotOf at found
  split at found
  · rename_i here
    cases found
    obtain ⟨identity, there, same⟩ := Collection.of_find? here
    have listed := Collection.mem_givenIdentities there
    rw [Collection.givenIdentities_of_ints identities] at listed
    obtain ⟨n, member, rfl⟩ := List.mem_map.mp listed
    have equal : Float.ofInt n == Float.ofInt i := same
    rw [Number.ofInt_beq_comm, Number.ofInt_beq_of_short (short n member)] at equal
    obtain rfl := of_decide_eq_true equal
    obtain ⟨r, taken, identified⟩ := Option.bind_eq_some_iff.mp there
    exact ⟨member, r, taken, identified⟩
  · cases found

/-- The slot of the record with the identity that a text is read as. -/
def slotOfLiteral (type : Descriptor) (field t : String) (records : Collection)
    (spot position : Position) : Except PatchError Nat := do
  let identity ← literalIdentity type field t spot
  slotOf type records identity position

section
variable {type : Descriptor} {field name t : String} {bits : Nat} {signed : Bool}
  {records : Collection} {ids : List Int} {x : ℚ}
  (declared : type.field? field = some (name, .scalar (.integer bits signed)))
  (identities : records.identities = ids.map fun n => some (.int n))
  (short : ∀ n ∈ ids, n.natAbs < 2 ^ 53) (denotes : Number.Denotes (Text.trim t).toList x)
include declared identities short denotes

theorem of_slotOfLiteral {spot position : Position} {slot : Nat}
    (aimed : slotOfLiteral type field t records spot position = .ok slot) :
    ∃ y ∈ ids, TakenFor t x y ∧ ∃ r, records.get? slot = some r ∧
      records.identityOf? r = some (.int y) := by
  obtain ⟨identity, literal, found⟩ := of_bind_ok aimed
  obtain ⟨y, read, rfl⟩ := of_literalIdentity declared literal
  obtain ⟨member, r, there, identified⟩ := of_slotOf_int identities short found
  -- Only a longer integer than the records have would have been changed.
  have kept : y = Datum.clamp y := Datum.eq_of_clamp rfl (short _ member)
  rw [← kept] at member identified
  have neighbours := Value.neighbours_literalInteger? denotes read (short y member)
  exact ⟨y, member, ⟨read, neighbours⟩, r, there, identified⟩

end

namespace Workspace

section
variable (settings : Settings) (type : Descriptor) {w : Workspace} {field t : String}
  {records : Collection} {i : Instruction} (here : w.target = .collection field records)
include here

/-- Such an instruction depends on the slot that the identity leads to. If there is none, nothing
happens; if there is one, its record is taken out or another one takes its place. -/
theorem step_of_namesLiteral (names : NamesLiteral field t i) :
    ∃ spot position,
      (∀ e, slotOfLiteral type field t records spot position = .error e →
        w.step settings type i = (.error e, w)) ∧
      ∀ left, w.step settings type i = (.ok .applied, left) →
        ∃ slot after, slotOfLiteral type field t records spot position = .ok slot ∧
          left = { w with target := .collection field after } ∧
          (after = records.remove slot ∨ ∃ next, after = records.replace slot next) := by
  have put {made : Except PatchError Collection} {left : Workspace}
      (applied : w.keep made (fun records => { w with target := .collection field records }) =
        (.ok .applied, left)) :
      ∃ after, made = .ok after ∧ left = { w with target := .collection field after } := by
    cases made with
    | error e => cases applied
    | ok after => exact ⟨after, rfl, (congrArg Prod.snd applied).symm⟩
  cases names with
  | @entry u key verb first literal plain =>
      refine ⟨u.spot.or u.position, u.position, ?_⟩
      unfold slotOfLiteral
      rw [← aim_literal (c := ⟨settings, w.store⟩) first literal plain records]
      refine ⟨fun e fails => step_named_error here verb fails, fun left applied => ?_⟩
      rcases verb with update | remove
      · rw [step_update settings type here update] at applied
        obtain ⟨after, made, rfl⟩ := put applied
        obtain ⟨slot, r, next, done⟩ := of_update_ok made
        have located := done.located
        rw [located_eq] at located
        obtain ⟨slot', aimed, found⟩ := of_bind_ok located
        split at found
        · cases found
          exact ⟨slot, after, aimed, rfl, .inr ⟨next, done.replaced⟩⟩
        · cases found
      · rw [step_remove settings type here remove, remove_named] at applied
        obtain ⟨after, made, rfl⟩ := put applied
        obtain ⟨slot, aimed, made⟩ := of_bind_ok made
        cases made
        exact ⟨slot, _, aimed, rfl, .inl rfl⟩
  | payload place position =>
      refine ⟨position, position, ?_⟩
      have whole : (remove ⟨settings, w.store⟩ type field
          ⟨.remove, .scalar t place, position⟩).result records =
          slotOfLiteral type field t records position position >>= fun slot =>
            .ok (records.remove slot) := by
        rw [remove_result]
        unfold slotOfLiteral
        rw [bind_assoc]
        rfl
      rw [step_remove settings type here rfl, whole]
      refine ⟨fun e fails => ?_, fun left applied => ?_⟩
      · rw [fails]
        rfl
      · obtain ⟨after, made, rfl⟩ := put applied
        obtain ⟨slot, aimed, made⟩ := of_bind_ok made
        cases made
        exact ⟨slot, _, aimed, rfl, .inl rfl⟩

variable {name : String} {bits : Nat} {signed : Bool} {ids : List Int} {x : ℚ}
  (declared : type.field? field = some (name, .scalar (.integer bits signed)))
  (identities : records.identities = ids.map fun n => some (.int n))
  (short : ∀ n ∈ ids, n.natAbs < 2 ^ 53) (names : NamesLiteral field t i)
  (denotes : Number.Denotes (Text.trim t).toList x)
include declared identities short names denotes

/-- A literal identity hits the record of the integer that its text is taken for, and no other
record changes. If there is no such record, nothing does. For a text that denotes an integer it is
the record of that integer; otherwise the integer is next to the number, halves going away from
zero. -/
theorem step_literal_neighbours :
    (∀ left, w.step settings type i = (.ok .applied, left) →
      ∃ y r front back changed after, TakenFor t x y ∧
        records.records = front ++ r :: back ∧ records.identityOf? r = some (.int y) ∧
        left = { w with target := .collection field after } ∧
        after.records = front ++ changed ++ back ∧ changed.length ≤ 1) ∧
    ((∀ n ∈ ids, ¬ TakenFor t x n) → ∃ e, w.step settings type i = (.error e, w)) ∧
    ∀ n : Int, x = n → ∀ y, TakenFor t x y → y = n := by
  obtain ⟨spot, position, fails, succeeds⟩ := step_of_namesLiteral settings type here names
  refine ⟨fun left applied => ?_, fun missed => ?_, fun n integral y taken => ?_⟩
  · obtain ⟨slot, after, aimed, rfl, edited⟩ := succeeds left applied
    obtain ⟨y, -, taken, r, there, identified⟩ :=
      of_slotOfLiteral declared identities short denotes aimed
    obtain ⟨front, back, listed, removed, replaced⟩ := records.exists_between there
    rcases edited with rfl | ⟨next, rfl⟩
    · refine ⟨y, r, front, back, [], _, taken, listed, identified, rfl, ?_, Nat.zero_le 1⟩
      rw [removed, List.append_nil]
    · refine ⟨y, r, front, back, [next], _, taken, listed, identified, rfl, ?_, Nat.le_refl 1⟩
      rw [replaced, List.append_assoc]
      rfl
  · cases aimed : slotOfLiteral type field t records spot position with
    | error e => exact ⟨e, fails e aimed⟩
    | ok slot =>
        obtain ⟨y, member, taken, -⟩ := of_slotOfLiteral declared identities short denotes aimed
        exact absurd taken (missed y member)
  · subst integral
    exact taken.neighbours.eq

end

/-- A ship is to bear another name. -/
def rechristening : Unnamed :=
  ⟨.update, [], [("Name", .scalar "Moved" .unknown)], .unknown, .unknown, .unknown⟩

theorem rechristening_namesLiteral (t : String) :
    NamesLiteral "ShipId" t (rechristening.named "ShipId" t) :=
  .entry rechristening (.inl rfl) (fun entry member => absurd member List.not_mem_nil)
    (if_pos (beq_self_eq_true _)) (by decide +kernel)

theorem denotes_between : Number.Denotes (Text.trim "1.6").toList (8 / 5) := by
  have trimmed : (Text.trim "1.6").toList = ['1'] ++ '.' :: (['6'] ++ []) := by decide +kernel
  have value : (8 / 5 : ℚ) =
      Number.digitsValue (['1'] ++ ['6']) * 10 ^ (0 - ((['6'] : List Char).length : Int)) := by
    have digits : Number.digitsValue (['1'] ++ ['6']) = 16 := rfl
    rw [digits]
    norm_num
  have digit : ∀ c ∈ ['1'], c.isDigit := fun c member => List.mem_singleton.mp member ▸ rfl
  have decimal : ∀ c ∈ ['6'], c.isDigit := fun c member => List.mem_singleton.mp member ▸ rfl
  rw [trimmed, value]
  exact .plain (.pointed (.inl (List.cons_ne_nil _ _)) digit decimal .none)

/-- The second ship is renamed, the number of which is next to the one of the text. -/
theorem step_literal_neighbours_convoy :
    shipType.field? "ShipId" = some ("ShipId", .scalar (.integer 32 true)) ∧
    convoy.identities = [0, 2].map (fun n => some (.int n)) ∧
    (∀ n ∈ [0, (2 : Int)], n.natAbs < 2 ^ 53) ∧
    ∃ left y r front back changed after,
      flotilla.step .initial shipType (rechristening.named "ShipId" "1.6") = (.ok .applied, left) ∧
      TakenFor "1.6" (8 / 5) y ∧ convoy.records = front ++ r :: back ∧
      convoy.identityOf? r = some (.int y) ∧
      left = { flotilla with target := .collection "ShipId" after } ∧
      after.records = front ++ changed ++ back ∧ changed.length ≤ 1 := by
  have short : ∀ n ∈ [0, (2 : Int)], n.natAbs < 2 ^ 53 := by decide
  have succeeds : ((update ⟨.initial, flotilla.store⟩ shipType "ShipId"
      (rechristening.named "ShipId" "1.6")).result convoy).isOk := by
    decide +kernel
  obtain ⟨made, success⟩ := of_isOk succeeds
  have applied : flotilla.step .initial shipType (rechristening.named "ShipId" "1.6") =
      (.ok .applied, { flotilla with target := .collection "ShipId" made }) := by
    rw [step_update (w := flotilla) .initial shipType rfl rfl, success]
    rfl
  obtain ⟨y, r, front, back, changed, after, others⟩ :=
    (step_literal_neighbours (w := flotilla) .initial shipType rfl rfl rfl short
      (rechristening_namesLiteral "1.6") denotes_between).1 _ applied
  exact ⟨rfl, rfl, short, _, y, r, front, back, changed, after, applied, others⟩

/-- No ship has the number that the text denotes, and yet one of them is removed. -/
theorem step_literal_between :
    NamesLiteral "ShipId" "1.6" ⟨.remove, .scalar "1.6" .unknown, .unknown⟩ ∧
    Number.Denotes (Text.trim "1.6").toList (8 / 5) ∧
    (∀ n ∈ [0, (2 : Int)], (n : ℚ) ≠ 8 / 5) ∧
    convoy.identities = [0, 2].map (fun n => some (.int n)) ∧
    ∃ after, flotilla.step .initial shipType ⟨.remove, .scalar "1.6" .unknown, .unknown⟩ =
        (.ok .applied, { flotilla with target := .collection "ShipId" after }) ∧
      (convoy.get? 2).isSome ∧ (after.get? 2).isSome = false := by
  have removed : ((remove ⟨.initial, flotilla.store⟩ shipType "ShipId"
      ⟨.remove, .scalar "1.6" .unknown, .unknown⟩).result convoy).toOption.map
        (fun after => (after.get? 2).isSome) = some false := by
    decide +kernel
  obtain ⟨after, made, gone⟩ := of_toOption_map removed
  refine ⟨.payload .unknown .unknown, denotes_between, ?_, rfl, after, ?_, rfl, gone⟩
  · intro n member
    rcases List.mem_cons.mp member with rfl | member
    · norm_num
    · rw [List.mem_singleton.mp member]
      norm_num
  · rw [step_remove (w := flotilla) .initial shipType rfl rfl, made]
    rfl

end Workspace

end Patch

end Emend
