import Emend.Proofs.Fields
import Emend.Proofs.Except
import Emend.Proofs.Number.Order
import Emend.Proofs.Version.Order

/-!
Equality and order of values from both sides. Whichever of two values comes first, they are equal or
not, can be compared or not, and are in one order, read forwards or backwards.
-/

set_option autoImplicit false

namespace Emend

theorem Version.same_comm (v w : Version) : v.same w = w.same v := by
  rw [Bool.eq_iff_iff, same_iff, same_iff]
  exact Std.OrientedCmp.eq_comm

namespace Datum

mutual

def namesApart : Datum → Bool
  | record _ fields => decide (fields.map (·.1)).Nodup && fieldsApart fields
  | list items => itemsApart items
  | _ => true

def fieldsApart : List (String × Datum) → Bool
  | [] => true
  | (_, x) :: rest => namesApart x && fieldsApart rest

def itemsApart : List Datum → Bool
  | [] => true
  | x :: rest => namesApart x && itemsApart rest

end

theorem fieldsApart_iff {fields : List (String × Datum)} :
    fieldsApart fields ↔ ∀ entry ∈ fields, entry.2.namesApart := by
  induction fields with
  | nil => simp [fieldsApart]
  | cons entry rest ih => rw [fieldsApart, Bool.and_eq_true, ih, List.forall_mem_cons]

theorem itemsApart_iff {items : List Datum} : itemsApart items ↔ ∀ x ∈ items, x.namesApart := by
  induction items with
  | nil => simp [itemsApart]
  | cons x rest ih => rw [itemsApart, Bool.and_eq_true, ih, List.forall_mem_cons]

theorem namesApart_record {typeName : String} {fields : List (String × Datum)} :
    (record typeName fields).namesApart ↔
      (fields.map (·.1)).Nodup ∧ ∀ entry ∈ fields, entry.2.namesApart := by
  rw [namesApart, Bool.and_eq_true, decide_eq_true_iff, fieldsApart_iff]

theorem namesApart_list {items : List Datum} :
    (list items).namesApart ↔ ∀ x ∈ items, x.namesApart := by
  rw [namesApart, itemsApart_iff]

/-- Setting a field by its name keeps the names of a record apart, and a record without fields has
none, so every record that is put together field by field has them apart. -/
theorem namesApart_set {r : Record} {x : Datum} (name : String) (apart : (ofRecord r).namesApart)
    (inner : x.namesApart) : (ofRecord (r.set name x)).namesApart := by
  obtain ⟨names, fields⟩ := namesApart_record.mp apart
  refine namesApart_record.mpr ⟨Fields.put_apart name x names, fun entry member => ?_⟩
  rcases Fields.mem_put member with rfl | old
  · exact inner
  · exact fields entry old

theorem sameFields_iff {as bs : List (String × Datum)} :
    sameFields as bs ↔ ∀ entry ∈ as, ∃ b, Fields.find? entry.1 bs = some b ∧ entry.2.same b := by
  induction as with
  | nil => simp [sameFields]
  | cons entry rest ih =>
      obtain ⟨name, a⟩ := entry
      rw [sameFields, Bool.and_eq_true, ih, List.forall_mem_cons]
      refine and_congr_left fun _ => ?_
      cases Fields.find? name bs <;> simp

/-- With names that differ and as many fields, every field of the other side has an equal one too. -/
theorem sameFields_symm {as bs : List (String × Datum)} (apartA : (as.map (·.1)).Nodup)
    (apartB : (bs.map (·.1)).Nodup) (lengths : as.length = bs.length)
    (each : ∀ a ∈ as, ∀ b ∈ bs, a.2.same b.2 → b.2.same a.2) (equal : sameFields as bs) :
    sameFields bs as := by
  rw [sameFields_iff] at equal ⊢
  have contained : as.map (·.1) ⊆ bs.map (·.1) := by
    intro name listed
    obtain ⟨entry, member, rfl⟩ := List.mem_map.mp listed
    obtain ⟨b, found, -⟩ := equal entry member
    exact List.mem_map.mpr ⟨_, Fields.mem_of_find? found, rfl⟩
  have perm : (as.map (·.1)).Perm (bs.map (·.1)) :=
    (apartA.subperm contained).perm_of_length_le (by simp [lengths])
  intro entry member
  obtain ⟨other, listed, named⟩ :=
    List.mem_map.mp (perm.mem_iff.mpr (List.mem_map_of_mem member))
  obtain ⟨b, found, same⟩ := equal other listed
  have here := Fields.find?_of_mem apartB member
  rw [← named, found] at here
  cases here
  exact ⟨other.2, named ▸ Fields.find?_of_mem apartA listed, each other listed entry member same⟩

theorem sameItems_symm {as bs : List Datum}
    (each : ∀ a ∈ as, ∀ b ∈ bs, a.same b → b.same a) (equal : sameItems as bs) :
    sameItems bs as := by
  induction as generalizing bs with
  | nil => cases bs <;> exact equal
  | cons a as ih =>
      cases bs with
      | nil => exact equal
      | cons b bs =>
          rw [sameItems, Bool.and_eq_true] at equal ⊢
          obtain ⟨first, others⟩ := equal
          refine ⟨each a List.mem_cons_self b List.mem_cons_self first, ih ?_ others⟩
          exact fun x inA y inB =>
            each x (List.mem_cons_of_mem _ inA) y (List.mem_cons_of_mem _ inB)

theorem same_symm : (a b : Datum) → a.namesApart → b.namesApart → a.same b → b.same a
  | record s as, b, apartA, apartB, equal => by
      cases b with
      | record t bs =>
          rw [same, Bool.and_eq_true, Bool.and_eq_true, beq_iff_eq, beq_iff_eq] at equal ⊢
          obtain ⟨⟨types, lengths⟩, fields⟩ := equal
          obtain ⟨namesA, fieldsA⟩ := namesApart_record.mp apartA
          obtain ⟨namesB, fieldsB⟩ := namesApart_record.mp apartB
          refine ⟨⟨types.symm, lengths.symm⟩, ?_⟩
          refine sameFields_symm namesA namesB lengths (fun x inA y inB => ?_) fields
          exact same_symm x.2 y.2 (fieldsA x inA) (fieldsB y inB)
      | _ => exact equal
  | list as, b, apartA, apartB, equal => by
      cases b with
      | list bs =>
          rw [same] at equal ⊢
          refine sameItems_symm (fun x inA y inB => ?_) equal
          exact same_symm x y (namesApart_list.mp apartA x inA) (namesApart_list.mp apartB y inB)
      | _ => exact equal
  | null, b, _, _, equal | bool _, b, _, _, equal | int _, b, _, _, equal
  | float _, b, _, _, equal | text _, b, _, _, equal | variant _, b, _, _, equal => by
      cases b <;> first | exact BEq.symm equal | exact equal
termination_by a => sizeOf a
decreasing_by
  · have smaller := List.sizeOf_lt_of_mem inA
    obtain ⟨name, x⟩ := x
    simp only [record.sizeOf_spec, Prod.mk.sizeOf_spec] at smaller ⊢
    omega
  · have smaller := List.sizeOf_lt_of_mem inA
    simp only [list.sizeOf_spec]
    omega

theorem same_comm {a b : Datum} (apartA : a.namesApart) (apartB : b.namesApart) :
    a.same b = b.same a := by
  rw [Bool.eq_iff_iff]
  exact ⟨same_symm a b apartA apartB, same_symm b a apartB apartA⟩

end Datum

namespace Value

mutual

def namesApart : Value → Bool
  | record r => (Datum.ofRecord r).namesApart
  | tuple items => itemsApart items
  | _ => true

def itemsApart : List Value → Bool
  | [] => true
  | v :: rest => namesApart v && itemsApart rest

end

theorem itemsApart_iff {items : List Value} : itemsApart items ↔ ∀ v ∈ items, v.namesApart := by
  induction items with
  | nil => simp [itemsApart]
  | cons v rest ih => rw [itemsApart, Bool.and_eq_true, ih, List.forall_mem_cons]

theorem namesApart_tuple {items : List Value} :
    (tuple items).namesApart ↔ ∀ v ∈ items, v.namesApart := by
  rw [namesApart, itemsApart_iff]

theorem namesApart_record {r : Record} :
    (record r).namesApart ↔ (Datum.ofRecord r).namesApart := by
  rw [namesApart]

theorem sameItems_comm {as bs : List Value} (each : ∀ a ∈ as, ∀ b ∈ bs, a.same b = b.same a) :
    sameItems as bs = sameItems bs as := by
  induction as generalizing bs with
  | nil => cases bs <;> rfl
  | cons a as ih =>
      cases bs with
      | nil => rfl
      | cons b bs =>
          have others : sameItems as bs = sameItems bs as := ih fun x inA y inB =>
            each x (List.mem_cons_of_mem _ inA) y (List.mem_cons_of_mem _ inB)
          rw [sameItems, sameItems, each a List.mem_cons_self b List.mem_cons_self, others]

/-- Of two kinds the same one decides how both values are taken, on whichever side it stands; so only
values of one kind, and values taken as text, are left to compare. -/
theorem same_comm : (a b : Value) → a.namesApart → b.namesApart → a.same b = b.same a
  | null, b, _, _ => by cases b <;> rfl
  | number x, b, _, _ => by
      cases b with
      | number y => exact BEq.comm (a := x)
      | _ => rfl
  | version v, b, _, _ => by
      cases b with
      | version w => exact v.same_comm w
      | _ => rfl
  | boolean x, b, _, _ => by
      cases b with
      | boolean y => exact BEq.comm (a := x)
      | _ => rfl
  | tuple as, b, apartA, apartB => by
      cases b with
      | tuple bs =>
          rw [same, same]
          refine sameItems_comm fun x inA y inB => ?_
          exact same_comm x y (namesApart_tuple.mp apartA x inA) (namesApart_tuple.mp apartB y inB)
      | text _ | record _ => exact BEq.comm (a := (tuple as).toText)
      | _ => rfl
  | record r, b, apartA, apartB => by
      cases b with
      | record s =>
          exact Datum.same_comm (namesApart_record.mp apartA) (namesApart_record.mp apartB)
      | text _ | tuple _ => exact BEq.comm (a := (record r).toText)
      | _ => rfl
  | text s, b, _, _ => by
      cases b with
      | text _ | tuple _ | record _ => exact BEq.comm (a := s)
      | _ => rfl
termination_by a => sizeOf a
decreasing_by
  have smaller := List.sizeOf_lt_of_mem inA
  simp only [tuple.sizeOf_spec]
  omega

/-- Both fail, or both succeed and one answer is the other one read backwards. -/
inductive Reversed : Except CoercionError (Option Ordering) → Except CoercionError (Option Ordering) → Prop
  | failed (e e' : CoercionError) : Reversed (.error e) (.error e')
  | done (order : Option Ordering) : Reversed (.ok order) (.ok (order.map .swap))

theorem compareAsNumbers_reversed (a b : Value) :
    Reversed (compareAsNumbers a b) (compareAsNumbers b a) := by
  unfold compareAsNumbers
  cases a.toNumber with
  | error e => cases b.toNumber <;> exact .failed _ _
  | ok x =>
      cases b.toNumber with
      | error e => exact .failed _ _
      | ok y =>
          simp only [ok_bind]
          rw [Number.compareNumbers_swap x y]
          exact .done _

theorem compareAsVersions_reversed (a b : Value) :
    Reversed (compareAsVersions a b) (compareAsVersions b a) := by
  unfold compareAsVersions
  cases a.toVersion with
  | error e => cases b.toVersion <;> exact .failed _ _
  | ok v =>
      cases b.toVersion with
      | error e => exact .failed _ _
      | ok w =>
          have turned : w.cmp v = (v.cmp w).swap := Std.OrientedCmp.eq_swap
          simp only [ok_bind]
          rw [turned]
          exact .done _

theorem compareAsTexts_reversed (s t : String) :
    Reversed (.ok (some (compare s t))) (.ok (some (compare t s))) := by
  rw [Std.OrientedOrd.eq_swap (a := t)]
  exact .done _

theorem compare?_reversed (a b : Value) : Reversed (a.compare? b) (b.compare? a) := by
  cases a with
  | number x => cases b <;> exact compareAsNumbers_reversed _ _
  | version v =>
      cases b with
      | number y => exact compareAsNumbers_reversed _ _
      | _ => exact compareAsVersions_reversed _ _
  | _ =>
      cases b with
      | number y => exact compareAsNumbers_reversed _ _
      | version w => exact compareAsVersions_reversed _ _
      | _ => exact compareAsTexts_reversed _ _

/-- Equality does not depend on which value comes first. Neither does it for the order whether there is
an answer, and the answers are the same one read forwards and backwards. -/
theorem operands_swap {a b : Value} (apartA : a.namesApart) (apartB : b.namesApart) :
    a.same b = b.same a ∧
    ((∃ e, a.compare? b = .error e) ↔ ∃ e, b.compare? a = .error e) ∧
    ∀ order other, a.compare? b = .ok order → b.compare? a = .ok other →
      other = order.map Ordering.swap := by
  have reversed := compare?_reversed a b
  refine ⟨same_comm a b apartA apartB, ?_⟩
  generalize a.compare? b = forwards at reversed ⊢
  generalize b.compare? a = backwards at reversed ⊢
  cases reversed with
  | failed e e' => exact ⟨⟨fun _ => ⟨e', rfl⟩, fun _ => ⟨e, rfl⟩⟩, nofun⟩
  | done order =>
      refine ⟨⟨nofun, nofun⟩, ?_⟩
      rintro _ _ ⟨⟩ ⟨⟩
      rfl

/-- A ship's record, the version of its papers and its depth. -/
def signedOn : Value :=
  .tuple [.record ⟨"Ship", [("Name", .text "Ann"), ("Masts", .list [.int 2])]⟩,
    .tuple [.text " 1.0", .null], .number 2]

/-- The same with the fields of the record in another order and other kinds of items. -/
def signedOff : Value :=
  .tuple [.record ⟨"Ship", [("Masts", .list [.int 2]), ("Name", .text "Ann")]⟩,
    .tuple [.version ⟨[1], none⟩, .null], .text "2.0"]

/-- The two are equal, but their texts are not. -/
theorem operands_swap_ship : signedOn.namesApart ∧ signedOff.namesApart ∧
    signedOn.same signedOff ∧ signedOff.same signedOn ∧
    signedOn.compare? signedOff = .ok (some .lt) ∧ (¬ ∃ e, signedOff.compare? signedOn = .error e) ∧
    ∀ other, signedOff.compare? signedOn = .ok other → other = some .gt := by
  have on : signedOn.namesApart := by decide
  have off : signedOff.namesApart := by decide
  have same : signedOn.same signedOff := by decide +kernel
  have texts : compare signedOn.toText signedOff.toText = .lt := by decide +kernel
  have compared : signedOn.compare? signedOff = .ok (some .lt) :=
    congrArg (fun order => Except.ok (some order)) texts
  obtain ⟨equal, errors, answers⟩ := operands_swap on off
  refine ⟨on, off, same, equal ▸ same, compared, ?_, fun other => answers _ other compared⟩
  rw [← errors, compared]
  nofun

end Value

end Emend
