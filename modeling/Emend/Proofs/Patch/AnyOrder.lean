import Emend.Proofs.Patch.Placewise

/-!
Entries in any order. An entry that asks for no formula gives its field what it gives whatever the other
fields hold, so entries for different fields give the same record in every order, or fail in every one.
-/

set_option autoImplicit false

namespace Emend.Patch

variable {c : Context} {type : Descriptor}

/-- Whether an entry gives its field the same whatever the other fields hold: the key asks for no formula,
and neither does the node, if it is text. -/
def standsAlone (c : Context) (type : Descriptor) (entry : String × Node) : Bool :=
  match type.field? (fieldKey entry.1).1 with
  | some (_, fieldType) => !(fieldKey entry.1).2 && isLiteralText c fieldType entry.2
  | none => true

theorem standsAlone_of_literalFields {entries : Entries} (literal : literalFields c type entries) :
    ∀ entry ∈ entries, standsAlone c type entry := by
  induction entries with
  | nil => exact fun _ member => absurd member List.not_mem_nil
  | cons entry rest ih =>
      obtain ⟨key, node⟩ := entry
      unfold literalFields at literal
      obtain ⟨here, others⟩ := Bool.and_eq_true_iff.mp literal
      refine List.forall_mem_cons.mpr ⟨?_, ih others⟩
      unfold standsAlone
      cases found : type.field? (fieldKey key).1 with
      | none => rfl
      | some field =>
          rw [found] at here
          obtain ⟨plain, literal⟩ := Bool.and_eq_true_iff.mp here
          exact Bool.and_eq_true_iff.mpr ⟨plain, isLiteralText_of_isLiteral literal⟩

/-- What an entry gives to a field of the record, with the declared name of that field. -/
def given (c : Context) (type : Descriptor) (r : Record) (entry : String × Node) :
    Except PatchError (String × Datum) :=
  match type.field? (fieldKey entry.1).1 with
  | none => .error (.mismatch (fieldKey entry.1).1 ("a field of " ++ type.name) "unknown field"
      entry.2.position)
  | some (name, fieldType) =>
    (patchDatum c inRecord name fieldType ((r.get? name).getD .null) entry.2).map (name, ·)

/-- The declared names of the fields that entries patch are all different. -/
abbrev Apart (type : Descriptor) (entries : Entries) : Prop :=
  ((addressed type entries).map (·.1)).Nodup

theorem patchField_given {r : Record} {key : String} {node : Node}
    (alone : standsAlone c type (key, node)) :
    (patchField c type r key node fun name fieldType current =>
        patchDatum c (.field r) name fieldType current node) =
      (given c type r (key, node)).map fun field => r.set field.1 field.2 := by
  unfold standsAlone at alone
  unfold patchField given
  dsimp only
  cases found : type.field? (fieldKey key).1 with
  | none => rfl
  | some field =>
      obtain ⟨name, fieldType⟩ := field
      rw [found] at alone
      obtain ⟨plain, literal⟩ := Bool.and_eq_true_iff.mp alone
      dsimp only
      rw [(Bool.not_eq_true' _).mp plain, if_neg Bool.false_ne_true, patchDatum_inRecord_of_text literal]
      cases patchDatum c inRecord name fieldType ((r.get? name).getD .null) node <;> rfl

theorem given_set {r : Record} {entry : String × Node} {name : String} (x : Datum)
    (other : ∀ field, type.field? (fieldKey entry.1).1 = some field → field.1 ≠ name) :
    given c type (r.set name x) entry = given c type r entry := by
  unfold given
  cases found : type.field? (fieldKey entry.1).1 with
  | none => rfl
  | some field =>
      obtain ⟨own, fieldType⟩ := field
      unfold Record.get? Record.set
      dsimp only
      rw [Fields.find?_put_other _ _ _ _ (other _ found)]

theorem mem_addressed {entries : Entries} {entry : String × Node} {field : String × Descriptor}
    (member : entry ∈ entries) (found : type.field? (fieldKey entry.1).1 = some field) :
    field.1 ∈ (addressed type entries).map (·.1) :=
  List.mem_map.mpr ⟨(field.1, entry.2),
    List.mem_filterMap.mpr ⟨entry, member, by rw [found]; rfl⟩, rfl⟩

theorem of_given_ok {r : Record} {entry : String × Node} {field : String × Datum}
    (success : given c type r entry = .ok field) :
    ∃ fieldType, type.field? (fieldKey entry.1).1 = some (field.1, fieldType) := by
  unfold given at success
  cases found : type.field? (fieldKey entry.1).1 with
  | none =>
      rw [found] at success
      cases success
  | some declared =>
      rw [found] at success
      obtain ⟨x, -, rfl⟩ := of_map_ok success
      exact ⟨declared.2, rfl⟩

/-- Every entry sees the record as it was before all of them. -/
theorem patchRecord_given {r : Record} {entries : Entries}
    (alone : ∀ entry ∈ entries, standsAlone c type entry) (apart : Apart type entries) :
    patchRecord c type r entries =
      (entries.mapM (given c type r)).map fun written =>
        ⟨r.typeName, Fields.putAll written r.fields⟩ := by
  induction entries generalizing r with
  | nil => rfl
  | cons entry rest ih =>
      obtain ⟨key, node⟩ := entry
      obtain ⟨first, others⟩ := List.forall_mem_cons.mp alone
      rw [patchRecord_cons, patchField_given first, List.mapM_cons]
      cases here : given c type r (key, node) with
      | error e => rfl
      | ok field =>
          obtain ⟨name, x⟩ := field
          obtain ⟨fieldType, found⟩ := of_given_ok here
          unfold Apart at apart
          rw [addressed_cons node rest found, List.map_cons] at apart
          obtain ⟨absent, later⟩ := List.nodup_cons.mp apart
          have same : rest.mapM (given c type (r.set name x)) = rest.mapM (given c type r) :=
            mapM_congr fun entry member => given_set x fun field declared equal =>
              absent (equal ▸ mem_addressed member declared)
          change patchRecord c type (r.set name x) rest = _
          rw [ih others later, same]
          cases rest.mapM (given c type r) <;> rfl

theorem names_of_given {r : Record} {entries : Entries} {written : List (String × Datum)}
    (success : entries.mapM (given c type r) = .ok written) :
    written.map (·.1) = (addressed type entries).map (·.1) := by
  induction entries generalizing written with
  | nil =>
      cases success
      rfl
  | cons entry rest ih =>
      rw [List.mapM_cons] at success
      obtain ⟨field, first, success⟩ := of_bind_ok success
      obtain ⟨others, later, success⟩ := of_bind_ok success
      cases success
      obtain ⟨fieldType, found⟩ := of_given_ok first
      rw [addressed_cons entry.2 rest found, List.map_cons, List.map_cons, ih later]

/-- The same fields with the same data, but for their order. -/
structure Reordered (r other : Record) : Prop where
  typeName : r.typeName = other.typeName
  fields : r.fields.Perm other.fields
  each : ∀ name, r.get? name = other.get? name

/-- Entries that stand alone and are for different fields are refused in every order, or in every order
the record has the same fields with the same data. -/
theorem patchRecord_anyOrder (r : Record) {entries : Entries}
    (alone : ∀ entry ∈ entries, standsAlone c type entry) (apart : Apart type entries) :
    (∀ others, entries.Perm others → ∃ e, patchRecord c type r others = .error e) ∨
    ∃ next, ∀ others, entries.Perm others → ∃ again, patchRecord c type r others = .ok again ∧
      Reordered again next := by
  have patched {others : Entries} (perm : entries.Perm others) :
      patchRecord c type r others = (others.mapM (given c type r)).map fun written =>
        ⟨r.typeName, Fields.putAll written r.fields⟩ := by
    apply patchRecord_given fun entry member => alone entry (perm.mem_iff.mpr member)
    exact ((perm.filterMap _).map _).nodup_iff.mp apart
  cases whole : entries.mapM (given c type r) with
  | error e =>
      left
      intro others perm
      rw [patched perm]
      cases made : others.mapM (given c type r) with
      | error e' => exact ⟨e', rfl⟩
      | ok written =>
          obtain ⟨again, success, -⟩ := exists_mapM_of_perm perm.symm made
          rw [whole] at success
          cases success
  | ok written =>
      have named := names_of_given whole
      refine .inr ⟨⟨r.typeName, Fields.putAll written r.fields⟩, fun others perm => ?_⟩
      obtain ⟨again, made, reordered⟩ := exists_mapM_of_perm perm whole
      refine ⟨⟨r.typeName, Fields.putAll again r.fields⟩, ?_, rfl, ?_, fun name => ?_⟩
      · rw [patched perm, made]
        rfl
      · exact (Fields.putAll_perm reordered (named ▸ apart) r.fields).symm
      · exact Fields.find?_putAll_perm reordered (named ▸ apart) name r.fields

def tenderType : Descriptor :=
  let weight := .scalar (.integer 32 true)
  .record "Tender" [("Age", weight), ("Name", .scalar .text),
    ("Anchor", .record "Anchor" [("Weight", weight)] none false), ("Chain", .list weight false)] none false

/-- A tender that has neither anchor nor chain yet. -/
def tender : Record := ⟨"Tender", [("Name", .text "Ann"), ("Age", .int 3)]⟩

def outfit : Entries :=
  [("Age", .scalar "7" .unknown),
    ("Chain", .mapping [("0", .scalar "5" .unknown)] .unknown),
    ("Anchor", .mapping [("Weight", .scalar "12" .unknown)] .unknown)]

theorem patchRecord_anyOrder_tender :
    let c : Context := ⟨.initial, .empty⟩
    (∀ entry ∈ outfit, standsAlone c tenderType entry) ∧ Apart tenderType outfit ∧
    ∃ next, (next.get? "Age").map Datum.toText = some "7" ∧
      ∀ others, outfit.Perm others → ∃ again, patchRecord c tenderType tender others = .ok again ∧
        Reordered again next := by
  intro c
  have literal : literalFields c tenderType outfit := by decide +kernel
  have alone := standsAlone_of_literalFields literal
  have apart : Apart tenderType outfit := by decide +kernel
  have deeper : (patchRecord c tenderType tender outfit).toOption.map
      (fun r => (r.get? "Age").map Datum.toText) = some (some "7") := by
    decide +kernel
  obtain ⟨made, success, shown⟩ := of_toOption_map deeper
  refine ⟨alone, apart, ?_⟩
  rcases patchRecord_anyOrder tender alone apart with refused | ⟨next, same⟩
  · obtain ⟨e, failure⟩ := refused outfit (.refl _)
    rw [success] at failure
    cases failure
  · obtain ⟨again, first, reordered⟩ := same outfit (.refl _)
    cases success.symm.trans first
    exact ⟨next, reordered.each "Age" ▸ shown, same⟩

end Emend.Patch
