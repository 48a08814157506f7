import Emend.Proofs.Formula.Paths
import Emend.Proofs.Patch.OneByOne
import Emend.Proofs.Patch.Placewise

/-!
Fields that are set to what they hold. The value of a datum does not tell an integer from another
number, nor a variant from a text. The type of the field does, so the field stores the same datum
again, through all lists that it is made of.
-/

set_option autoImplicit false

namespace Emend

/-- Whether formulas can set fields of the type. The variants of an enumeration must have no blanks
around them, and differ in more than their case. -/
def Descriptor.isWritable : Descriptor → Bool
  | .scalar (.integer bits _) => bits ∈ [8, 16, 32, 64]
  | .scalar kind => kind ∉ [.char, .decimal, .dateTime]
  | .enumeration _ variants =>
    variants.all (fun variant => Text.trim variant = variant) &&
      decide (variants.Pairwise fun a b => ¬ Text.sameName a b)
  | .record .. => true
  | .list element _ => element.isWritable

/-- Whether doubles tell the integers in a datum of the type apart, floats have the width of the
type, and no variant is missing. -/
def Datum.isExact : Descriptor → Datum → Bool
  | .scalar (.integer ..), .int i => i.natAbs ≤ 2 ^ 53
  | .scalar .single, .float x => Number.toSingle x = x
  | .enumeration .., .null => false
  | .list element _, .list items => items.all (isExact element)
  | _, _ => true

namespace Patch

theorem fieldKey_formula (name : String) : fieldKey ("$" ++ name) = (name, true) := by
  have rest : (("$" ++ name).drop 1).toString = name := by
    apply String.toList_inj.mp
    change (("$" ++ name).drop 1).copy.toList = name.toList
    rw [String.toList_copy_drop, String.toList_append]
    rfl
  unfold fieldKey
  rw [if_pos (by simp), rest]

theorem find?_sameName {names : List String} {name : String} (listed : name ∈ names)
    (distinct : names.Pairwise fun a b => ¬ Text.sameName a b) :
    names.find? (Text.sameName · name) = some name := by
  induction distinct with
  | nil => cases listed
  | @cons other rest apart _ ih =>
      rcases List.mem_cons.mp listed with rfl | later
      · exact List.find?_cons_of_pos (beq_self_eq_true _)
      · rw [List.find?_cons_of_neg (p := (Text.sameName · name)) (apart name later)]
        exact ih later

theorem variant?_self {typeName variant : String} {variants : List String}
    (declared : variant ∈ variants)
    (writable : (Descriptor.enumeration typeName variants).isWritable) :
    variant? variants variant = some (.variant variant) := by
  unfold Descriptor.isWritable at writable
  simp only [Bool.and_eq_true, List.all_eq_true, decide_eq_true_eq] at writable
  unfold variant?
  rw [writable.1 variant declared, find?_sameName declared writable.2]
  rfl

theorem evaluate_value {c : Context} (allowed : 1 ≤ c.settings.depthLimit) (r : Record) (v : Value)
    (position : Position) : c.evaluate (.ofRecord r v) "value()" position = .ok v := by
  have segment : Formula.isSegment "value" := by decide +kernel
  have known : (c.scope (.ofRecord r v)).value? "value" = some v := rfl
  have called : (c.formula (.ofRecord r v) "value()").bind
      (·.evaluate (c.scope (.ofRecord r v))) = .ok v :=
    Formula.evaluate_call segment allowed known
  unfold Context.evaluate
  rw [called]

/-- The induction is on the proof that the datum conforms. -/
theorem store_ofDatum {type : Descriptor} {x : Datum} (conforms : x.Conforms type)
    (writable : type.isWritable) (exact : x.isExact type) (name : String) (position : Position) :
    store name position type (.ofDatum x) = .ok x := by
  induction conforms with
  | bool | double | text | noText | noList | noRecord => rfl
  | char | decimal | dateTime => cases writable
  | noVariant => cases exact
  | integer admitted =>
      have width := of_decide_eq_true writable
      obtain ⟨above, below⟩ := (ScalarKind.admits_iff_bounds width).mp admitted
      unfold store
      rw [ScalarKind.store_int width (of_decide_eq_true exact) above below]
  | single y =>
      change Except.ok (Datum.float (Number.toSingle y)) = _
      rw [of_decide_eq_true exact]
  | variant declared =>
      rw [store, Value.ofDatum, Value.toText, variant?_self declared writable]
  | record =>
      unfold store
      exact if_pos rfl
  | @list element fixed items each ih =>
      have stored : (items.map Value.ofDatum).mapM (store name position element) = .ok items :=
        mapM_eq_ok fun x member => ih x member writable (List.all_eq_true.mp exact x member)
      unfold store Value.ofDatum
      rw [Value.ofItems_eq_map]
      change Except.map Datum.list ((items.map Value.ofDatum).mapM _) = _
      rw [stored]
      rfl

/-- A field of a record that conforms to its type can be set to its own value, and the record stays
as it is. -/
theorem patchRecord_writtenBack {c : Context} {type fieldType : Descriptor} {r : Record}
    {spelled name : String} {x : Datum} (allowed : 1 ≤ c.settings.depthLimit)
    (conforms : r.Conforms type)
    (declared : type.field? spelled = some (name, fieldType)) (found : r.get? name = some x)
    (writable : fieldType.isWritable) (exact : x.isExact fieldType) (position : Position) :
    patchRecord c type r [("$" ++ spelled, .scalar "value()" position)] = .ok r := by
  have stored : store name position fieldType (.ofDatum x) = .ok x :=
    store_ofDatum (conforms name fieldType x (Descriptor.find?_of_field? declared) found) writable
      exact name position
  have unchanged : r.set name x = r := by
    unfold Record.set
    rw [Fields.put_of_find? found]
  rw [patchRecord_cons]
  unfold patchField formulaField
  rw [fieldKey_formula]
  dsimp only
  rw [declared]
  dsimp only
  rw [found, if_pos rfl, Option.getD_some, evaluate_value allowed, ok_bind, stored, ok_bind,
    unchanged]
  rfl

/-- Watches by their numbers, where one is not manned, signals, and the speed of the log. -/
def roster : Record :=
  ⟨"Roster", [("Watches", .list [.list [.int 1, .int 255], .null]),
    ("Signals", .list [.variant "White", .variant "Red"]), ("Speed", .float 2.5)]⟩

def rosterType : Descriptor :=
  .record "Roster" [("Watches", .list (.list (.scalar (.integer 8 false)) false) true),
    ("Signals", .list (.enumeration "Signal" ["Red", "White"]) false),
    ("Speed", .scalar .single)] none false

theorem roster_conforms : roster.Conforms rosterType := by
  apply Record.conforms_of_mem
  intro declared member x found
  simp only [rosterType, Descriptor.fields, List.mem_cons, List.not_mem_nil, or_false] at member
  rcases member with rfl | rfl | rfl <;> cases found
  · refine .list fun x member => ?_
    simp only [List.mem_cons, List.not_mem_nil, or_false] at member
    rcases member with rfl | rfl
    · refine .list fun x member => ?_
      simp only [List.mem_cons, List.not_mem_nil, or_false] at member
      rcases member with rfl | rfl <;> exact .integer (by simp [ScalarKind.Admits])
    · exact .noList
  · refine .list fun x member => ?_
    simp only [List.mem_cons, List.not_mem_nil, or_false] at member
    rcases member with rfl | rfl <;> exact .variant (by simp)
  · exact .single _

theorem patchRecord_writtenBack_roster :
    roster.Conforms rosterType ∧
    ∀ field ∈ ["Watches", "Signals", "Speed"],
      patchRecord ⟨.initial, .empty⟩ rosterType roster
        [("$" ++ field, .scalar "value()" .unknown)] = .ok roster := by
  have allowed : 1 ≤ Settings.initial.depthLimit := by decide
  refine ⟨roster_conforms, fun field member => ?_⟩
  simp only [List.mem_cons, List.not_mem_nil, or_false] at member
  rcases member with rfl | rfl | rfl <;>
    exact patchRecord_writtenBack allowed roster_conforms rfl rfl (by decide +kernel)
      (by decide +kernel) .unknown

end Patch

end Emend
