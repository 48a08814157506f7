import Emend.Proofs.Formula.Quotation
import Emend.Proofs.Patch.Conforms
import Emend.Proofs.Patch.Indirect

/-!
Two spellings of one identity: the text itself, and a formula that quotes it. For a scalar field both
are read in the same way, so an instruction does the same with either. For an enumeration only the
formula becomes a variant; the text stays a text, which is the identity of no record.
-/

set_option autoImplicit false

namespace Emend.Patch

/-- An instruction without the entry that gives its identity. -/
structure Unnamed where
  verb : Verb
  before : Entries
  after : Entries
  /-- Where the text of the missing entry stands. -/
  spot : Position
  place : Position
  position : Position

/-- The instruction with an entry for its identity. -/
def Unnamed.named (u : Unnamed) (key text : String) : Instruction :=
  ⟨u.verb, .mapping (u.before ++ (key, .scalar text u.spot) :: u.after) u.place, u.position⟩

/-- The text under one key, and a formula that quotes it under another. -/
structure Spelled (field t key mark formula : String) : Prop where
  literal : identityForm? field key = some .literal
  plain : key.startsWith "$" = false
  indirect : identityForm? field mark = some .indirect
  quotes : Formula.Quotes formula t
  /-- No blanks around it. -/
  trimmed : Text.trim t = t

/-- The slot that the identity in an instruction leads to. -/
def Instruction.aim (c : Context) (type : Descriptor) (field : String) (records : Collection)
    (i : Instruction) : Except PatchError Nat := do
  let identity ← targetIdentity type field c (← i.entries) i.position
  slotOf type records identity i.position

theorem located_eq (c : Context) (type : Descriptor) (field : String) (records : Collection)
    (i : Instruction) :
    i.located c type field records = (do
      let slot ← i.aim c type field records
      match records.get? slot with
      | some r => .ok (slot, r)
      | none => .error (.contract ("slot " ++ toString slot ++ " vanished"))) := by
  unfold Instruction.located Instruction.aim
  cases i.entries with
  | error e => rfl
  | ok entries =>
      rw [ok_bind, ok_bind]
      cases targetIdentity type field c entries i.position <;> rfl

theorem remove_named (c : Context) (type : Descriptor) (field : String) (records : Collection)
    (u : Unnamed) (key text : String) :
    (remove c type field (u.named key text)).result records = (do
      let slot ← (u.named key text).aim c type field records
      .ok (records.remove slot)) := by
  rw [remove_result]
  change (targetIdentity .. >>= fun _ => slotOf .. >>= _) = (targetIdentity .. >>= _) >>= _
  rw [bind_assoc]

section
variable {c : Context} {type : Descriptor} {field t key mark formula : String} {u : Unnamed}

theorem find?_named {text : String} {form : IdentityForm}
    (first : ∀ entry ∈ u.before, identityForm? field entry.1 = none)
    (given : identityForm? field key = some form) :
    List.find? (fun entry => (identityForm? field entry.1).isSome)
      (u.before ++ (key, .scalar text u.spot) :: u.after) = some (key, .scalar text u.spot) := by
  have others : List.find? (fun entry => (identityForm? field entry.1).isSome) u.before = none :=
    List.find?_eq_none.mpr fun entry member => by rw [first entry member]; exact Bool.false_ne_true
  rw [List.find?_append, others, Option.none_or, List.find?_cons, given]
  rfl

theorem patched_named {text : String} {form : IdentityForm}
    (given : identityForm? field key = some form) (r : Record) :
    (u.named key text).patched c type field r =
      patchRecord c type r (Entries.withoutIdentity field (u.before ++ u.after)) := by
  change patchRecord c type r
    (Entries.withoutIdentity field (u.before ++ (key, .scalar text u.spot) :: u.after)) = _
  unfold Entries.withoutIdentity
  rw [List.filter_append, List.filter_append,
    List.filter_cons_of_neg (by rw [given]; exact Bool.false_ne_true)]

section
variable (first : ∀ entry ∈ u.before, identityForm? field entry.1 = none)
include first

theorem aim_literal (literal : identityForm? field key = some .literal)
    (plain : key.startsWith "$" = false) (records : Collection) :
    (u.named key t).aim c type field records = (do
      let identity ← literalIdentity type field t (u.spot.or u.position)
      slotOf type records identity u.position) := by
  change targetIdentity type field c (u.before ++ (key, .scalar t u.spot) :: u.after) u.position >>=
    (slotOf type records · u.position) = _
  unfold targetIdentity
  rw [find?_named first literal]
  dsimp only
  rw [scalarText, ok_bind, plain, if_neg Bool.false_ne_true]
  rfl

variable (spelled : Spelled field t key mark formula)
include spelled

theorem aim_formula (allowed : 1 ≤ c.settings.depthLimit) (records : Collection) :
    (u.named mark formula).aim c type field records = (do
      let identity ← identityOfValue type field (.text t) (u.spot.or u.position)
      slotOf type records identity u.position) := by
  have evaluated (position : Position) : c.evaluate [] formula position = .ok (.text t) := by
    have deep : 1 ≤ c.settings.formulaOptions.depthLimit := allowed
    unfold Context.evaluate Context.formula
    rw [Formula.evaluate_quotes spelled.quotes deep]
  change targetIdentity type field c (u.before ++ (mark, .scalar formula u.spot) :: u.after)
    u.position >>= (slotOf type records · u.position) = _
  unfold targetIdentity
  rw [find?_named first spelled.indirect]
  dsimp only
  rw [scalarText, ok_bind, startsWith_of_indirect spelled.indirect, if_pos rfl, evaluated, ok_bind]
  rfl

end

end

theorem read_eq_store (kind : ScalarKind) (t : String) : kind.read t = kind.store (.text t) := by
  cases kind <;> rfl

section
variable {type : Descriptor} {field t : String} (trimmed : Text.trim t = t)
include trimmed

theorem literalIdentity_scalar {name : String} {kind : ScalarKind}
    (declared : type.field? field = some (name, .scalar kind)) (position : Position) :
    literalIdentity type field t position = identityOfValue type field (.text t) position := by
  unfold literalIdentity identityOfValue
  rw [declared]
  dsimp only
  rw [trimmed, read_eq_store]
  rfl

theorem literalIdentity_enumeration {name typeName : String} {variants : List String}
    (declared : type.field? field = some (name, .enumeration typeName variants))
    (position : Position) : literalIdentity type field t position = .ok (.text t) := by
  unfold literalIdentity
  rw [declared]
  dsimp only
  rw [trimmed]

end

theorem exists_of_variant? {variants : List String} {t : String} {d : Datum}
    (named : variant? variants t = some d) : ∃ v, d = .variant v := by
  obtain ⟨v, -, rfl⟩ := Option.map_eq_some_iff.mp named
  exact ⟨v, rfl⟩

theorem toOption_slotOf (type : Descriptor) (records : Collection) (identity : Datum)
    (position : Position) :
    (slotOf type records identity position).toOption = records.find? identity := by
  unfold slotOf
  cases records.find? identity <;> rfl

/-- A formula leads to the variant that its text names. -/
theorem slot?_formula {c : Context} {type : Descriptor} {field t key mark formula : String}
    {u : Unnamed} (first : ∀ entry ∈ u.before, identityForm? field entry.1 = none)
    (spelled : Spelled field t key mark formula) (allowed : 1 ≤ c.settings.depthLimit)
    {name typeName : String} {variants : List String}
    (declared : type.field? field = some (name, .enumeration typeName variants))
    (records : Collection) :
    ((u.named mark formula).aim c type field records).toOption =
      (variant? variants t).bind records.find? := by
  rw [aim_formula first spelled allowed]
  unfold identityOfValue
  rw [declared]
  dsimp only
  rw [store, show (Value.text t).toText = t from rfl]
  cases variant? variants t with
  | none => rfl
  | some d => exact toOption_slotOf type records d u.position

section
variable {records : Collection} {typeName : String} {variants : List String}
  (conform : ∀ x ∈ records.givenIdentities, x.Conforms (.enumeration typeName variants))
include conform

theorem find?_text (t : String) : records.find? (.text t) = none := by
  apply Option.eq_none_iff_forall_ne_some.mpr
  intro slot found
  obtain ⟨x, there, same⟩ := Collection.of_find? found
  cases conform x (Collection.mem_givenIdentities there) with
  | variant declared => cases same
  | noVariant => cases same

theorem identityAt?_of_find?_variant {v : String} {slot : Nat}
    (found : records.find? (.variant v) = some slot) :
    records.identityAt? slot = some (.variant v) := by
  obtain ⟨x, there, same⟩ := Collection.of_find? found
  rw [there]
  cases conform x (Collection.mem_givenIdentities there) with
  | variant declared => rw [beq_iff_eq.mp (show (_ == v) = true from same)]
  | noVariant => cases same

end

theorem isSome_find?_variant {records : Collection} {v : String} {slot : Nat}
    (there : records.identityAt? slot = some (.variant v)) :
    (records.find? (.variant v)).isSome :=
  Collection.isSome_find? there (Datum.sameIdentity_of_same (beq_self_eq_true v))

namespace Workspace

theorem step_remove {w : Workspace} {field : String} {records : Collection} {i : Instruction}
    (settings : Settings) (type : Descriptor) (here : w.target = .collection field records)
    (verb : i.verb = .remove) :
    w.step settings type i = w.keep ((remove ⟨settings, w.store⟩ type field i).result records)
      fun records => { w with target := .collection field records } := by
  simp only [step_eq, verb, here, stepCollection_eq here]

section
variable {settings : Settings} {type : Descriptor} {w : Workspace} {field : String}
  {records : Collection} {u : Unnamed} (here : w.target = .collection field records)
  (verb : u.verb = .update ∨ u.verb = .remove)
include here verb

/-- Of an identity only the slot matters that it leads to. -/
theorem step_named_congr {key mark text other : String} {form second : IdentityForm}
    (given : identityForm? field key = some form) (also : identityForm? field mark = some second)
    (same : (u.named key text).aim ⟨settings, w.store⟩ type field records =
      (u.named mark other).aim ⟨settings, w.store⟩ type field records) :
    w.step settings type (u.named key text) = w.step settings type (u.named mark other) := by
  rcases verb with update | remove
  · rw [step_update settings type here update, step_update settings type here update, update_eq,
      update_eq, located_eq, located_eq, same]
    simp only [patched_named given, patched_named also]
  · rw [step_remove settings type here remove, step_remove settings type here remove, remove_named,
      remove_named, same]

theorem step_named_error {key text : String} {e : PatchError}
    (fails : (u.named key text).aim ⟨settings, w.store⟩ type field records = .error e) :
    w.step settings type (u.named key text) = (.error e, w) := by
  rcases verb with update | remove
  · rw [step_update settings type here update, update_eq, located_eq, fails]
    rfl
  · rw [step_remove settings type here remove, remove_named, fails]
    rfl

/-- An update or a removal does the same with either spelling of a scalar. A variant has to be spelled
by a formula: then its record is found, and as a text it fails. -/
theorem step_spelled {t key mark formula : String}
    (first : ∀ entry ∈ u.before, identityForm? field entry.1 = none)
    (spelled : Spelled field t key mark formula) (allowed : 1 ≤ settings.depthLimit) :
    let slot? (i : Instruction) := (i.aim ⟨settings, w.store⟩ type field records).toOption
    (∀ name kind, type.field? field = some (name, .scalar kind) →
      slot? (u.named key t) = slot? (u.named mark formula) ∧
      w.step settings type (u.named key t) = w.step settings type (u.named mark formula)) ∧
    (∀ name typeName variants, type.field? field = some (name, .enumeration typeName variants) →
      (∀ x ∈ records.givenIdentities, x.Conforms (.enumeration typeName variants)) →
      w.step settings type (u.named key t) =
        (.error (.identityConflict ("no " ++ type.name ++ " with identity " ++ t) u.position), w) ∧
      (∀ slot, slot? (u.named mark formula) = some slot →
        ∃ v, variant? variants t = some v ∧ records.identityAt? slot = some v) ∧
      ∀ v slot, variant? variants t = some v → records.identityAt? slot = some v →
        (slot? (u.named mark formula)).isSome) := by
  intro slot?
  refine ⟨fun name kind declared => ?_, fun name typeName variants declared conform => ?_⟩
  · have same : (u.named key t).aim ⟨settings, w.store⟩ type field records =
        (u.named mark formula).aim ⟨settings, w.store⟩ type field records := by
      rw [aim_literal first spelled.literal spelled.plain, aim_formula first spelled allowed,
        literalIdentity_scalar spelled.trimmed declared]
    exact ⟨congrArg Except.toOption same,
      step_named_congr here verb spelled.literal spelled.indirect same⟩
  · have aimed := slot?_formula (c := ⟨settings, w.store⟩) first spelled allowed declared records
    refine ⟨?_, fun slot found => ?_, fun v slot named there => ?_⟩
    · apply step_named_error here verb
      rw [aim_literal first spelled.literal spelled.plain,
        literalIdentity_enumeration spelled.trimmed declared, ok_bind,
        slotOf, find?_text conform]
      rfl
    · obtain ⟨d, named, led⟩ := Option.bind_eq_some_iff.mp (aimed.symm.trans found)
      obtain ⟨v, rfl⟩ := exists_of_variant? named
      exact ⟨.variant v, named, identityAt?_of_find?_variant conform led⟩
    · obtain ⟨v, rfl⟩ := exists_of_variant? named
      change ((u.named mark formula).aim ⟨settings, w.store⟩ type field records).toOption.isSome
      rw [aimed, named]
      exact isSome_find?_variant there

end

/-- Hulls are told apart by their sizes. -/
def hullType : Descriptor :=
  .record "Hull"
    [("SizeId", .enumeration "Size" ["Small", "Large"]), ("Name", .scalar .text)] (some "SizeId") false

/-- One hull of the small size. -/
def slipway : Collection :=
  ⟨some "SizeId", .indexed [some ⟨"Hull", [("SizeId", .variant "Small"), ("Name", .text "Dory")]⟩]
    [(.text "Small", 0)]⟩

/-- The hull is to have another name. -/
def repainting : Unnamed :=
  ⟨.update, [], [("Name", .scalar "Punt" .unknown)], .unknown, .unknown, .unknown⟩

theorem spelled_small : Spelled "SizeId" "Small" "SizeId" "$SizeId" (Formula.quotation "Small") where
  literal := by cbv
  plain := by decide +kernel
  indirect := by cbv
  quotes := Formula.quotes_quotation "Small"
  trimmed := by decide +kernel

theorem slipway_conforms :
    ∀ x ∈ slipway.givenIdentities, x.Conforms (.enumeration "Size" ["Small", "Large"]) := by
  intro x member
  rw [show slipway.givenIdentities = [.variant "Small"] by rfl, List.mem_singleton] at member
  rw [member]
  exact .variant List.mem_cons_self

def boatyard : Workspace := ⟨.collection "SizeId" slipway, .ofList [], []⟩

theorem step_spelled_boatyard :
    boatyard.target = .collection "SizeId" slipway ∧ repainting.verb = .update ∧
    (∀ entry ∈ repainting.before, identityForm? "SizeId" entry.1 = none) ∧
    Spelled "SizeId" "Small" "SizeId" "$SizeId" (Formula.quotation "Small") ∧
    1 ≤ Settings.initial.depthLimit ∧
    boatyard.step .initial hullType (repainting.named "SizeId" "Small") =
      (.error (.identityConflict "no Hull with identity Small" .unknown), boatyard) ∧
    ((repainting.named "$SizeId" (Formula.quotation "Small")).aim ⟨.initial, boatyard.store⟩ hullType
      "SizeId" slipway).toOption.isSome := by
  have first : ∀ entry ∈ repainting.before, identityForm? "SizeId" entry.1 = none := by
    intro entry member
    cases member
  have allowed : 1 ≤ Settings.initial.depthLimit := by decide
  obtain ⟨-, variants⟩ := @step_spelled .initial hullType boatyard "SizeId" slipway repainting rfl
    (.inl rfl) _ _ _ _ first spelled_small allowed
  obtain ⟨fails, -, leads⟩ := variants "SizeId" "Size" ["Small", "Large"] (by cbv) slipway_conforms
  exact ⟨rfl, rfl, first, spelled_small, allowed, fails,
    leads (.variant "Small") 0 (by cbv) (by rfl)⟩

/-- The quoted size leads to the hull, and the size as it is to none. -/
theorem aim_spelled_hull :
    (∀ x ∈ slipway.givenIdentities, x.Conforms (.enumeration "Size" ["Small", "Large"])) ∧
    Spelled "SizeId" "Small" "SizeId" "$SizeId" (Formula.quotation "Small") ∧
    ((repainting.named "SizeId" "Small").aim ⟨.initial, .ofList []⟩ hullType "SizeId"
      slipway).toOption = none ∧
    ((repainting.named "$SizeId" (Formula.quotation "Small")).aim ⟨.initial, .ofList []⟩ hullType
      "SizeId" slipway).toOption = some 0 :=
  ⟨slipway_conforms, spelled_small, by decide +kernel, by decide +kernel⟩

end Workspace

end Emend.Patch
