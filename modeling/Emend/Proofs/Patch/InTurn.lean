import Emend.Patch.Variables
import Emend.Proofs.Formula.Names
import Emend.Proofs.Store
import Mathlib.Data.List.Induction

/-!
Shared variables set in turn. The entries of one instruction are shown to the formulas of later
ones by bindings that lie over the untouched variables. That comes to the same as carrying out the
entries one after the other, each as an instruction of its own, as long as no formula names a
variable that was removed before it, or one that was set before it under a name in another case.
-/

set_option autoImplicit false

namespace Emend.Patch

/-- Each entry as an instruction of its own, one after the other. -/
def setStateInTurn (settings : Settings) (i : Instruction) (s : Store) :
    Entries → Except PatchError Store
  | [] => .ok s
  | entry :: rest => do
    let s ← setState ⟨settings, s⟩ { i with payload := .mapping [entry] .unknown }
    setStateInTurn settings i s rest

/-- The variables of earlier entries, and whether these remove them. -/
abbrev Earlier := List (String × Bool)

/-- Whether a formula reads the name as if the earlier entries had been carried out. The last entry
of exactly this name has to set it; if there is none, none may set a name that differs in case. -/
def Earlier.shows (earlier : Earlier) (name : String) : Bool :=
  name == "value" ||
    match earlier.reverse.find? (·.1 == name) with
    | some (_, removed) => !removed && !Text.sameName "value" name
    | none => earlier.all fun entry => entry.2 || !Text.sameName entry.1 name

/-- Whether all formulas read all names as if the entries before them had been carried out. -/
def Entries.inTurn (settings : Settings) (earlier : Earlier) : Entries → Bool
  | [] => true
  | (key, .scalar text _) :: rest =>
    let removed := settings.isDelete text
    (removed || (Formula.namesOfText settings.depthLimit text).all earlier.shows) &&
      inTurn settings (earlier ++ [((fieldKey key).1, removed)]) rest
  | _ :: _ => true

namespace Write

/-- What later entries depend on. -/
def mark (w : Write) : String × Bool := (w.name, w.value?.isNone)

theorem apply_sorted {s : Store} (sorted : s.Sorted) (w : Write) : (w.apply s).Sorted := by
  cases w with
  | set name value => exact sorted.insert name value
  | erase name => exact sorted.erase name

theorem get?_apply {s : Store} (sorted : s.Sorted) (w : Write) (name : String) :
    (w.apply s).get? name = if name = w.name then w.value? else s.get? name := by
  cases w with
  | set own value => exact Store.get?_insert s own name value
  | erase own => exact Store.get?_erase sorted own name

end Write

theorem waiting?_concat (s : Store) (writes : List Write) (w : Write) (name : String) :
    waiting? s (writes ++ [w]) name =
      if name = w.name then w.value? else waiting? s writes name := by
  unfold waiting?
  rw [List.reverse_concat, List.find?_cons]
  by_cases same : name = w.name
  · simp [same]
  · have differ : (w.name == name) = false := by simpa using fun equal => same equal.symm
    simp only [differ, same, ↓reduceIte]

/-- The writes that wait are those that will be carried out. -/
theorem foldl_apply {s : Store} (sorted : s.Sorted) (writes : List Write) :
    (writes.foldl Write.apply s).Sorted ∧
      ∀ name, (writes.foldl Write.apply s).get? name = waiting? s writes name := by
  induction writes using List.reverseRec with
  | nil => exact ⟨sorted, fun _ => rfl⟩
  | append_singleton writes w ih =>
      rw [List.foldl_concat]
      refine ⟨w.apply_sorted ih.1, fun name => ?_⟩
      rw [w.get?_apply ih.1, waiting?_concat, ih.2]

theorem setState_sorted {c : Context} {i : Instruction} {after : Store} (sorted : c.store.Sorted)
    (success : setState c i = .ok after) : after.Sorted := by
  obtain ⟨entries, -, success⟩ := of_bind_ok success
  obtain ⟨writes, -, success⟩ := of_bind_ok success
  cases success
  exact (foldl_apply sorted writes).1

/-- The values that wait, as bindings. -/
def bound (writes : List Write) : Bindings :=
  writes.foldl (fun bindings write => match write.value? with
    | some value => Fields.put write.name value bindings
    | none => bindings) []

theorem stateBindings_eq (s : Store) (writes : List Write) (name : String) :
    stateBindings s writes name =
      Fields.put "value" ((waiting? s writes name).getD .null) (bound writes) := rfl

theorem bound_concat (writes : List Write) (w : Write) :
    bound (writes ++ [w]) = match w.value? with
      | some value => Fields.put w.name value (bound writes)
      | none => bound writes := by
  unfold bound
  rw [List.foldl_concat]

theorem mem_bound {writes : List Write} {entry : String × Value} (member : entry ∈ bound writes) :
    (entry.1, false) ∈ writes.map Write.mark := by
  induction writes using List.reverseRec with
  | nil => cases member
  | append_singleton writes w ih =>
      rw [bound_concat] at member
      rw [List.map_append, List.mem_append]
      split at member
      · rename_i value isSet
        rcases Fields.mem_put member with rfl | earlier
        · exact .inr (by simp [Write.mark, isSet])
        · exact .inl (ih earlier)
      · exact .inl (ih member)

theorem find?_bound {writes : List Write} {name : String} {w : Write} {value : Value}
    (last : writes.reverse.find? (·.name == name) = some w) (isSet : w.value? = some value) :
    Fields.find? name (bound writes) = some value := by
  induction writes using List.reverseRec with
  | nil => cases last
  | append_singleton writes later ih =>
      rw [List.reverse_concat, List.find?_cons] at last
      rw [bound_concat]
      split at last
      · rename_i named
        cases last
        rw [isSet]
        dsimp only
        rw [eq_of_beq named]
        exact Fields.find?_put_self _ _ _
      · rename_i other
        split
        · have differ : name ≠ later.name := fun same => by simp [same] at other
          rw [Fields.find?_put_other _ _ _ _ differ]
          exact ih last
        · exact ih last

theorem find?_mark (writes : List Write) (name : String) :
    (writes.map Write.mark).reverse.find? (·.1 == name) =
      (writes.reverse.find? (·.name == name)).map Write.mark := by
  rw [← List.map_reverse, List.find?_map]
  rfl

theorem value?_scope {c : Context} {writes : List Write} {own name : String}
    (shows : Earlier.shows (writes.map Write.mark) name) :
    (c.scope (stateBindings c.store writes own)).value? name =
      if Text.sameName "value" name then some ((waiting? c.store writes own).getD .null)
      else waiting? c.store writes name := by
  have read : (c.scope (stateBindings c.store writes own)).value? name =
      (Fields.findAnyCase? name (stateBindings c.store writes own)).or (c.store.get? name) := by
    unfold Context.scope Formula.Scope.value?
    simp only [List.findSome?_cons, List.findSome?_nil, Formula.Provider.get?]
    cases Fields.findAnyCase? name (stateBindings c.store writes own) with
    | some value => rfl
    | none => cases c.store.get? name <;> rfl
  rw [read, stateBindings_eq]
  unfold Earlier.shows at shows
  rw [find?_mark, Bool.or_eq_true] at shows
  rcases shows with isValue | shows
  · rw [eq_of_beq isValue, Fields.findAnyCase?_put_self]
    simp [Text.sameName]
  · -- The last write of exactly this name decides, on either side.
    cases last : writes.reverse.find? (·.name == name) with
    | some w =>
        simp only [last, Option.map_some, Write.mark, Bool.and_eq_true, Bool.not_eq_true'] at shows
        obtain ⟨isSet, other⟩ := shows
        obtain ⟨value, isSet⟩ := Option.isSome_iff_exists.mp (Option.isNone_eq_false_iff.mp isSet)
        have found : Fields.findAnyCase? name (bound writes) = some value := by
          unfold Fields.findAnyCase?
          rw [find?_bound last isSet, Option.some_or]
        rw [Fields.findAnyCase?_put _ _ other, found, other]
        simp [waiting?, last, isSet]
    | none =>
        simp only [last, Option.map_none, List.all_eq_true, Bool.or_eq_true,
          Bool.not_eq_true'] at shows
        -- Bindings are found in any case, so none of them may be like the name.
        have unlike : ∀ entry ∈ bound writes, Text.sameName entry.1 name = false := by
          intro entry member
          exact (shows _ (mem_bound member)).resolve_left Bool.false_ne_true
        split
        · rename_i alike
          rw [Fields.findAnyCase?_put_of_only unlike alike, Option.some_or]
        · rename_i other
          rw [Fields.findAnyCase?_put _ _ (Bool.eq_false_iff.mpr other),
            Fields.findAnyCase?_eq_none unlike, Option.none_or]
          simp [waiting?, last]

/-- The context after the writes. -/
def Context.after (c : Context) (writes : List Write) : Context :=
  ⟨c.settings, writes.foldl Write.apply c.store⟩

theorem waiting?_after {c : Context} (sorted : c.store.Sorted) (writes : List Write)
    (name : String) : waiting? (c.after writes).store [] name = waiting? c.store writes name :=
  (foldl_apply sorted writes).2 name

theorem shows_nil (name : String) : Earlier.shows [] name := by
  simp [Earlier.shows]

theorem evaluate_after {c : Context} (sorted : c.store.Sorted) {writes : List Write}
    {own text : String} {position : Position}
    (shows : (Formula.namesOfText c.settings.depthLimit text).all
      (Earlier.shows (writes.map Write.mark))) :
    c.evaluate (stateBindings c.store writes own) text position =
      (c.after writes).evaluate (stateBindings (c.after writes).store [] own) text position := by
  have agree : Formula.Scope.Agree
      (Formula.namesOfText c.settings.formulaOptions.depthLimit text)
      (c.scope (stateBindings c.store writes own))
      ((c.after writes).scope (stateBindings (c.after writes).store [] own)) := by
    intro name member
    have alone : Earlier.shows (List.map Write.mark []) name := shows_nil name
    rw [value?_scope (List.all_eq_true.mp shows name member), value?_scope alone,
      waiting?_after sorted, waiting?_after sorted]
  unfold Context.evaluate Context.formula
  rw [Formula.evaluate_congr agree]
  rfl

theorem stateWrite_scalar (c : Context) (writes : List Write) (key text : String)
    (place position : Position) :
    stateWrite c writes key (.scalar text place) position =
      let own := (fieldKey key).1
      let position := place.or position
      if c.isDelete text then
        match waiting? c.store writes own with
        | some _ => .ok (.erase own)
        | none => .error
            (.identityConflict ("shared variable " ++ quoted own ++ " is not set") position)
      else
        match c.evaluate (stateBindings c.store writes own) text position with
        | .ok value => .ok (.set own value)
        | .error e =>
          if (fieldKey key).2 || e.interruption?.isSome then .error e else .ok (.set own (.text text)) := by
  unfold stateWrite
  cases fieldKey key
  rfl

theorem stateWrite_after {c : Context} (sorted : c.store.Sorted) {writes : List Write}
    {key text : String} {place position : Position}
    (shows : (c.isDelete text || (Formula.namesOfText c.settings.depthLimit text).all
      (Earlier.shows (writes.map Write.mark))) = true) :
    stateWrite c writes key (.scalar text place) position =
      stateWrite (c.after writes) [] key (.scalar text place) position := by
  rw [stateWrite_scalar, stateWrite_scalar]
  have same : (c.after writes).isDelete text = c.isDelete text := rfl
  dsimp only
  rw [same, waiting?_after sorted]
  split
  · rfl
  · rename_i kept
    rw [evaluate_after sorted (by simpa [kept] using shows)]

theorem stateWrite_mark {c : Context} {writes : List Write} {key text : String}
    {place position : Position} {w : Write}
    (made : stateWrite c writes key (.scalar text place) position = .ok w) :
    w.mark = ((fieldKey key).1, c.isDelete text) := by
  rw [stateWrite_scalar] at made
  dsimp only at made
  split at made
  · rename_i removed
    rw [removed]
    split at made <;> cases made
    rfl
  · rename_i kept
    rw [Bool.eq_false_iff.mpr kept]
    split at made
    · cases made
      rfl
    · split at made <;> cases made
      rfl

theorem setState_single (settings : Settings) (s : Store) (i : Instruction) (key : String)
    (node : Node) (place : Position) :
    setState ⟨settings, s⟩ { i with payload := .mapping [(key, node)] place } =
      (stateWrite ⟨settings, s⟩ [] key node i.position).map (·.apply s) := by
  change ((stateWrites _ i.position [] [(key, node)]).bind _) = _
  unfold stateWrites stateWrites
  cases stateWrite ⟨settings, s⟩ [] key node i.position <;> rfl

/-- The induction is on the entries that are left; the writes of the earlier ones are carried out on
one side and wait on the other. -/
theorem stateWrites_inTurn {c : Context} (sorted : c.store.Sorted) (i : Instruction)
    {entries : Entries} {writes : List Write}
    (inTurn : entries.inTurn c.settings (writes.map Write.mark)) :
    (stateWrites c i.position writes entries).map (·.foldl Write.apply c.store) =
      setStateInTurn c.settings i (c.after writes).store entries := by
  induction entries generalizing writes with
  | nil => rfl
  | cons entry rest ih =>
      obtain ⟨key, node⟩ := entry
      unfold stateWrites setStateInTurn
      rw [setState_single]
      cases node with
      | sequence _ _ | mapping _ _ => rfl
      | scalar text place =>
          unfold Entries.inTurn at inTurn
          rw [Bool.and_eq_true] at inTurn
          rw [stateWrite_after sorted inTurn.1]
          change _ = (((stateWrite (c.after writes) [] key (.scalar text place) i.position).map
            _).bind _)
          cases made : stateWrite (c.after writes) [] key (.scalar text place) i.position with
          | error e => rfl
          | ok w =>
              have later : Entries.inTurn c.settings ((writes ++ [w]).map Write.mark) rest := by
                rw [List.map_append, List.map_singleton, stateWrite_mark made]
                exact inTurn.2
              have carried : (c.after (writes ++ [w])).store = w.apply (c.after writes).store :=
                List.foldl_concat _ _ _ _
              change _ = setStateInTurn c.settings i (w.apply (c.after writes).store) rest
              rw [← carried]
              exact ih later

/-- Together or one after the other, the entries of an instruction leave the same variables or fail
with the same error, if their formulas read all names as if the entries before them had been carried
out. -/
theorem setState_inTurn {c : Context} {i : Instruction} {entries : Entries} {place : Position}
    (sorted : c.store.Sorted) (payload : i.payload = .mapping entries place)
    (inTurn : entries.inTurn c.settings []) :
    setState c i = setStateInTurn c.settings i c.store entries := by
  have together : (stateWrites c i.position [] entries).map (·.foldl Write.apply c.store) =
      setStateInTurn c.settings i c.store entries := stateWrites_inTurn sorted i inTurn
  unfold setState Instruction.entries
  rw [payload, ← together]
  change (stateWrites c i.position [] entries).bind _ = _
  cases stateWrites c i.position [] entries <;> rfl

def stating (entries : Entries) : Instruction := .ofPayload .state (.mapping entries .unknown)

/-- One variable, which is a number. -/
def moored : Context := ⟨.initial, ⟨[("Base", .number 4)]⟩⟩

/-- The variable is removed and set anew before it is read. -/
def refit : Entries :=
  [("Rate", .scalar "Base * 2" .unknown), ("Base", .scalar "delete()" .unknown),
    ("Base", .scalar "Rate + 1" .unknown), ("$Copy", .scalar "Base" .unknown),
    ("Copy", .scalar "value + Base" .unknown)]

theorem setState_inTurn_refit :
    moored.store.Sorted ∧ refit.inTurn moored.settings [] ∧
    setState moored (stating refit) =
      setStateInTurn moored.settings (stating refit) moored.store refit := by
  have sorted : moored.store.Sorted := List.pairwise_singleton _ _
  have inTurn : refit.inTurn moored.settings [] := by decide +kernel
  exact ⟨sorted, inTurn, setState_inTurn sorted rfl inTurn⟩

/-- The variable is removed and then read. -/
def scuttling : Entries :=
  [("Base", .scalar "delete()" .unknown), ("Copy", .scalar "Base" .unknown)]

/-- Together the second entry still reads the number; on its own it is no formula any more, and is
kept as a text. -/
theorem setState_scuttling :
    moored.store.Sorted ∧
    ∃ together inTurn : Store,
      setState moored (stating scuttling) = .ok together ∧
      setStateInTurn moored.settings (stating scuttling) moored.store scuttling = .ok inTurn ∧
      (together.get? "Copy").map Value.toText = some "4" ∧
      (inTurn.get? "Copy").map Value.toText = some "Base" := by
  refine ⟨List.pairwise_singleton _ _, ?_⟩
  have first : (setState moored (stating scuttling)).toOption.map
      (fun s => (s.get? "Copy").map Value.toText) = some (some "4") := by decide +kernel
  have second : (setStateInTurn moored.settings (stating scuttling) moored.store
      scuttling).toOption.map (fun s => (s.get? "Copy").map Value.toText) =
        some (some "Base") := by decide +kernel
  obtain ⟨together, success, number⟩ := of_toOption_map first
  obtain ⟨inTurn, apart, text⟩ := of_toOption_map second
  exact ⟨together, inTurn, success, apart, number, text⟩

end Emend.Patch
