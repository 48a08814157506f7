import Emend.Patch.Record
import Emend.Proofs.Patch.Stored

/-!
Patching keeps the types of records. Literals, formulas, deletions and fresh elements all give
fields data of their declared types, as long as each record that a formula can reach is of the
type that it is named after.
-/

set_option autoImplicit false

namespace Emend

/-- Data to be patched: nothing yet, or data that fit. -/
def Datum.Ready (root type : Descriptor) (x : Datum) : Prop := x = .null ∨ x.Fits root type

/-- A record that fits the type it is patched by, and no other type of its name. -/
structure Record.Fits (root type : Descriptor) (r : Record) : Prop where
  conforms : r.Conforms type
  sound : (Datum.ofRecord r).Sound root
  alone : ∀ other : Descriptor, other.Part root → other.isRecord → other.name = r.typeName →
    other = type

namespace Record.Fits
variable {root type fieldType : Descriptor} {r : Record} {name : String}

theorem set {x : Datum} (fits : r.Fits root type)
    (declared : Fields.find? name type.fields = some fieldType) (next : x.Fits root fieldType) :
    (r.set name x).Fits root type := by
  have conforms : (r.set name x).Conforms type := by
    intro field other y listed found
    unfold get? Record.set at found
    rw [Fields.find?_put] at found
    split at found
    · rename_i same
      subst same
      rw [declared] at listed
      cases listed
      cases found
      exact next.conforms
    · exact fits.conforms field other y listed found
  refine ⟨conforms, .record ?_ ?_, fits.alone⟩
  · intro other part isRecord named
    cases fits.alone other part isRecord named
    exact conforms
  · intro field y member
    rcases Fields.mem_put member with same | earlier
    · cases same
      exact next.sound
    · exact fits.sound.field earlier

theorem current_ready (fits : r.Fits root type)
    (declared : Fields.find? name type.fields = some fieldType) :
    ((r.get? name).getD .null).Ready root fieldType := by
  cases found : r.get? name with
  | none => exact .inl rfl
  | some x =>
      exact .inr ⟨fits.conforms name fieldType x declared found,
        fits.sound.field (Fields.mem_of_find? found)⟩

end Record.Fits

theorem Datum.Ready.sound {root type : Descriptor} {x : Datum} (ready : x.Ready root type) :
    x.Sound root := by
  rcases ready with rfl | fits
  · exact .of_isFlat rfl
  · exact fits.sound

namespace Patch
variable {c : Context} {root : Descriptor}

/-- Every record that a shared variable holds is sound. -/
def Context.Sound (root : Descriptor) (c : Context) : Prop :=
  ∀ name v, c.store.get? name = some v → v.Sound root

theorem evaluate_sound {bindings : Bindings} {text : String} {position : Position} {v : Value}
    (shared : c.Sound root) (bound : ∀ name w, (name, w) ∈ bindings → w.Sound root)
    (success : c.evaluate bindings text position = .ok v) : v.Sound root := by
  intro r inside
  unfold Context.evaluate at success
  split at success <;> cases success
  rename_i done
  obtain ⟨formula, compiled, done⟩ := of_bind_ok done
  obtain ⟨provider, name, w, given, within⟩ := Formula.evaluate_inside compiled done inside
  match provider, given with
  | 0, given =>
      obtain ⟨key, member⟩ := Value.mem_of_findAnyCase? given
      exact bound key w member r within
  | 1, given => exact shared name w given r within

theorem formulaField_fits {r : Record} {name : String} {type : Descriptor} {current next : Datum}
    {node : Node} (shared : c.Sound root) (part : type.Part root)
    (owner : (Datum.ofRecord r).Sound root) (ready : current.Ready root type)
    (success : formulaField c r name type current node = .ok next) : next.Fits root type := by
  unfold formulaField at success
  split at success
  · obtain ⟨v, evaluated, stored⟩ := of_bind_ok success
    refine store_fits type part v (evaluate_sound shared ?_ evaluated) next stored
    intro key w member
    simp only [Bindings.ofRecord, List.mem_cons, List.not_mem_nil, or_false,
      Prod.mk.injEq] at member
    rcases member with ⟨-, rfl⟩ | ⟨-, rfl⟩ | ⟨-, rfl⟩
    · exact fun inner inside => owner inner (by cases inside; assumption)
    · exact fun inner inside => owner inner (by cases inside; assumption)
    · exact fun inner inside => ready.sound inner (Value.inside_ofDatum current inside)
  · cases success

section
variable {place : Place} {name text : String} {current next : Datum} {position : Position}

theorem scalarOfText_fits {kind : ScalarKind}
    (success : scalarOfText c place name current kind text position = .ok next) :
    next.Fits root (.scalar kind) := by
  unfold scalarOfText at success
  split at success
  · cases success
    exact ⟨.text text, .of_isFlat rfl⟩
  iterate 3 cases success
  all_goals
    split at success
    · rename_i read
      cases success
      exact ScalarKind.read_fits read
    · split at success
      · cases success
      · split at success <;> cases success
        rename_i stored
        exact ScalarKind.store_fits stored

theorem variantOfText_fits {typeName : String} {variants : List String}
    (success : variantOfText c place name current typeName variants text position = .ok next) :
    next.Fits root (.enumeration typeName variants) := by
  unfold variantOfText at success
  dsimp only at success
  split at success
  · rename_i named
    cases success
    exact variant?_fits named
  · split at success
    · cases success
    · split at success <;> cases success
      rename_i named
      exact variant?_fits named

end

section
variable {element : Descriptor} {fixed : Bool} {name : String} {items next : List Datum}

theorem freshElement_fits (coherent : root.Coherent) (part : element.Part root) :
    (freshElement element).Fits root element := by
  unfold freshElement
  split
  · exact Descriptor.newFilledRecord_fits coherent part
  · exact Descriptor.filled_fits coherent part

theorem itemsToPatch_fit {current : Datum} (ready : current.Ready root (.list element fixed)) :
    ∀ x ∈ itemsToPatch current, x.Fits root element := by
  intro x member
  unfold itemsToPatch at member
  split at member
  · rcases ready with impossible | ⟨conforms, sound⟩
    · cases impossible
    · cases conforms with
      | list each => exact ⟨each x member, sound.item member⟩
  · cases member

theorem fillTo_fits {index : Nat} {position : Position} (coherent : root.Coherent)
    (part : element.Part root) (each : ∀ x ∈ items, x.Fits root element)
    (success : fillTo c element fixed name items index position = .ok next) :
    ∀ x ∈ next, x.Fits root element := by
  unfold fillTo at success
  split at success
  · cases success
    exact each
  · split at success
    · cases success
    · split at success <;> cases success
      intro x member
      rcases List.mem_append.mp member with earlier | fresh
      · exact each x earlier
      · rw [List.eq_of_mem_replicate fresh]
        exact freshElement_fits coherent part

section
variable {patch : Datum → Except PatchError Datum}
  (patchFits : ∀ x y, x.Fits root element → patch x = .ok y → y.Fits root element)
include patchFits

theorem patchChosen_fits {flags : List Bool} (each : ∀ x ∈ items, x.Fits root element)
    (success : patchChosen patch flags items = .ok next) : ∀ x ∈ next, x.Fits root element := by
  induction flags generalizing items next with
  | nil =>
      unfold patchChosen at success
      cases success
      exact each
  | cons flag flags ih =>
      cases items with
      | nil =>
          cases flag <;> cases success <;> exact each
      | cons item rest =>
          rw [List.forall_mem_cons] at each
          cases flag with
          | true =>
              obtain ⟨first, head, success⟩ := of_bind_ok success
              obtain ⟨others, tail, success⟩ := of_bind_ok success
              cases success
              exact List.forall_mem_cons.mpr ⟨patchFits item first each.1 head, ih each.2 tail⟩
          | false =>
              obtain ⟨others, tail, success⟩ := of_bind_ok success
              cases success
              exact List.forall_mem_cons.mpr ⟨each.1, ih each.2 tail⟩

theorem patchAt_fits {index : Nat} {position : Position} (coherent : root.Coherent)
    (part : element.Part root) (each : ∀ x ∈ items, x.Fits root element)
    (success : patchAt c element fixed name patch items index position = .ok next) :
    ∀ x ∈ next, x.Fits root element := by
  obtain ⟨grown, filled, success⟩ := of_bind_ok success
  have old := fillTo_fits coherent part each filled
  split at success
  · rename_i item present
    obtain ⟨y, patched, success⟩ := of_bind_ok success
    cases success
    intro x member
    rcases List.mem_or_eq_of_mem_set member with earlier | rfl
    · exact old x earlier
    · exact patchFits item x (old item (List.mem_of_getElem? present)) patched
  · obtain ⟨y, patched, success⟩ := of_bind_ok success
    cases success
    intro x member
    rcases List.mem_append.mp member with earlier | last
    · exact old x earlier
    · rw [List.mem_singleton.mp last]
      exact patchFits _ y (freshElement_fits coherent part) patched

theorem patchItem_fits {added : Unit → Except PatchError (List Datum)} {key : String}
    {position : Position} (coherent : root.Coherent) (part : element.Part root)
    (addedFit : ∀ more, added () = .ok more → ∀ x ∈ more, x.Fits root element)
    (each : ∀ x ∈ items, x.Fits root element)
    (success : patchItem c element fixed name patch added items key position = .ok next) :
    ∀ x ∈ next, x.Fits root element := by
  unfold patchItem at success
  split at success
  · obtain ⟨more, made, rfl⟩ := of_map_ok success
    intro x member
    rcases List.mem_append.mp member with earlier | new
    · exact each x earlier
    · exact addedFit more made x new
  · obtain ⟨flags, -, success⟩ := of_bind_ok success
    exact patchChosen_fits patchFits each success
  · exact patchAt_fits patchFits coherent part each success
  · cases success

end

end

theorem of_patchField_ok {type : Descriptor} {r next : Record} {key : String} {node : Node}
    {patch : String → Descriptor → Datum → Except PatchError Datum}
    (success : patchField c type r key node patch = .ok next) :
    ∃ name fieldType x, Fields.find? name type.fields = some fieldType ∧ next = r.set name x ∧
      (formulaField c r name fieldType ((r.get? name).getD .null) node = .ok x ∨
        patch name fieldType ((r.get? name).getD .null) = .ok x) := by
  unfold patchField at success
  dsimp only at success
  split at success
  · cases success
  · rename_i name fieldType found
    have declared := Descriptor.find?_of_field? found
    split at success
    · obtain ⟨x, patched, success⟩ := of_bind_ok success
      cases success
      exact ⟨name, fieldType, x, declared, rfl, .inl patched⟩
    · obtain ⟨x, patched, success⟩ := of_bind_ok success
      cases success
      exact ⟨name, fieldType, x, declared, rfl, .inr patched⟩

section
variable {typeName : String} {fields : List (String × Descriptor)} {identity : Option String}
  {byValue : Bool} {r : Record}

theorem recordToPatch_fits {current : Datum} (coherent : root.Coherent)
    (part : (Descriptor.record typeName fields identity byValue).Part root)
    (ready : current.Ready root (.record typeName fields identity byValue)) :
    (Datum.ofRecord (recordToPatch (.record typeName fields identity byValue) current)).Fits root
      (.record typeName fields identity byValue) := by
  unfold recordToPatch
  split
  · rcases ready with impossible | fits
    · cases impossible
    · exact fits
  · exact Descriptor.newFilledRecord_fits coherent part

/-- A fitting record is ready to be patched, and is named after its type. -/
theorem fits_of_ofRecord (coherent : root.Coherent)
    (part : (Descriptor.record typeName fields identity byValue).Part root)
    (fits : (Datum.ofRecord r).Fits root (.record typeName fields identity byValue)) :
    r.Fits root (.record typeName fields identity byValue) ∧ r.typeName = typeName := by
  obtain ⟨name, entries⟩ := r
  obtain ⟨conforms, sound⟩ := fits
  cases conforms with
  | record each =>
      exact ⟨⟨each, sound, fun other inner isRecord named =>
        coherent other _ inner part isRecord rfl named⟩, rfl⟩

theorem ofRecord_fits (fits : r.Fits root (.record typeName fields identity byValue))
    (named : r.typeName = typeName) :
    (Datum.ofRecord r).Fits root (.record typeName fields identity byValue) := by
  obtain ⟨name, entries⟩ := r
  cases named
  exact ⟨.record fits.conforms, fits.sound⟩

theorem wholeRecord_fits {patched : Except PatchError Unit × Record} {next : Datum}
    (named : r.typeName = typeName) (success : wholeRecord patched = .ok next)
    (keeps : ∀ final, patched = (.ok (), final) →
      final.Fits root (.record typeName fields identity byValue) ∧ final.typeName = r.typeName) :
    next.Fits root (.record typeName fields identity byValue) := by
  obtain ⟨outcome, final⟩ := patched
  cases outcome with
  | error e => cases success
  | ok done =>
      cases success
      obtain ⟨fits, same⟩ := keeps final rfl
      exact ofRecord_fits fits (same.trans named)

end

mutual

theorem patchDatum_fits (coherent : root.Coherent) (shared : c.Sound root) (place : Place)
    (name : String) (type : Descriptor) (part : type.Part root) (current next : Datum)
    (ready : current.Ready root type) :
    (node : Node) → patchDatum c place name type current node = .ok next → next.Fits root type
  | .scalar text position, success => by
      unfold patchDatum at success
      split at success
      · cases success
        exact Descriptor.initial_fits coherent type part
      · split at success
        · exact scalarOfText_fits success
        · exact variantOfText_fits success
        · cases success
  | .sequence nodes position, success => by
      unfold patchDatum at success
      split at success
      · obtain ⟨items, patched, rfl⟩ := of_map_ok success
        exact .list (patchItems_fits coherent shared name _ (.trans (.element .self) part) _ items
          (itemsToPatch_fit ready) nodes patched)
      · cases success
  | .mapping entries position, success => by
      unfold patchDatum at success
      split at success
      · obtain ⟨items, patched, rfl⟩ := of_map_ok success
        exact .list (patchKeys_fits coherent shared name _ _ (.trans (.element .self) part) _ items
          (itemsToPatch_fit ready) entries patched)
      · have before := fits_of_ofRecord coherent part (recordToPatch_fits coherent part ready)
        dsimp only at success
        split at success
        · split at success
          · exact wholeRecord_fits before.2 success fun r done =>
              patchFields_fits coherent shared _ part _ r before.1 _ done
          · exact wholeRecord_fits before.2 success fun r done =>
              patchFields_fits coherent shared _ part _ r before.1 _ done
        · exact wholeRecord_fits before.2 success fun r done =>
            patchFields_fits coherent shared _ part _ r before.1 _ done
      · cases success
termination_by node => sizeOf node

theorem patchItems_fits (coherent : root.Coherent) (shared : c.Sound root) (name : String)
    (element : Descriptor) (part : element.Part root) (items next : List Datum)
    (each : ∀ x ∈ items, x.Fits root element) :
    (nodes : List Node) → patchItems c name element items nodes = .ok next →
      ∀ x ∈ next, x.Fits root element
  | [], success => by
      unfold patchItems at success
      cases success
      exact each
  | node :: rest, success => by
      unfold patchItems at success
      obtain ⟨first, head, success⟩ := of_bind_ok success
      obtain ⟨others, tail, success⟩ := of_bind_ok success
      cases success
      have start : (items.headD (freshElement element)).Fits root element := by
        cases items with
        | nil => exact freshElement_fits coherent part
        | cons item _ => exact each item List.mem_cons_self
      exact List.forall_mem_cons.mpr
        ⟨patchDatum_fits coherent shared .element name element part _ first (.inr start) node head,
          patchItems_fits coherent shared name element part _ others
            (fun x member => each x (List.mem_of_mem_tail member)) rest tail⟩
termination_by nodes => sizeOf nodes

theorem patchKeys_fits (coherent : root.Coherent) (shared : c.Sound root) (name : String)
    (element : Descriptor) (fixed : Bool) (part : element.Part root) (items next : List Datum)
    (each : ∀ x ∈ items, x.Fits root element) :
    (entries : List (String × Node)) → patchKeys c name element fixed items entries = .ok next →
      ∀ x ∈ next, x.Fits root element
  | [], success => by
      unfold patchKeys at success
      cases success
      exact each
  | (key, node) :: rest, success => by
      unfold patchKeys at success
      obtain ⟨middle, patched, success⟩ := of_bind_ok success
      refine patchKeys_fits coherent shared name element fixed part middle next ?_ rest success
      have patchFits := fun x y (fits : x.Fits root element) =>
        patchDatum_fits coherent shared .element name element part x y (.inr fits) node
      refine patchItem_fits patchFits coherent part ?_ each patched
      intro more made
      cases node with
      | sequence nodes position =>
          exact patchItems_fits coherent shared name element part [] more
            (fun x member => nomatch member) nodes made
      | scalar | mapping =>
          obtain ⟨x, patched, rfl⟩ := of_map_ok made
          exact List.forall_mem_singleton.mpr
            (patchFits _ x (freshElement_fits coherent part) patched)
termination_by entries => sizeOf entries

theorem patchFields_fits (coherent : root.Coherent) (shared : c.Sound root) (type : Descriptor)
    (part : type.Part root) (r final : Record) (fits : r.Fits root type) :
    (entries : List (String × Node)) → patchFields c type r entries = (.ok (), final) →
      final.Fits root type ∧ final.typeName = r.typeName
  | [], success => by
      unfold patchFields at success
      cases success
      exact ⟨fits, rfl⟩
  | (key, node) :: rest, success => by
      unfold patchFields at success
      dsimp only at success
      split at success
      · rename_i middle patched
        obtain ⟨name, fieldType, x, declared, rfl, made⟩ := of_patchField_ok patched
        have inner := (Descriptor.mem_fields_part (Fields.mem_of_find? declared)).trans part
        have ready := fits.current_ready declared
        have next := made.elim (formulaField_fits shared inner fits.sound ready)
          (patchDatum_fits coherent shared (.field r) name fieldType inner _ x ready node)
        exact patchFields_fits coherent shared type part (r.set name x) final
          (fits.set declared next) rest success
      · cases success
termination_by entries => sizeOf entries

end

/-- A record that conforms to its type, with sound records inside, is still one after any entries
were set, whatever the settings are. -/
theorem patchRecord_conforms {type : Descriptor} {record patched : Record}
    {entries : List (String × Node)} (coherent : type.Coherent)
    (alone : ∀ other : Descriptor, other.Part type → other.isRecord →
      other.name = record.typeName → other = type)
    (conforms : record.Conforms type) (sound : (Datum.ofRecord record).Sound type)
    (shared : ∀ name v, c.store.get? name = some v → v.Sound type)
    (success : patchRecord c type record entries = .ok patched) :
    patched.typeName = record.typeName ∧ patched.Conforms type ∧
      (Datum.ofRecord patched).Sound type := by
  unfold patchRecord at success
  split at success <;> cases success
  rename_i done
  obtain ⟨fits, named⟩ := patchFields_fits coherent shared type .self record patched
    ⟨conforms, sound, alone⟩ entries done
  exact ⟨named, fits.conforms, fits.sound⟩

def engineType : Descriptor := .record "Engine" [("Thrust", .scalar (.integer 32 true))] none false

/-- The day of the launch is not looked into. -/
def vesselType : Descriptor :=
  .record "Vessel" [("Engine", engineType), ("Launched", .scalar .dateTime)] none false

theorem eq_of_part_vesselType {type : Descriptor} (part : type.Part vesselType)
    (isRecord : type.isRecord) : type = vesselType ∨ type = engineType := by
  cases part with
  | self => exact .inl rfl
  | field member part =>
      simp only [List.mem_cons, Prod.mk.injEq, List.not_mem_nil, or_false] at member
      rcases member with ⟨-, rfl⟩ | ⟨-, rfl⟩
      · cases part with
        | self => exact .inr rfl
        | field member part =>
            simp only [List.mem_cons, Prod.mk.injEq, List.not_mem_nil, or_false] at member
            obtain ⟨-, rfl⟩ := member
            cases part
            cases isRecord
      · cases part
        cases isRecord

theorem vesselType_coherent : vesselType.Coherent := by
  intro a b partA partB recordA recordB named
  rcases eq_of_part_vesselType partA recordA with rfl | rfl <;>
    rcases eq_of_part_vesselType partB recordB with rfl | rfl
  · rfl
  · exact absurd named (by decide)
  · exact absurd named (by decide)
  · rfl

/-- A vessel without an engine, and an engine in store. -/
def unfinished : Record := ⟨"Vessel", [("Engine", .null), ("Launched", .text "spring")]⟩

def spare : Record := ⟨"Engine", [("Thrust", .int 5)]⟩

def yard : Context := ⟨.initial, ⟨[("spare", .record spare)]⟩⟩

theorem unfinished_conforms : unfinished.Conforms vesselType := by
  apply Record.conforms_of_mem
  intro declared member x found
  rcases List.mem_cons.mp member with rfl | member
  · cases found
    exact .noRecord
  · cases List.mem_singleton.mp member
    exact .dateTime x

theorem unfinished_sound : (Datum.ofRecord unfinished).Sound vesselType := by
  refine (Datum.Fits.record vesselType_coherent .self unfinished_conforms ?_).sound
  intro field x member
  simp only [unfinished, List.mem_cons, Prod.mk.injEq, List.not_mem_nil, or_false] at member
  rcases member with ⟨-, rfl⟩ | ⟨-, rfl⟩ <;> exact .of_isFlat rfl

theorem spare_conforms : spare.Conforms engineType := by
  apply Record.conforms_of_mem
  intro declared member x found
  cases List.mem_singleton.mp member
  cases found
  exact .integer (by simp [ScalarKind.Admits])

theorem yard_sound (name : String) (v : Value) (given : yard.store.get? name = some v) :
    v.Sound vesselType := by
  cases List.mem_singleton.mp (Fields.mem_of_find? given)
  intro r inside
  cases inside with
  | record inner =>
      refine (Datum.Fits.record vesselType_coherent (.field List.mem_cons_self .self)
        spare_conforms ?_).sound r inner
      intro field x member
      cases List.mem_singleton.mp member
      exact .of_isFlat rfl

theorem patchRecord_conforms_unfinished :
    ∃ patched,
      patchRecord yard vesselType unfinished [("$Engine", .scalar "spare" .unknown)] =
        .ok patched ∧
      patched.typeName = "Vessel" ∧ patched.Conforms vesselType ∧
      (Datum.ofRecord patched).Sound vesselType := by
  have succeeds : (patchRecord yard vesselType unfinished
      [("$Engine", .scalar "spare" .unknown)]).isOk := by decide +kernel
  cases success : patchRecord yard vesselType unfinished
      [("$Engine", .scalar "spare" .unknown)] with
  | error e =>
      rw [success] at succeeds
      cases succeeds
  | ok patched =>
      exact ⟨patched, rfl, patchRecord_conforms vesselType_coherent
        (fun other part isRecord named =>
          vesselType_coherent other vesselType part .self isRecord rfl named)
        unfinished_conforms unfinished_sound yard_sound success⟩

/-- A vessel that hides an engine without a number for its thrust where no type is declared. -/
def drifting : Record :=
  ⟨"Vessel", [("Engine", .null), ("Launched", .record "Engine" [("Thrust", .text "fast")])]⟩

theorem drifting_conforms : drifting.Conforms vesselType := by
  apply Record.conforms_of_mem
  intro declared member x found
  rcases List.mem_cons.mp member with rfl | member
  · cases found
    exact .noRecord
  · cases List.mem_singleton.mp member
    exact .dateTime x

def thrust? (r : Record) : Option Datum :=
  match r.get? "Engine" with
  | some (.record _ fields) => Fields.find? "Thrust" fields
  | _ => none

theorem thrust_isInt {r : Record} {x : Datum} (conforms : r.Conforms vesselType)
    (found : thrust? r = some x) : x.kind = "integer" := by
  unfold thrust? at found
  split at found
  · rename_i engine
    have inner := conforms "Engine" engineType _ rfl engine
    cases inner with
    | record each =>
        cases each "Thrust" (.scalar (.integer 32 true)) x rfl found
        rfl
  · cases found

/-- Records that are stored by a formula are told by their names only: a nonconforming one from a
field without a type makes its way into a field that has one. -/
theorem patchRecord_drifting :
    vesselType.Coherent ∧ drifting.typeName = vesselType.name ∧ drifting.Conforms vesselType ∧
    (∀ name v, Store.empty.get? name = some v → v.Sound vesselType) ∧
    ∃ patched,
      patchRecord ⟨.initial, .empty⟩ vesselType drifting
        [("$Engine", .scalar "item.Launched" .unknown)] = .ok patched ∧
      ¬ patched.Conforms vesselType := by
  refine ⟨vesselType_coherent, rfl, drifting_conforms, fun _ _ given => (by cases given), ?_⟩
  have stored : ((patchRecord ⟨.initial, .empty⟩ vesselType drifting
      [("$Engine", .scalar "item.Launched" .unknown)]).toOption.bind thrust?).map Datum.kind =
        some "text" := by decide +kernel
  cases success : patchRecord ⟨.initial, .empty⟩ vesselType drifting
      [("$Engine", .scalar "item.Launched" .unknown)] with
  | error e =>
      rw [success] at stored
      cases stored
  | ok patched =>
      refine ⟨patched, rfl, fun conforms => ?_⟩
      rw [success] at stored
      obtain ⟨x, found, isText⟩ := Option.map_eq_some_iff.mp stored
      rw [thrust_isInt conforms found] at isText
      exact absurd isText (by decide)

end Patch

end Emend
