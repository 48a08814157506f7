import Emend.Proofs.Patch.Located
import Emend.Proofs.Patch.Placewise

/-!
Updates without formulas that are carried out twice. The second time they change nothing: they leave
what they patch as it is, or they are refused, as where the first time a list was emptied after one of
its elements had been patched.
-/

set_option autoImplicit false

namespace Emend.Patch

variable {c : Context}

/-- Once literal nodes have patched a datum of the type, they do not change it if they are there
again. -/
def Settles (c : Context) (type : Descriptor) : Prop :=
  ∀ (place : Place) (name : String) (nodes : List Node) (d next again : Datum),
    (∀ node ∈ nodes, isLiteral c place type node) →
    patchAll c place name type d nodes = .ok next →
    patchAll c place name type next nodes = .ok again → again = next

theorem Settles.of_composite {type : Descriptor}
    (composite : ∀ (place : Place) (name : String) (nodes : List Node) (d next again : Datum),
      nodes ≠ [] →
      (∀ node ∈ nodes, isLiteral c place type node ∧ ¬ IsConstant c place type node) →
      patchAll c place name type d nodes = .ok next →
      patchAll c place name type next nodes = .ok again → again = next) : Settles c type := by
  intro place name nodes d next again literal first second
  by_cases constant : ∃ node ∈ nodes, IsConstant c place type node
  · obtain ⟨node, member, constant⟩ := constant
    exact eq_of_isConstant member constant first second
  · by_cases empty : nodes = []
    · subst empty
      exact (Except.ok.inj second).symm
    · exact composite place name nodes d next again empty
        (fun node member => ⟨literal node member, fun here => constant ⟨node, member, here⟩⟩)
        first second

section
variable {type : Descriptor}

/-- The induction on types comes down to this: a record settles if all its fields do. -/
theorem eq_of_patchRecord {r next again : Record} {entries : Entries}
    (fields : ∀ name fieldType, Fields.find? name type.fields = some fieldType →
      Settles c fieldType)
    (literal : literalFields c type entries)
    (first : patchRecord c type r entries = .ok next)
    (second : patchRecord c type next entries = .ok again) : again = next := by
  have done := patchRecord_fieldwise literal first
  have redone := patchRecord_fieldwise literal second
  refine done.eq redone fun name member => ?_
  obtain ⟨fieldType, declared⟩ := done.declared name member
  exact fields name fieldType declared inRecord name _ _ _ _ (done.literal name fieldType declared)
    (done.each name fieldType declared) (redone.each name fieldType declared)

theorem of_wholeRecord_ok {r : Record} {entries : Entries} {d : Datum}
    (success : wholeRecord (patchFields c type r entries) = .ok d) :
    ∃ next, patchRecord c type r entries = .ok next ∧ d = .ofRecord next := by
  unfold patchRecord
  generalize patchFields c type r entries = patched at success ⊢
  obtain ⟨outcome, final⟩ := patched
  cases outcome with
  | error e => cases success
  | ok done =>
      cases success
      exact ⟨final, rfl, rfl⟩

end

section
variable {place : Place} {name typeName : String} {fields : List (String × Descriptor)}
  {identity : Option String} {byValue : Bool}

theorem exists_mapping {node : Node}
    (literal : isLiteral c place (.record typeName fields identity byValue) node)
    (composite : ¬ IsConstant c place (.record typeName fields identity byValue) node) :
    ∃ entries position, node = .mapping entries position := by
  cases node with
  | scalar text position => exact (composite (isConstant_scalar literal)).elim
  | sequence nodes position =>
      refine (composite fun name d e => ?_).elim
      unfold patchDatum
      rfl
  | mapping entries position => exact ⟨entries, position, rfl⟩

def recordEntries (place : Place) (typeName : String) : Node → Entries
  | .mapping entries _ => unwrapped place typeName entries
  | _ => []

theorem of_patchAll_record {nodes : List Node} {d next : Datum}
    (mappings : ∀ node ∈ nodes, ∃ entries position, node = .mapping entries position)
    (success : patchAll c place name (.record typeName fields identity byValue) d nodes = .ok next) :
    let type := Descriptor.record typeName fields identity byValue
    patchRecord c type (recordToPatch type d) (nodes.flatMap (recordEntries place typeName)) =
      .ok (recordToPatch type next) := by
  intro type
  induction nodes generalizing d with
  | nil =>
      cases success
      rfl
  | cons node rest ih =>
      obtain ⟨entries, position, rfl⟩ := mappings node List.mem_cons_self
      rw [patchAll_cons, patchDatum_record] at success
      obtain ⟨e, made, success⟩ := of_bind_ok success
      obtain ⟨middle, patched, rfl⟩ := of_wholeRecord_ok made
      rw [List.flatMap_cons, patchRecord_append]
      have here : patchRecord c type (recordToPatch type d)
          (recordEntries place typeName (.mapping entries position)) = .ok middle := patched
      rw [here]
      exact ih (fun later member => mappings later (List.mem_cons_of_mem _ member)) success

theorem literalFields_append {type : Descriptor} (entries others : Entries) :
    literalFields c type (entries ++ others) =
      (literalFields c type entries && literalFields c type others) := by
  induction entries with
  | nil => rfl
  | cons entry rest ih =>
      obtain ⟨key, node⟩ := entry
      rw [List.cons_append, literalFields, literalFields, ih, Bool.and_assoc]

theorem literalFields_flatMap {nodes : List Node}
    (mappings : ∀ node ∈ nodes, ∃ entries position, node = .mapping entries position)
    (literal : ∀ node ∈ nodes, isLiteral c place (.record typeName fields identity byValue) node) :
    literalFields c (.record typeName fields identity byValue)
      (nodes.flatMap (recordEntries place typeName)) := by
  induction nodes with
  | nil => rfl
  | cons node rest ih =>
      obtain ⟨entries, position, rfl⟩ := mappings node List.mem_cons_self
      have first := literal _ List.mem_cons_self
      rw [isLiteral_record] at first
      rw [List.flatMap_cons, literalFields_append, Bool.and_eq_true]
      exact ⟨first, ih (fun later member => mappings later (List.mem_cons_of_mem _ member))
        fun later member => literal later (List.mem_cons_of_mem _ member)⟩

theorem settles_record (each : ∀ field ∈ fields, Settles c field.2) :
    Settles c (.record typeName fields identity byValue) := by
  apply Settles.of_composite
  intro place name nodes d next again some composite first second
  have mappings := fun node member =>
    exists_mapping (composite node member).1 (composite node member).2
  have literal := literalFields_flatMap mappings fun node member => (composite node member).1
  have whole : ∀ {d next : Datum},
      patchAll c place name (.record typeName fields identity byValue) d nodes = .ok next →
        ∃ r, next = .ofRecord r := by
    intro d next success
    obtain ⟨e, node, member, made⟩ := of_patchAll_ok some success
    obtain ⟨entries, position, rfl⟩ := mappings node member
    rw [patchDatum_record] at made
    obtain ⟨r, -, made⟩ := of_wholeRecord_ok made
    exact ⟨r, made⟩
  obtain ⟨r, rfl⟩ := whole first
  obtain ⟨s, rfl⟩ := whole second
  exact congrArg Datum.ofRecord <| eq_of_patchRecord
    (fun field fieldType found => each _ (Fields.mem_of_find? found)) literal
    (of_patchAll_record mappings first) (of_patchAll_record mappings second)

end

section
variable {place : Place} {name : String} {element : Descriptor} {fixed : Bool}

theorem literal_of_mem_items {nodes : List Node} {inner : Node}
    (literal : literalItems c element nodes) (member : inner ∈ nodes) :
    isLiteral c .element element inner := by
  induction nodes with
  | nil => cases member
  | cons node rest ih =>
      unfold literalItems at literal
      obtain ⟨first, others⟩ := Bool.and_eq_true_iff.mp literal
      rcases List.mem_cons.mp member with rfl | later
      · exact first
      · exact ih others later

theorem literal_of_mem_keys {entries : Entries} {key : String} {inner : Node} {i : Nat}
    (literal : literalKeys c element entries) (member : (key, inner) ∈ entries)
    (index : ItemKey.parse? key = some (.index i)) : isLiteral c .element element inner := by
  induction entries with
  | nil => cases member
  | cons entry rest ih =>
      obtain ⟨first, node⟩ := entry
      unfold literalKeys at literal
      obtain ⟨one, others⟩ := Bool.and_eq_true_iff.mp literal
      rcases List.mem_cons.mp member with same | later
      · cases same
        rw [index] at one
        exact one
      · exact ih others later

theorem literal_of_mem_placed {node inner : Node} {i : Nat}
    (literal : isLiteral c place (.list element fixed) node) (member : (i, inner) ∈ placed node) :
    isLiteral c .element element inner := by
  cases node with
  | scalar text position => cases member
  | sequence nodes position =>
      unfold isLiteral at literal
      obtain ⟨⟨node, j⟩, inside, same⟩ := List.mem_map.mp member
      cases same
      exact literal_of_mem_items literal (List.fst_mem_of_mem_zipIdx inside)
  | mapping entries position =>
      unfold isLiteral at literal
      obtain ⟨⟨key, node⟩, inside, kept⟩ := List.mem_filterMap.mp member
      dsimp only at kept
      split at kept
      · rename_i j index
        cases kept
        exact literal_of_mem_keys literal inside index
      · cases kept

/-- A sequence or a mapping patches a list at one index after the other. -/
theorem of_patchDatum_list {node : Node} {d next : Datum}
    (literal : isLiteral c place (.list element fixed) node)
    (composite : ¬ IsConstant c place (.list element fixed) node)
    (success : patchDatum c place name (.list element fixed) d node = .ok next) :
    ∃ items, patchPlaced c name element fixed (itemsToPatch d) (placed node) = .ok items ∧
      next = .list items := by
  cases node with
  | scalar text position => exact (composite (isConstant_scalar literal)).elim
  | sequence nodes position =>
      unfold patchDatum at success
      obtain ⟨items, made, rfl⟩ := of_map_ok success
      rw [patchItems_eq _ _ position] at made
      exact ⟨items, made, rfl⟩
  | mapping entries position =>
      unfold patchDatum at success
      obtain ⟨items, made, rfl⟩ := of_map_ok success
      unfold isLiteral at literal
      exact ⟨items, of_patchKeys_ok position literal made, rfl⟩

theorem patchPlaced_append (items : List Datum) (nodes others : List (Nat × Node)) :
    patchPlaced c name element fixed items (nodes ++ others) =
      patchPlaced c name element fixed items nodes >>=
        (patchPlaced c name element fixed · others) :=
  List.foldlM_append

theorem of_patchAll_list {nodes : List Node} {d next : Datum}
    (composite : ∀ node ∈ nodes, isLiteral c place (.list element fixed) node ∧
      ¬ IsConstant c place (.list element fixed) node)
    (success : patchAll c place name (.list element fixed) d nodes = .ok next) :
    patchPlaced c name element fixed (itemsToPatch d) (nodes.flatMap placed) =
      .ok (itemsToPatch next) := by
  induction nodes generalizing d with
  | nil =>
      cases success
      rfl
  | cons node rest ih =>
      obtain ⟨literal, varies⟩ := composite node List.mem_cons_self
      rw [patchAll_cons] at success
      obtain ⟨e, made, success⟩ := of_bind_ok success
      obtain ⟨items, here, rfl⟩ := of_patchDatum_list literal varies made
      rw [List.flatMap_cons, patchPlaced_append, here]
      exact ih (fun later member => composite later (List.mem_cons_of_mem _ member)) success

theorem settles_list (each : Settles c element) : Settles c (.list element fixed) := by
  apply Settles.of_composite
  intro place name nodes d next again some composite first second
  have whole : ∀ {d next : Datum}, patchAll c place name (.list element fixed) d nodes = .ok next →
      ∃ items, next = .list items := by
    intro d next success
    obtain ⟨e, node, member, made⟩ := of_patchAll_ok some success
    obtain ⟨literal, varies⟩ := composite node member
    obtain ⟨items, -, made⟩ := of_patchDatum_list literal varies made
    exact ⟨items, made⟩
  obtain ⟨items, rfl⟩ := whole first
  obtain ⟨others, rfl⟩ := whole second
  have done := patchPlaced_itemwise (of_patchAll_list composite first)
  have redone := patchPlaced_itemwise (of_patchAll_list composite second)
  refine congrArg Datum.list (done.eq redone fun i x y after before => ?_)
  have literal : ∀ node ∈ nodesAt i (nodes.flatMap placed), isLiteral c .element element node := by
    intro inner member
    obtain ⟨node, inside, here⟩ := List.mem_flatMap.mp (of_mem_nodesAt member)
    exact literal_of_mem_placed (composite node inside).1 here
  have patched := redone.each i x after
  rw [before] at patched
  exact each .element name _ _ _ _ literal (done.each i y before) patched

end

theorem settles_of_constant {type : Descriptor}
    (sequence : ∀ place nodes position, IsConstant c place type (.sequence nodes position))
    (mapping : ∀ place entries position, IsConstant c place type (.mapping entries position)) :
    Settles c type := by
  apply Settles.of_composite
  intro place name nodes d next again some composite first second
  obtain ⟨node, member⟩ := List.exists_mem_of_ne_nil nodes some
  obtain ⟨literal, varies⟩ := composite node member
  refine (varies ?_).elim
  cases node with
  | scalar text position => exact isConstant_scalar literal
  | sequence nodes position => exact sequence place nodes position
  | mapping entries position => exact mapping place entries position

theorem settles_scalar (kind : ScalarKind) : Settles c (.scalar kind) := by
  apply settles_of_constant
  · intro place nodes position name d e
    unfold patchDatum
    rfl
  · intro place entries position name d e
    unfold patchDatum
    rfl

theorem settles_enumeration (typeName : String) (variants : List String) :
    Settles c (.enumeration typeName variants) := by
  apply settles_of_constant
  · intro place nodes position name d e
    unfold patchDatum
    rfl
  · intro place entries position name d e
    unfold patchDatum
    rfl

mutual

/-- The induction is on the type. -/
theorem settles : (type : Descriptor) → Settles c type
  | .scalar kind => settles_scalar kind
  | .enumeration typeName variants => settles_enumeration typeName variants
  | .record _ fields _ _ => settles_record (settles_fields fields)
  | .list element _ => settles_list (settles element)

theorem settles_fields : (fields : List (String × Descriptor)) →
    ∀ field ∈ fields, Settles c field.2
  | [] => fun _ member => (List.not_mem_nil member).elim
  | (_, type) :: rest => List.forall_mem_cons.mpr ⟨settles type, settles_fields rest⟩

end

theorem patchRecord_settled {type : Descriptor} {r next again : Record} {entries : Entries}
    (literal : literalFields c type entries) (first : patchRecord c type r entries = .ok next)
    (second : patchRecord c type next entries = .ok again) : again = next :=
  eq_of_patchRecord (fun _ _ _ => settles _) literal first second

/-- Whether an update gives no field by a formula. The identity may be given by one. -/
def Instruction.isLiteral (c : Context) (type : Descriptor) (field : String) (i : Instruction) :
    Bool :=
  match i.payload with
  | .mapping entries _ => literalFields c type (Entries.withoutIdentity field entries)
  | _ => true

theorem Instruction.patched_settled {type : Descriptor} {field : String} {i : Instruction}
    {r next again : Record} (literal : i.isLiteral c type field)
    (first : i.patched c type field r = .ok next) (second : i.patched c type field next = .ok again) :
    again = next := by
  obtain ⟨entries, payload, first⟩ := of_bind_ok first
  obtain ⟨others, same, second⟩ := of_bind_ok second
  cases payload.symm.trans same
  refine patchRecord_settled ?_ first second
  unfold Instruction.isLiteral at literal
  unfold Instruction.entries at payload
  split at payload
  · rename_i here
    cases payload
    rwa [here] at literal
  · cases payload

/-- A record that was updated without formulas is found where it was and stays as it is. -/
theorem Updates.settled {type : Descriptor} {field : String} {i : Instruction}
    {records after again : Collection} {slot : Nat} {r next : Record}
    (done : Updates c type field i records after slot r next)
    (named : records.identity = some field) (literal : i.isLiteral c type field)
    (success : (update c type field i).result after = .ok again) : again = after := by
  obtain ⟨found, old, made, redone⟩ := of_update_ok success
  have there := get?_of_located done.located
  have located := redone.located
  rw [done.replaced, located_replace there (patched_identityOf? named done.patched),
    done.located] at located
  obtain ⟨rfl, here⟩ := Prod.mk.inj (Except.ok.inj located)
  rw [if_pos rfl] at here
  subst here
  have same := Instruction.patched_settled literal done.patched redone.patched
  rw [redone.replaced, same]
  exact Collection.replace_self (get?_of_located redone.located)

namespace Workspace

/-- An update without formulas that is carried out a second time changes nothing, whether it
succeeded or failed the first time. -/
theorem step_update_twice (settings : Settings) (type : Descriptor) {w : Workspace} {field : String}
    {records : Collection} {i : Instruction} (here : w.target = .collection field records)
    (named : records.identity = some field) (verb : i.verb = .update)
    (literal : i.isLiteral ⟨settings, w.store⟩ type field) :
    let once := (w.step settings type i).2
    (once.step settings type i).2 = once := by
  intro once
  have first := step_update settings type here verb
  cases made : (update ⟨settings, w.store⟩ type field i).result records with
  | error e =>
      rw [made] at first
      have same : once = w := congrArg Prod.snd first
      rw [same]
      exact same
  | ok after =>
      rw [made] at first
      have same : once = { w with target := .collection field after } := congrArg Prod.snd first
      rw [same]
      refine (congrArg Prod.snd (step_update settings type rfl verb)).trans ?_
      obtain ⟨slot, r, next, done⟩ := of_update_ok made
      dsimp only
      cases remade : (update ⟨settings, w.store⟩ type field i).result after with
      | error e => rfl
      | ok again =>
          rw [done.settled named literal remade]
          rfl

/-- A dock with a keeper, and the depths along its piers. -/
def dockType : Descriptor :=
  .record "Dock"
    [("DockId", .scalar (.integer 32 true)),
      ("Keeper", .record "Keeper" [("Age", .scalar (.integer 8 false))] none false),
      ("Piers", .list (.list (.scalar (.integer 32 true)) false) false)]
    (some "DockId") false

/-- A dock that has no keeper, with one pier. -/
def docks : Collection :=
  ⟨some "DockId", .ordered
    [⟨"Dock", [("DockId", .int 4), ("Keeper", .null), ("Piers", .list [.list [.int 3]])]⟩]⟩

/-- The dock gets a keeper. Its pier is made longer before it is closed. -/
def closure : Instruction :=
  .ofPayload .update (.mapping
    [("DockId", .scalar "4" .unknown),
      ("Keeper", .mapping [("Age", .scalar "40" .unknown)] .unknown),
      ("Piers", .mapping [("0", .mapping [("1", .scalar "5" .unknown)] .unknown)] .unknown),
      ("Piers", .sequence [.scalar "delete()" .unknown] .unknown)] .unknown)

/-- The second time there is no pier that could be made longer. -/
theorem step_update_twice_docks :
    let w : Workspace := ⟨.collection "DockId" docks, .empty, []⟩
    let once := (w.step .initial dockType closure).2
    docks.identity = some "DockId" ∧ closure.verb = .update ∧
    closure.isLiteral ⟨.initial, w.store⟩ dockType "DockId" ∧
    (w.step .initial dockType closure).1.isOk ∧
    (once.step .initial dockType closure).1.isOk = false ∧
    (once.step .initial dockType closure).2 = once := by
  intro w once
  have literal : closure.isLiteral ⟨.initial, w.store⟩ dockType "DockId" := by decide +kernel
  exact ⟨rfl, rfl, literal, by decide +kernel, by decide +kernel,
    step_update_twice .initial dockType rfl rfl rfl literal⟩

end Workspace

end Emend.Patch
