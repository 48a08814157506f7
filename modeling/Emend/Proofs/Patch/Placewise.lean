import Emend.Proofs.Patch.Literals

/-!
Records and lists patched place by place. Nodes without formulas do in each field of a record, and at
each index of a list, what the nodes for this place do there one after the other; all else stays as
it is.
-/

set_option autoImplicit false

namespace Emend.Patch

def nodesAt {κ : Type} [DecidableEq κ] (place : κ) (nodes : List (κ × Node)) : List Node :=
  nodes.filterMap fun entry => if entry.1 = place then some entry.2 else none

section
variable {κ : Type} [DecidableEq κ] {place other : κ}

theorem nodesAt_self (node : Node) (rest : List (κ × Node)) :
    nodesAt place ((place, node) :: rest) = node :: nodesAt place rest :=
  List.filterMap_cons_some (if_pos rfl)

theorem nodesAt_other (differ : other ≠ place) (node : Node) (rest : List (κ × Node)) :
    nodesAt place ((other, node) :: rest) = nodesAt place rest :=
  List.filterMap_cons_none (if_neg differ)

theorem of_mem_nodesAt {node : Node} {nodes : List (κ × Node)} (member : node ∈ nodesAt place nodes) :
    (place, node) ∈ nodes := by
  obtain ⟨entry, inside, kept⟩ := List.mem_filterMap.mp member
  split at kept
  · rename_i here
    cases kept
    rw [← here]
    exact inside
  · cases kept

end

variable {c : Context}

section
variable {type : Descriptor}

/-- The entries with the declared names of their fields. -/
def addressed (type : Descriptor) (entries : Entries) : List (String × Node) :=
  entries.filterMap fun entry =>
    (type.field? (fieldKey entry.1).1).map fun field => (field.1, entry.2)

theorem addressed_cons {key name : String} {fieldType : Descriptor} (node : Node) (rest : Entries)
    (found : type.field? (fieldKey key).1 = some (name, fieldType)) :
    addressed type ((key, node) :: rest) = (name, node) :: addressed type rest :=
  List.filterMap_cons_some (by rw [found]; rfl)

theorem patchRecord_cons (r : Record) (key : String) (node : Node) (rest : Entries) :
    patchRecord c type r ((key, node) :: rest) =
      (do
        let r ← patchField c type r key node fun name fieldType current =>
          patchDatum c (.field r) name fieldType current node
        patchRecord c type r rest) := by
  unfold patchRecord
  rw [patchFields]
  cases patchField c type r key node fun name fieldType current =>
    patchDatum c (.field r) name fieldType current node <;> rfl

theorem patchRecord_append (r : Record) (entries others : Entries) :
    patchRecord c type r (entries ++ others) =
      patchRecord c type r entries >>= (patchRecord c type · others) := by
  induction entries generalizing r with
  | nil => rfl
  | cons entry rest ih =>
      rw [List.cons_append, patchRecord_cons, patchRecord_cons, bind_assoc]
      exact congrArg _ (funext ih)

theorem of_patchField_ok_literal {r next : Record} {key : String} {node : Node} {rest : Entries}
    (literal : literalFields c type ((key, node) :: rest))
    (success : (patchField c type r key node fun name fieldType current =>
      patchDatum c (.field r) name fieldType current node) = .ok next) :
    ∃ name fieldType x, type.field? (fieldKey key).1 = some (name, fieldType) ∧
      isLiteral c inRecord fieldType node ∧
      patchDatum c inRecord name fieldType ((r.get? name).getD .null) node = .ok x ∧
      next = r.set name x := by
  unfold literalFields at literal
  unfold patchField at success
  dsimp only at success
  split at success
  · cases success
  · rename_i name fieldType found
    rw [found] at literal
    simp only [Bool.and_eq_true, Bool.not_eq_true'] at literal
    obtain ⟨⟨plain, literal⟩, -⟩ := literal
    rw [plain, if_neg Bool.false_ne_true, patchDatum_inRecord literal] at success
    obtain ⟨x, made, success⟩ := of_bind_ok success
    cases success
    exact ⟨name, fieldType, x, found, literal, made, rfl⟩

/-- What was done to a record by nodes for its fields. -/
structure Fieldwise (c : Context) (type : Descriptor) (r : Record) (nodes : List (String × Node))
    (next : Record) : Prop where
  typeName : next.typeName = r.typeName
  declared : ∀ name ∈ nodes.map (·.1), ∃ fieldType, Fields.find? name type.fields = some fieldType
  literal : ∀ name fieldType, Fields.find? name type.fields = some fieldType →
    ∀ node ∈ nodesAt name nodes, isLiteral c inRecord fieldType node
  written : ∃ written : List (String × Datum), written.map (·.1) = nodes.map (·.1) ∧
    next.fields = Fields.putAll written r.fields
  each : ∀ name fieldType, Fields.find? name type.fields = some fieldType →
    patchAll c inRecord name fieldType ((r.get? name).getD .null) (nodesAt name nodes) =
      .ok ((next.get? name).getD .null)

theorem Fieldwise.nil (r : Record) : Fieldwise c type r [] r :=
  ⟨rfl, fun _ member => (List.not_mem_nil member).elim, fun _ _ _ _ member =>
    (List.not_mem_nil member).elim, ⟨[], rfl, rfl⟩, fun _ _ _ => rfl⟩

theorem Fieldwise.cons {r next : Record} {name : String} {fieldType : Descriptor} {node : Node}
    {rest : List (String × Node)} {x : Datum}
    (found : Fields.find? name type.fields = some fieldType)
    (literal : isLiteral c inRecord fieldType node)
    (made : patchDatum c inRecord name fieldType ((r.get? name).getD .null) node = .ok x)
    (later : Fieldwise c type (r.set name x) rest next) :
    Fieldwise c type r ((name, node) :: rest) next where
  typeName := later.typeName
  declared := List.forall_mem_cons.mpr ⟨⟨fieldType, found⟩, later.declared⟩
  literal := by
    intro other otherType declared
    by_cases same : name = other
    · subst same
      cases found.symm.trans declared
      rw [nodesAt_self]
      exact List.forall_mem_cons.mpr ⟨literal, later.literal _ _ declared⟩
    · rw [nodesAt_other same]
      exact later.literal _ _ declared
  written := by
    obtain ⟨written, names, fields⟩ := later.written
    exact ⟨(name, x) :: written, congrArg (name :: ·) names, fields⟩
  each := by
    intro other otherType declared
    have rest := later.each other otherType declared
    unfold Record.get? Record.set at rest
    dsimp only at rest
    rw [Fields.find?_put] at rest
    by_cases same : name = other
    · subst same
      cases found.symm.trans declared
      rw [if_pos rfl] at rest
      rw [nodesAt_self, patchAll_cons, made]
      exact rest
    · rw [if_neg (Ne.symm same)] at rest
      rw [nodesAt_other same]
      exact rest

theorem patchRecord_fieldwise {r next : Record} {entries : Entries}
    (literal : literalFields c type entries)
    (success : patchRecord c type r entries = .ok next) :
    Fieldwise c type r (addressed type entries) next := by
  induction entries generalizing r with
  | nil =>
      cases success
      exact .nil _
  | cons entry rest ih =>
      obtain ⟨key, node⟩ := entry
      rw [patchRecord_cons] at success
      obtain ⟨middle, first, success⟩ := of_bind_ok success
      obtain ⟨name, fieldType, x, found, plain, made, rfl⟩ := of_patchField_ok_literal literal first
      unfold literalFields at literal
      have others := ih (Bool.and_eq_true_iff.mp literal).2 success
      rw [addressed_cons node rest found]
      exact .cons (Descriptor.find?_of_field? found) plain made others

theorem Fieldwise.eq {r next again : Record} {nodes : List (String × Node)}
    (first : Fieldwise c type r nodes next) (second : Fieldwise c type next nodes again)
    (same : ∀ name ∈ nodes.map (·.1),
      (again.get? name).getD .null = (next.get? name).getD .null) : again = next := by
  obtain ⟨written, names, fields⟩ := first.written
  obtain ⟨rewritten, renames, refields⟩ := second.written
  have present : ∀ name ∈ nodes.map (·.1), (Fields.find? name next.fields).isSome := by
    intro name member
    rw [fields]
    exact Fields.isSome_find?_putAll r.fields (.inl (names ▸ member))
  have found : ∀ name, Fields.find? name again.fields = Fields.find? name next.fields := by
    intro name
    by_cases member : name ∈ nodes.map (·.1)
    · have there : (Fields.find? name again.fields).isSome := by
        rw [refields]
        exact Fields.isSome_find?_putAll _ (.inl (renames ▸ member))
      obtain ⟨x, here⟩ := Option.isSome_iff_exists.mp there
      obtain ⟨y, before⟩ := Option.isSome_iff_exists.mp (present name member)
      have equal := same name member
      unfold Record.get? at equal
      rw [here, before] at equal ⊢
      exact congrArg some equal
    · rw [refields]
      exact Fields.find?_putAll_other _ (renames ▸ member)
  have unchanged : again.fields = next.fields := by
    rw [refields] at found ⊢
    exact Fields.putAll_self (renames ▸ present) found
  obtain ⟨typeName, _⟩ := again
  cases unchanged
  cases second.typeName
  rfl

end

section
variable {name : String} {element : Descriptor} {fixed : Bool}

def placed : Node → List (Nat × Node)
  | .scalar .. => []
  | .sequence nodes _ => nodes.zipIdx.map fun entry => (entry.2, entry.1)
  | .mapping entries _ => entries.filterMap fun entry =>
    match ItemKey.parse? entry.1 with
    | some (.index i) => some (i, entry.2)
    | _ => none

theorem placed_index {key : String} {i : Nat} (form : ItemKey.parse? key = some (.index i))
    {node : Node} {rest : Entries} {position : Position} :
    placed (.mapping ((key, node) :: rest) position) =
      (i, node) :: placed (.mapping rest position) := by
  simp only [placed, List.filterMap_cons, form]

/-- Patches a list by several nodes, each at its index. -/
def patchPlaced (c : Context) (name : String) (element : Descriptor) (fixed : Bool)
    (items : List Datum) (nodes : List (Nat × Node)) : Except PatchError (List Datum) :=
  nodes.foldlM (fun items entry =>
    patchAt c element fixed name (fun current => patchDatum c .element name element current entry.2)
      items entry.1 entry.2.position) items

theorem patchPlaced_cons (items : List Datum) (i : Nat) (node : Node) (rest : List (Nat × Node)) :
    patchPlaced c name element fixed items ((i, node) :: rest) =
      (do
        let items ← patchAt c element fixed name
          (fun current => patchDatum c .element name element current node) items i node.position
        patchPlaced c name element fixed items rest) :=
  List.foldlM_cons

theorem patchAt_length (patch : Datum → Except PatchError Datum) (before items : List Datum)
    (position : Position) :
    patchAt c element fixed name patch (before ++ items) before.length position =
      (patch (items.headD (freshElement element))).map fun x => (before ++ [x]) ++ items.tail := by
  have within : before.length ≤ (before ++ items).length := by simp
  unfold patchAt fillTo
  rw [if_pos within, ok_bind, List.getElem?_append_right (Nat.le_refl _), Nat.sub_self]
  cases items with
  | nil =>
      change (patch (freshElement element) >>= fun x => .ok ((before ++ []) ++ [x])) =
        (patch (freshElement element)).map _
      rw [List.append_nil]
      cases patch (freshElement element) with
      | error e => rfl
      | ok x => exact congrArg Except.ok (List.append_nil _).symm
  | cons item rest =>
      change (patch item >>= fun x => .ok ((before ++ item :: rest).set before.length x)) =
        (patch item).map _
      cases patch item with
      | error e => rfl
      | ok x => exact congrArg Except.ok (by simp)

/-- A sequence patches the elements from some index on. -/
theorem patchPlaced_zipIdx (before items : List Datum) (nodes : List Node) :
    patchPlaced c name element fixed (before ++ items)
        ((nodes.zipIdx before.length).map fun entry => (entry.2, entry.1)) =
      (patchItems c name element items nodes).map (before ++ ·) := by
  induction nodes generalizing before items with
  | nil => rfl
  | cons node rest ih =>
      rw [List.zipIdx_cons, List.map_cons, patchPlaced_cons, patchAt_length]
      unfold patchItems
      cases patchDatum c .element name element (items.headD (freshElement element)) node with
      | error e => rfl
      | ok x =>
          have later := ih (before ++ [x]) items.tail
          rw [List.length_append, List.length_singleton] at later
          refine later.trans ?_
          rw [ok_bind]
          cases patchItems c name element items.tail rest with
          | error e => rfl
          | ok others => exact congrArg Except.ok (List.append_assoc before [x] others)

theorem patchItems_eq (items : List Datum) (nodes : List Node) (position : Position) :
    patchItems c name element items nodes =
      patchPlaced c name element fixed items (placed (.sequence nodes position)) := by
  refine Eq.trans ?_ (patchPlaced_zipIdx [] items nodes).symm
  cases patchItems c name element items nodes <;> rfl

theorem of_patchKeys_ok {items next : List Datum} {entries : Entries} (position : Position)
    (literal : literalKeys c element entries)
    (success : patchKeys c name element fixed items entries = .ok next) :
    patchPlaced c name element fixed items (placed (.mapping entries position)) = .ok next := by
  induction entries generalizing items with
  | nil =>
      cases success
      rfl
  | cons entry rest ih =>
      obtain ⟨key, node⟩ := entry
      unfold patchKeys at success
      obtain ⟨middle, first, success⟩ := of_bind_ok success
      unfold literalKeys at literal
      obtain ⟨one, others⟩ := Bool.and_eq_true_iff.mp literal
      unfold patchItem at first
      split at first
      · rename_i form
        rw [form] at one
        cases one
      · rename_i form
        rw [form] at one
        cases one
      · rename_i i form
        rw [placed_index form, patchPlaced_cons, first]
        exact ih others success
      · cases first

/-- The greatest length that the indexes ask for. -/
def reach : List (Nat × Node) → Nat
  | [] => 0
  | (i, _) :: rest => max (i + 1) (reach rest)

theorem of_fillTo_ok {items filled : List Datum} {i : Nat} {position : Position}
    (success : fillTo c element fixed name items i position = .ok filled) :
    filled = items ++ List.replicate (i - items.length) (freshElement element) := by
  unfold fillTo at success
  split at success
  · rename_i within
    cases success
    rw [Nat.sub_eq_zero_of_le within, List.replicate_zero, List.append_nil]
  · split at success
    · cases success
    · split at success
      · cases success
      · cases success
        rfl

theorem getD_append_replicate (items : List Datum) (n j : Nat) (x : Datum) :
    (items ++ List.replicate n x)[j]?.getD x = items[j]?.getD x := by
  rw [List.getElem?_append]
  split
  · rfl
  · rename_i past
    rw [List.getElem?_replicate, List.getElem?_eq_none (Nat.le_of_not_lt past)]
    split <;> rfl

theorem of_patchAt_ok {patch : Datum → Except PatchError Datum} {items next : List Datum} {i : Nat}
    {position : Position} (success : patchAt c element fixed name patch items i position = .ok next) :
    ∃ x, patch (items[i]?.getD (freshElement element)) = .ok x ∧
      next.length = max items.length (i + 1) ∧
      ∀ j : Nat, next[j]?.getD (freshElement element) =
        if j = i then x else items[j]?.getD (freshElement element) := by
  unfold patchAt at success
  obtain ⟨filled, grown, success⟩ := of_bind_ok success
  have shape := of_fillTo_ok grown
  have length : filled.length = max items.length i := by
    rw [shape, List.length_append, List.length_replicate]
    omega
  have values : ∀ j : Nat, filled[j]?.getD (freshElement element) =
      items[j]?.getD (freshElement element) := by
    intro j
    rw [shape, getD_append_replicate]
  split at success
  · rename_i item found
    obtain ⟨x, made, success⟩ := of_bind_ok success
    cases success
    have inside : i < filled.length := (List.getElem?_eq_some_iff.mp found).1
    refine ⟨x, ?_, ?_, fun j => ?_⟩
    · rw [← values i, found]
      exact made
    · rw [List.length_set]
      omega
    · rw [List.getElem?_set, ← values j]
      by_cases here : i = j
      · rw [if_pos here, if_pos inside, if_pos here.symm]
        rfl
      · rw [if_neg here, if_neg (Ne.symm here)]
  · rename_i past
    obtain ⟨x, made, success⟩ := of_bind_ok success
    cases success
    have outside : filled.length ≤ i := List.getElem?_eq_none_iff.mp past
    have last : filled.length = i := by omega
    refine ⟨x, ?_, ?_, fun j => ?_⟩
    · rw [← values i, past]
      exact made
    · rw [List.length_append, List.length_singleton]
      omega
    · rw [← values j, List.getElem?_append]
      split
      · rename_i before
        rw [if_neg (by omega)]
      · rename_i after
        rw [List.getElem?_eq_none (Nat.le_of_not_lt after), List.getElem?_singleton, last]
        by_cases here : j = i
        · rw [if_pos here, if_pos (by omega)]
          rfl
        · rw [if_neg here, if_neg (by omega)]

/-- What was done to the elements of a list by nodes at their indexes. -/
structure Itemwise (c : Context) (name : String) (element : Descriptor) (items : List Datum)
    (nodes : List (Nat × Node)) (next : List Datum) : Prop where
  length : next.length = max items.length (reach nodes)
  each : ∀ (i : Nat) (x : Datum), next[i]? = some x →
    patchAll c .element name element (items[i]?.getD (freshElement element)) (nodesAt i nodes) =
      .ok x

theorem patchPlaced_itemwise {items next : List Datum} {nodes : List (Nat × Node)}
    (success : patchPlaced c name element fixed items nodes = .ok next) :
    Itemwise c name element items nodes next := by
  induction nodes generalizing items with
  | nil =>
      cases success
      refine ⟨(Nat.max_zero _).symm, fun i x found => ?_⟩
      rw [found]
      rfl
  | cons entry rest ih =>
      obtain ⟨i, node⟩ := entry
      rw [patchPlaced_cons] at success
      obtain ⟨middle, first, success⟩ := of_bind_ok success
      obtain ⟨y, made, length, values⟩ := of_patchAt_ok first
      have later := ih success
      constructor
      · rw [later.length, length, reach, Nat.max_assoc]
      · intro j x found
        have others := later.each j x found
        rw [values] at others
        by_cases same : i = j
        · subst same
          rw [nodesAt_self, patchAll_cons, made]
          rwa [if_pos rfl] at others
        · rw [nodesAt_other same]
          rwa [if_neg (Ne.symm same)] at others

theorem Itemwise.eq {items next again : List Datum} {nodes : List (Nat × Node)}
    (first : Itemwise c name element items nodes next)
    (second : Itemwise c name element next nodes again)
    (same : ∀ (i : Nat) (x y : Datum), again[i]? = some x → next[i]? = some y → x = y) :
    again = next := by
  have length : again.length = next.length := by
    rw [second.length, first.length]
    omega
  apply List.ext_getElem length
  intro i inside within
  exact same i _ _ (List.getElem?_eq_getElem inside) (List.getElem?_eq_getElem within)

end

end Emend.Patch
