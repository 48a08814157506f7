import Emend.Proofs.Patch.Placewise

/-!
Elements that stay in a list when it is patched. Lists never get shorter, and an element keeps its
place. It changes only if an entry has its index for a key or a formula that is true on it, or if it
stands where a sequence reaches. A sequence fails only where one of its nodes does.
-/

set_option autoImplicit false

namespace Emend.Patch

/-- Whether a key leads to a position of a list: by its index, or by a formula that is true on the
element there while the list is in scope as a whole. -/
inductive ItemKey.Addresses (c : Context) (items : List Datum) (position : Position) :
    ItemKey → Nat → Prop
  | index (k : Nat) : Addresses c items position (.index k) k
  | choice {formula : String} {k : Nat} {x : Datum} (there : items[k]? = some x)
      (holds : c.evaluateBool [("item", .ofDatum x), ("value", .count k),
        ("collection", .tuple (items.map Value.ofDatum))] formula position = .ok true) :
      Addresses c items position (.choice formula) k

/-- The list is at least as long, and has the same elements at the positions that are spared. -/
structure Keeps (spared : Nat → Prop) (items next : List Datum) : Prop where
  length : items.length ≤ next.length
  kept : ∀ k < items.length, spared k → next[k]? = items[k]?

namespace Keeps
variable {spared other : Nat → Prop} {items middle next : List Datum}

theorem refl (spared : Nat → Prop) (items : List Datum) : Keeps spared items items :=
  ⟨Nat.le_refl _, fun _ _ _ => rfl⟩

theorem trans (first : Keeps spared items middle) (second : Keeps spared middle next) :
    Keeps spared items next where
  length := Nat.le_trans first.length second.length
  kept k inside spares := by
    rw [second.kept k (Nat.lt_of_lt_of_le inside first.length) spares, first.kept k inside spares]

theorem mono (keeps : Keeps other items next) (fewer : ∀ k, spared k → other k) :
    Keeps spared items next :=
  ⟨keeps.length, fun k inside spares => keeps.kept k inside (fewer k spares)⟩

theorem append (spared : Nat → Prop) (items more : List Datum) :
    Keeps spared items (items ++ more) where
  length := by simp
  kept _ inside _ := List.getElem?_append_left inside

end Keeps

section
variable {c : Context} {name : String} {element : Descriptor} {fixed : Bool}
  {items next : List Datum}

theorem patchAt_keeps {patch : Datum → Except PatchError Datum} {i : Nat} {position : Position}
    (success : patchAt c element fixed name patch items i position = .ok next) :
    Keeps (· ≠ i) items next := by
  obtain ⟨x, -, length, values⟩ := of_patchAt_ok success
  have longer : items.length ≤ next.length := by omega
  refine ⟨longer, fun k inside differ => ?_⟩
  have there := values k
  rw [if_neg differ] at there
  have within := Nat.lt_of_lt_of_le inside longer
  rw [List.getElem?_eq_getElem inside, List.getElem?_eq_getElem within] at there ⊢
  exact congrArg some there

theorem patchChosen_keeps {patch : Datum → Except PatchError Datum} {flags : List Bool}
    (success : patchChosen patch flags items = .ok next) :
    Keeps (fun k => flags[k]? ≠ some true) items next := by
  induction flags generalizing items next with
  | nil =>
      unfold patchChosen at success
      cases success
      exact .refl _ _
  | cons flag flags ih =>
      cases items with
      | nil =>
          cases flag <;> cases success <;> exact .refl _ _
      | cons item rest =>
          -- Behind the first element it is as for the rest of the list.
          have step {first : Datum} {others : List Datum}
              (tail : patchChosen patch flags rest = .ok others)
              (head : flag = false → first = item) :
              Keeps (fun k => (flag :: flags)[k]? ≠ some true) (item :: rest)
                (first :: others) := by
            have later := ih tail
            refine ⟨Nat.succ_le_succ later.length, fun k inside spares => ?_⟩
            cases k with
            | zero =>
                rw [head (Bool.eq_false_iff.mpr fun chosen => spares (congrArg some chosen))]
                rfl
            | succ k => exact later.kept k (Nat.lt_of_succ_lt_succ inside) spares
          cases flag with
          | true =>
              obtain ⟨first, -, success⟩ := of_bind_ok success
              obtain ⟨others, tail, success⟩ := of_bind_ok success
              cases success
              exact step tail nofun
          | false =>
              obtain ⟨others, tail, success⟩ := of_bind_ok success
              cases success
              exact step tail fun _ => rfl

/-- Every chosen position is one on whose element the formula is true. -/
theorem addresses_of_chosen {formula : String} {position : Position} {flags : List Bool} {k : Nat}
    (success : chosen c items formula position = .ok flags) (flagged : flags[k]? = some true) :
    ItemKey.Addresses c items position (.choice formula) k := by
  obtain ⟨⟨x, i⟩, there, holds⟩ := getElem?_of_mapM_ok success flagged
  rw [List.getElem?_zipIdx] at there
  obtain ⟨y, found, same⟩ := Option.map_eq_some_iff.mp there
  cases same
  rw [Nat.zero_add] at holds
  exact .choice found holds

theorem patchItem_keeps {patch : Datum → Except PatchError Datum}
    {added : Unit → Except PatchError (List Datum)} {key : String} {position : Position}
    (success : patchItem c element fixed name patch added items key position = .ok next) :
    ∃ itemKey, ItemKey.parse? key = some itemKey ∧
      Keeps (fun k => ¬ itemKey.Addresses c items position k) items next := by
  unfold patchItem at success
  split at success
  · rename_i parsed
    obtain ⟨more, -, rfl⟩ := of_map_ok success
    exact ⟨.addition, parsed, .append _ items more⟩
  · rename_i formula parsed
    obtain ⟨flags, selected, success⟩ := of_bind_ok success
    exact ⟨.choice formula, parsed, (patchChosen_keeps success).mono fun k spares flagged =>
      spares (addresses_of_chosen selected flagged)⟩
  · rename_i i parsed
    exact ⟨.index i, parsed, (patchAt_keeps success).mono fun k spares same =>
      spares (same ▸ .index k)⟩
  · cases success

end

/-- Whether an entry leads to a position of the list that the entries before it have left. -/
def Entries.Address (c : Context) (name : String) (element : Descriptor) (fixed : Bool)
    (items : List Datum) (entries : Entries) (k : Nat) : Prop :=
  ∃ front key node back before itemKey, entries = front ++ (key, node) :: back ∧
    patchKeys c name element fixed items front = .ok before ∧
    ItemKey.parse? key = some itemKey ∧ itemKey.Addresses c before node.position k

section
variable {c : Context} {name : String} {element : Descriptor} {fixed : Bool}
  {items next : List Datum}

theorem patchKeys_keeps {entries : Entries}
    (success : patchKeys c name element fixed items entries = .ok next) :
    Keeps (fun k => ¬ entries.Address c name element fixed items k) items next := by
  induction entries generalizing items with
  | nil =>
      unfold patchKeys at success
      cases success
      exact .refl _ _
  | cons entry rest ih =>
      obtain ⟨key, node⟩ := entry
      unfold patchKeys at success
      obtain ⟨middle, patched, success⟩ := of_bind_ok success
      obtain ⟨itemKey, parsed, first⟩ := patchItem_keeps patched
      have here (k : Nat) (addresses : itemKey.Addresses c items node.position k) :
          Entries.Address c name element fixed items ((key, node) :: rest) k :=
        ⟨[], key, node, rest, items, itemKey, rfl, by rw [patchKeys], parsed, addresses⟩
      have behind (k : Nat) (later : Entries.Address c name element fixed middle rest k) :
          Entries.Address c name element fixed items ((key, node) :: rest) k := by
        obtain ⟨front, other, last, back, before, otherKey, rfl, reached, read, there⟩ := later
        refine ⟨(key, node) :: front, other, last, back, before, otherKey, rfl, ?_, read, there⟩
        unfold patchKeys
        dsimp only
        rw [patched, ok_bind, reached]
      exact (first.mono fun k => mt (here k)).trans ((ih success).mono fun k => mt (behind k))

/-- A sequence patches the elements that it reaches, each from what it was, or makes new ones. -/
theorem of_patchItems_ok {nodes : List Node}
    (success : patchItems c name element items nodes = .ok next) :
    next.length = max nodes.length items.length ∧
      (∀ (k : Nat) (node : Node), nodes[k]? = some node → ∃ x, next[k]? = some x ∧
        patchDatum c .element name element (items[k]?.getD (freshElement element)) node = .ok x) ∧
      ∀ k : Nat, nodes.length ≤ k → next[k]? = items[k]? := by
  induction nodes generalizing items next with
  | nil =>
      unfold patchItems at success
      cases success
      refine ⟨(Nat.zero_max _).symm, fun _ _ listed => ?_, fun _ _ => rfl⟩
      cases listed
  | cons node rest ih =>
      unfold patchItems at success
      obtain ⟨first, head, success⟩ := of_bind_ok success
      obtain ⟨others, tail, success⟩ := of_bind_ok success
      cases success
      obtain ⟨length, each, beyond⟩ := ih tail
      refine ⟨?_, fun k given listed => ?_, fun k past => ?_⟩
      · rw [List.length_cons, length, List.length_tail, List.length_cons]
        omega
      · cases k with
        | zero =>
            cases listed
            rw [List.headD_eq_head?_getD, List.head?_eq_getElem?] at head
            exact ⟨first, rfl, head⟩
        | succ k =>
            have there := each k given listed
            rwa [List.getElem?_tail] at there
      · cases k with
        | zero => exact absurd past (Nat.not_succ_le_zero _)
        | succ k =>
            have same := beyond k (Nat.le_of_succ_le_succ past)
            rwa [List.getElem?_tail] at same

theorem of_patchItems_error {nodes : List Node} {e : PatchError}
    (failed : patchItems c name element items nodes = .error e) :
    ∃ (k : Nat) (node : Node), nodes[k]? = some node ∧
      patchDatum c .element name element (items[k]?.getD (freshElement element)) node =
        .error e := by
  induction nodes generalizing items with
  | nil =>
      unfold patchItems at failed
      cases failed
  | cons node rest ih =>
      unfold patchItems at failed
      rw [List.headD_eq_head?_getD, List.head?_eq_getElem?] at failed
      rcases of_bind_error failed with head | ⟨first, -, failed⟩
      · exact ⟨0, node, rfl, head⟩
      · rcases of_bind_error failed with tail | ⟨others, -, failed⟩
        · obtain ⟨k, given, listed, fails⟩ := ih tail
          rw [List.getElem?_tail] at fails
          exact ⟨k + 1, given, listed, fails⟩
        · cases failed

end

/-- Entries leave the elements of a list at their places, and change only those that one of them
leads to. A sequence patches a list at the indexes from zero on, one after the other, and changes
nothing behind its own length. It fails only if one of its nodes fails on its element. -/
theorem patchDatum_list_keeps (c : Context) (place : Place) (name : String) (element : Descriptor)
    (fixed : Bool) (current : Datum) :
    let patched := patchDatum c place name (.list element fixed) current
    let items := itemsToPatch current
    (∀ entries position next, patched (.mapping entries position) = .ok next →
      ∃ after, next = .list after ∧
        Keeps (fun k => ¬ Entries.Address c name element fixed items entries k) items after) ∧
    ∀ (nodes : List Node) (position : Position),
      patched (.sequence nodes position) =
        (patchPlaced c name element fixed items (placed (.sequence nodes position))).map .list ∧
      (∀ next, patched (.sequence nodes position) = .ok next →
        ∃ after, next = .list after ∧ after.length = max nodes.length items.length ∧
          (∀ (k : Nat) (node : Node), nodes[k]? = some node → ∃ x, after[k]? = some x ∧
            patchDatum c .element name element (items[k]?.getD (freshElement element)) node =
              .ok x) ∧
          ∀ k : Nat, nodes.length ≤ k → after[k]? = items[k]?) ∧
      ∀ e, patched (.sequence nodes position) = .error e →
        ∃ (k : Nat) (node : Node), nodes[k]? = some node ∧
          patchDatum c .element name element (items[k]?.getD (freshElement element)) node =
            .error e := by
  intro patched items
  refine ⟨fun entries position next success => ?_, fun nodes position =>
    ⟨?_, fun next success => ?_, fun e failed => ?_⟩⟩
  · unfold patched patchDatum at success
    obtain ⟨after, made, rfl⟩ := of_map_ok success
    exact ⟨after, rfl, patchKeys_keeps made⟩
  · unfold patched
    rw [patchDatum, patchItems_eq items nodes position]
  · unfold patched patchDatum at success
    obtain ⟨after, made, rfl⟩ := of_map_ok success
    exact ⟨after, rfl, of_patchItems_ok made⟩
  · unfold patched patchDatum at failed
    exact of_patchItems_error (of_map_error failed)

def soundings : Datum := .list [.int 1, .int 5, .int 10]

def depth : Descriptor := .scalar (.integer 32 true)

/-- One node more than there are elements. -/
def castings : List Node := ["2", "3", "item + 1", "4"].map (.scalar · .unknown)

/-- A formula that is true on the last two elements, a further element, and an index. -/
def survey : Entries :=
  [("(item > 3)", .scalar "item * 2" .unknown), ("$add", .scalar "7" .unknown),
    ("$2", .scalar "0" .unknown)]

deriving instance DecidableEq for ItemKey

theorem survey_spares :
    ¬ survey.Address ⟨.initial, .empty⟩ "Soundings" depth false (itemsToPatch soundings) 0 := by
  rintro ⟨front, key, node, back, before, itemKey, split, reached, parsed, addresses⟩
  unfold survey at split
  match front with
  | [] =>
      cases split
      cases reached
      have form : ItemKey.parse? "(item > 3)" = some (.choice "(item > 3)") := by decide +kernel
      cases form.symm.trans parsed
      obtain _ | ⟨there, holds⟩ := addresses
      cases there
      have shallow : ((Context.mk .initial .empty).evaluateBool [("item", .ofDatum (.int 1)),
        ("value", .count 0), ("collection", .tuple ((itemsToPatch soundings).map Value.ofDatum))]
          "(item > 3)" .unknown).toOption = some false := by decide +kernel
      cases (congrArg Except.toOption holds).symm.trans shallow
  | [_] =>
      cases split
      have form : ItemKey.parse? "$add" = some .addition := by decide +kernel
      cases form.symm.trans parsed
      cases addresses
  | [_, _] =>
      cases split
      have form : ItemKey.parse? "$2" = some (.index 2) := by decide +kernel
      cases form.symm.trans parsed
      cases addresses
  | _ :: _ :: _ :: front =>
      injection split with _ split
      injection split with _ split
      injection split with _ split
      cases front <;> cases split

theorem patchDatum_list_keeps_soundings :
    let patched := patchDatum ⟨.initial, .empty⟩ .element "Soundings" (.list depth false) soundings
    (∃ after, patched (.mapping survey .unknown) = .ok (.list after) ∧ 3 ≤ after.length ∧
      after[0]? = some (.int 1)) ∧
    (∃ after, patched (.sequence castings .unknown) = .ok (.list after) ∧ after.length = 4) ∧
    ∃ e, patched (.sequence [.scalar "deep" .unknown] .unknown) = .error e ∧
      patchDatum ⟨.initial, .empty⟩ .element "Soundings" depth (.int 1)
        (.scalar "deep" .unknown) = .error e := by
  intro patched
  obtain ⟨keeps, sequences⟩ := patchDatum_list_keeps ⟨.initial, .empty⟩ .element "Soundings" depth
    false soundings
  have surveyed : (patched (.mapping survey .unknown)).isOk := by decide +kernel
  have measured : (patched (.sequence castings .unknown)).isOk := by decide +kernel
  refine ⟨?_, ?_, ?_⟩
  · obtain ⟨next, success⟩ := of_isOk surveyed
    obtain ⟨after, rfl, length, kept⟩ := keeps _ _ _ success
    exact ⟨after, success, length, kept 0 (Nat.zero_lt_succ _) survey_spares⟩
  · obtain ⟨next, success⟩ := of_isOk measured
    obtain ⟨after, rfl, length, -⟩ := (sequences _ _).2.1 _ success
    exact ⟨after, success, length⟩
  · cases made : patched (.sequence [.scalar "deep" .unknown] .unknown) with
    | ok next =>
        have failed : (patched (.sequence [.scalar "deep" .unknown] .unknown)).isOk = false := by
          decide +kernel
        rw [made] at failed
        cases failed
    | error e =>
        obtain ⟨k, node, listed, failed⟩ := (sequences _ _).2.2 e made
        cases k with
        | zero =>
            cases listed
            exact ⟨e, rfl, failed⟩
        | succ k => cases listed

end Emend.Patch
