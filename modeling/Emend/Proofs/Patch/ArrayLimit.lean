import Emend.Proofs.Patch.Placewise

/-!
How far the indexes in the keys of a mapping let a fixed array grow. The limit for arrays holds only
where a gap is filled. An index right behind the last element leaves no gap, and so makes an array
longer by one whatever its length.
-/

set_option autoImplicit false

namespace Emend.Patch

def Entries.areIndexes (entries : Entries) : Bool :=
  entries.all fun entry =>
    match ItemKey.parse? entry.1 with
    | some (.index _) => true
    | _ => false

section
variable {c : Context} {name : String} {element : Descriptor} {fixed : Bool}

theorem patchKeys_indexes {entries : Entries} (indexes : entries.areIndexes) (items : List Datum)
    (position : Position) :
    patchKeys c name element fixed items entries =
      patchPlaced c name element fixed items (placed (.mapping entries position)) := by
  induction entries generalizing items with
  | nil =>
      unfold patchKeys
      rfl
  | cons entry rest ih =>
      obtain ⟨key, node⟩ := entry
      unfold Entries.areIndexes at indexes
      rw [List.all_cons, Bool.and_eq_true] at indexes
      obtain ⟨one, others⟩ := indexes
      dsimp only at one
      split at one
      · rename_i i form
        unfold patchKeys patchItem
        rw [placed_index form, patchPlaced_cons, form]
        exact congrArg _ (funext (ih others))
      · cases one

/-- Where a list can be patched, it is not left with a gap, or the index is below the limit. -/
theorem lt_or_le_of_patchAt_ok {patch : Datum → Except PatchError Datum} {items next : List Datum}
    {i : Nat} {position : Position}
    (success : patchAt c element fixed name patch items i position = .ok next) :
    i < c.settings.arrayLimit ∨ i ≤ items.length := by
  unfold patchAt at success
  obtain ⟨filled, grown, -⟩ := of_bind_ok success
  unfold fillTo at grown
  split at grown
  · rename_i within
    exact .inr within
  · split at grown
    · cases grown
    · split at grown
      · cases grown
      · rename_i below
        exact .inl (Nat.lt_of_not_le below)

theorem of_patchPlaced_append_ok {items next : List Datum} {front back : List (Nat × Node)}
    {i : Nat} {node : Node}
    (success : patchPlaced c name element fixed items (front ++ (i, node) :: back) = .ok next) :
    ∃ before, patchPlaced c name element fixed items front = .ok before ∧
      (i < c.settings.arrayLimit ∨ i ≤ before.length) := by
  unfold patchPlaced at success ⊢
  rw [List.foldlM_append] at success
  obtain ⟨before, reached, success⟩ := of_bind_ok success
  rw [List.foldlM_cons] at success
  obtain ⟨_, patched, -⟩ := of_bind_ok success
  exact ⟨before, reached, lt_or_le_of_patchAt_ok patched⟩

theorem reach_le {nodes : List (Nat × Node)} {limit : Nat} :
    reach nodes ≤ limit ↔ ∀ entry ∈ nodes, entry.1 < limit := by
  induction nodes with
  | nil => exact iff_of_true (Nat.zero_le _) fun _ member => nomatch member
  | cons entry rest ih =>
      rw [reach, Nat.max_le, ih, List.forall_mem_cons, Nat.succ_le_iff]

/-- Each index that is not below the limit adds at most one element past it. -/
theorem patchPlaced_length_le {items next : List Datum} {nodes : List (Nat × Node)}
    (success : patchPlaced c name element fixed items nodes = .ok next) :
    next.length ≤ max items.length c.settings.arrayLimit +
      nodes.countP (c.settings.arrayLimit ≤ ·.1) := by
  induction nodes generalizing items with
  | nil =>
      cases success
      exact Nat.le_max_left _ _
  | cons entry rest ih =>
      obtain ⟨i, node⟩ := entry
      rw [patchPlaced_cons] at success
      obtain ⟨middle, first, success⟩ := of_bind_ok success
      obtain ⟨_, -, length, -⟩ := of_patchAt_ok first
      have bounded := lt_or_le_of_patchAt_ok first
      have later := ih success
      rw [List.countP_cons]
      simp only [decide_eq_true_eq]
      split <;> omega

end

/-- A fixed array within the limit that is patched at indexes becomes as long as the greatest of
them asks for. It stays within the limit if and only if all of them are below it. Each of the others
names an element there is, or the position right behind the last, so the array passes the limit by
at most their number. -/
theorem patchDatum_array_length {c : Context} {name : String} {element : Descriptor}
    {current next : Datum} {entries : Entries} {place : Place} {position : Position}
    (indexes : entries.areIndexes)
    (within : (itemsToPatch current).length ≤ c.settings.arrayLimit)
    (success : patchDatum c place name (.list element true) current (.mapping entries position) =
      .ok next) :
    let limit := c.settings.arrayLimit
    let nodes := placed (.mapping entries position)
    ∃ after, next = .list after ∧
      after.length = max (itemsToPatch current).length (reach nodes) ∧
      (after.length ≤ limit ↔ ∀ entry ∈ nodes, entry.1 < limit) ∧
      after.length ≤ limit + nodes.countP (limit ≤ ·.1) ∧
      ∀ front i node back, nodes = front ++ (i, node) :: back → limit ≤ i →
        ∃ before, patchPlaced c name element true (itemsToPatch current) front = .ok before ∧
          i ≤ before.length := by
  intro limit nodes
  unfold patchDatum at success
  obtain ⟨after, made, rfl⟩ := of_map_ok success
  rw [patchKeys_indexes indexes _ position] at made
  have length := (patchPlaced_itemwise made).length
  refine ⟨after, rfl, length, ?_, ?_, fun front i node back split past => ?_⟩
  · rw [length, Nat.max_le, reach_le, and_iff_right within]
  · have bound := patchPlaced_length_le made
    rwa [Nat.max_eq_right within] at bound
  · change placed (.mapping entries position) = _ at split
    rw [split] at made
    obtain ⟨before, reached, bounded⟩ := of_patchPlaced_append_ok made
    exact ⟨before, reached, bounded.resolve_left (Nat.not_lt.mpr past)⟩

/-- Arrays may grow to four elements. -/
def cramped : Context := ⟨{ Settings.initial with arrayLimit := 4 }, .empty⟩

def berths : Descriptor := .list (.scalar (.integer 32 true)) true

/-- A gap up to the limit, and the two positions behind it. -/
def rafting : Entries :=
  [("3", .scalar "2" .unknown), ("$4", .scalar "5" .unknown), ("5", .scalar "6" .unknown)]

theorem patchDatum_array_length_rafting :
    rafting.areIndexes ∧ (itemsToPatch (.list [.int 1])).length ≤ cramped.settings.arrayLimit ∧
    ∃ after, patchDatum cramped .element "Berths" berths (.list [.int 1])
        (.mapping rafting .unknown) = .ok (.list after) ∧ after.length = 6 ∧
      ¬ ∀ entry ∈ placed (.mapping rafting .unknown), entry.1 < cramped.settings.arrayLimit := by
  have indexes : rafting.areIndexes := by decide +kernel
  have within : (itemsToPatch (.list [.int 1])).length ≤ cramped.settings.arrayLimit := by decide
  have moored : (patchDatum cramped .element "Berths" berths (.list [.int 1])
      (.mapping rafting .unknown)).isOk := by decide +kernel
  have asked : reach (placed (.mapping rafting .unknown)) = 6 := by decide +kernel
  obtain ⟨next, success⟩ := of_isOk moored
  obtain ⟨after, rfl, length, passed, -⟩ := patchDatum_array_length indexes within success
  rw [asked] at length
  refine ⟨indexes, within, after, success, length, fun below => ?_⟩
  have short := passed.mpr below
  rw [length] at short
  exact absurd short (by decide)

/-- An array that is as long as arrays may grow gets one element more. -/
theorem patchDatum_array_overgrown :
    let full : List Datum := [.int 1, .int 2, .int 3, .int 4]
    let entries : Entries := [("4", .scalar "5" .unknown)]
    entries.areIndexes ∧ full.length ≤ cramped.settings.arrayLimit ∧
    ∃ after, patchDatum cramped .element "Berths" berths (.list full) (.mapping entries .unknown) =
        .ok (.list after) ∧
      ¬ after.length ≤ cramped.settings.arrayLimit := by
  intro full entries
  have grown : (patchDatum cramped .element "Berths" berths (.list full)
      (.mapping entries .unknown)).toOption.map (fun d => (itemsToPatch d).length) = some 5 := by
    decide +kernel
  obtain ⟨next, success, length⟩ := of_toOption_map grown
  have patched := success
  unfold patchDatum at patched
  obtain ⟨after, -, rfl⟩ := of_map_ok patched
  refine ⟨by decide +kernel, by decide, after, success, ?_⟩
  change after.length = 5 at length
  rw [length]
  decide

end Emend.Patch
