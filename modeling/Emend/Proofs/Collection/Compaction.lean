import Emend.Proofs.Collection.Distinct
import Emend.Proofs.Collection.Sorting
import Mathlib.Data.List.Dedup

/-!
What a rebuild makes of an indexed collection in any state: the same records without empty slots, in
the order of their identities, and a count of those that the index could not take. Another rebuild
makes the same again.
-/

set_option autoImplicit false

namespace Emend

namespace IdentityIndex

def keys (index : IdentityIndex) : List IdentityKey := index.map (·.1)

theorem mem_keys_iff {index : IdentityIndex} {key : IdentityKey} :
    key ∈ index.keys ↔ (index.get? key).isSome := by
  induction index with
  | nil => simp [keys, get?]
  | cons entry rest ih =>
      unfold keys get? at ih ⊢
      rw [List.map_cons, List.mem_cons, List.lookup_cons, ih]
      by_cases same : key = entry.1
      · simp [same]
      · have differ : (key == entry.1) = false := by simpa using same
        simp [same, differ]

theorem keys_insert_of_new {index : IdentityIndex} {key : IdentityKey} (slot : Nat)
    (fresh : key ∉ index.keys) : (index.insert key slot).keys = key :: index.keys := by
  have kept : index.erase key = index := by
    refine List.filter_eq_self.mpr fun entry member => bne_iff_ne.mpr ?_
    rintro rfl
    exact fresh (List.mem_map_of_mem member)
  unfold insert
  rw [kept]
  rfl

end IdentityIndex

namespace Collection

def keys (c : Collection) : List IdentityKey := c.records.filterMap c.keyOf?

/-- How many records have no key. -/
def missing (c : Collection) : Nat := c.records.countP fun r => (c.keyOf? r).isNone

/-- How many records have a key beyond the first one with it. -/
def duplicates (c : Collection) : Nat := c.keys.length - c.keys.dedup.length

theorem indexFrom_congr {c d : Collection} (same : d.identity = c.identity) (slot : Nat)
    (done : Indexing) (records : List Record) :
    d.indexFrom slot done records = c.indexFrom slot done records := by
  have keyOf? : d.keyOf? = c.keyOf? := by
    funext r
    unfold Collection.keyOf?
    rw [identityOf?_congr same]
  induction records generalizing slot done with
  | nil => rfl
  | cons r rest ih =>
      unfold indexFrom
      rw [keyOf?, ih]

theorem indexFrom_missing (c : Collection) (slot : Nat) (done : Indexing) (records : List Record) :
    (c.indexFrom slot done records).missing =
      done.missing + records.countP fun r => (c.keyOf? r).isNone := by
  induction records generalizing slot done with
  | nil => rfl
  | cons r rest ih =>
      unfold indexFrom
      rw [ih, List.countP_cons]
      cases c.keyOf? r with
      | none => simp only [Option.isNone_none, ↓reduceIte]; omega
      | some key =>
          dsimp only
          split <;> simp

theorem indexFrom_keys (c : Collection) (slot : Nat) (done : Indexing) (records : List Record)
    (distinct : done.index.keys.Nodup) :
    (c.indexFrom slot done records).index.keys.Nodup ∧
      (∀ key, key ∈ (c.indexFrom slot done records).index.keys ↔
        key ∈ done.index.keys ∨ key ∈ records.filterMap c.keyOf?) ∧
      (c.indexFrom slot done records).duplicates +
          (c.indexFrom slot done records).index.keys.length =
        done.duplicates + done.index.keys.length + (records.filterMap c.keyOf?).length := by
  induction records generalizing slot done with
  | nil => exact ⟨distinct, fun key => by simp [indexFrom], rfl⟩
  | cons r rest ih =>
      unfold indexFrom
      cases keyed : c.keyOf? r with
      | none =>
          rw [List.filterMap_cons_none keyed]
          exact ih _ _ distinct
      | some key =>
          rw [List.filterMap_cons_some keyed]
          dsimp only
          by_cases taken : (done.index.get? key).isSome
          · rw [if_pos taken]
            obtain ⟨nodup, members, total⟩ :=
              ih (slot + 1) ⟨done.index, done.duplicates + 1, done.missing⟩ distinct
            refine ⟨nodup, fun other => ?_, ?_⟩
            · rw [members, List.mem_cons]
              constructor
              · rintro (old | new)
                · exact .inl old
                · exact .inr (.inr new)
              · rintro (old | rfl | new)
                · exact .inl old
                · exact .inl (IdentityIndex.mem_keys_iff.mpr taken)
                · exact .inr new
            · rw [total, List.length_cons]
              dsimp only
              omega
          · rw [if_neg taken]
            have fresh : key ∉ done.index.keys := fun old =>
              taken (IdentityIndex.mem_keys_iff.mp old)
            have entered := IdentityIndex.keys_insert_of_new slot fresh
            obtain ⟨nodup, members, total⟩ :=
              ih (slot + 1) ⟨done.index.insert key slot, done.duplicates, done.missing⟩
                (by rw [entered]; exact List.nodup_cons.mpr ⟨fresh, distinct⟩)
            rw [entered] at members total
            refine ⟨nodup, fun other => ?_, ?_⟩
            · rw [members, List.mem_cons, List.mem_cons, or_comm (a := other = key), or_assoc]
            · rw [total, List.length_cons, List.length_cons]
              dsimp only
              omega

section
variable (c : Collection)

theorem sorted_missing : (c.indexFrom 0 ⟨[], 0, 0⟩ c.sorted).missing = c.missing := by
  rw [indexFrom_missing, Nat.zero_add]
  exact (sorted_perm c).countP_eq _

theorem sorted_duplicates : (c.indexFrom 0 ⟨[], 0, 0⟩ c.sorted).duplicates = c.duplicates := by
  obtain ⟨distinct, members, total⟩ := c.indexFrom_keys 0 ⟨[], 0, 0⟩ c.sorted .nil
  have keyed : (c.sorted.filterMap c.keyOf?).Perm c.keys := (sorted_perm c).filterMap _
  have indexed : (c.indexFrom 0 ⟨[], 0, 0⟩ c.sorted).index.keys.Perm c.keys.dedup := by
    refine (List.perm_ext_iff_of_nodup distinct (List.nodup_dedup _)).mpr fun key => ?_
    rw [members, List.mem_dedup, keyed.mem_iff]
    exact or_iff_right List.not_mem_nil
  rw [indexed.length_eq, keyed.length_eq] at total
  unfold duplicates
  simp only [IdentityIndex.keys, List.map_nil, List.length_nil] at total
  omega

theorem missing_eq_zero_iff : c.missing = 0 ↔ ∀ r ∈ c.records, (c.keyOf? r).isSome := by
  unfold missing
  simp [List.countP_eq_zero, Option.isSome_iff_ne_none]

theorem duplicates_eq_zero_iff : c.duplicates = 0 ↔ c.keys.Nodup := by
  have short := (List.dedup_sublist c.keys).length_le
  rw [duplicates, Nat.sub_eq_zero_iff_le, ← List.dedup_eq_self]
  constructor
  · exact fun long => (List.dedup_sublist c.keys).eq_of_length_le long
  · exact fun same => by rw [same]

theorem rebuild_result (indexed : c.isIndexed) : c.rebuild.1 =
    if c.duplicates = 0 ∧ c.missing = 0 then .ok ()
    else .error (.inconsistent c.duplicates c.missing) := by
  rw [← sorted_missing, ← sorted_duplicates]
  obtain ⟨identity, slots⟩ := c
  cases slots with
  | ordered records => cases indexed
  | indexed slots index => rfl

end

section
variable {c : Collection} (proper : ∀ r ∈ c.records, IsProper (c.number? r))
include proper

theorem sorted_proper : ∀ r ∈ c.sorted, IsProper (c.number? r) := fun r member =>
  proper r ((sorted_perm c).mem_iff.mp member)

theorem sorted_ranks : c.sorted.Pairwise fun a b => rank (c.number? a) ≤ rank (c.number? b) :=
  sortRecords_sorted fun a first b second => identityBefore_eq (proper a first) (proper b second)

theorem sorted_inOrder : c.sorted.Pairwise fun a b => InOrder (c.number? a) (c.number? b) := by
  refine (sorted_ranks proper).imp_of_mem fun {a b} first second reached => ?_
  have left := sorted_proper proper a first
  have right := sorted_proper proper b second
  exact (inOrder_iff_rank left right).mpr reached

theorem sorted_filter {r : Record} (member : r ∈ c.records) :
    (c.sorted.filter fun s => sameRank (c.number? r) (c.number? s)) =
      c.records.filter fun s => sameRank (c.number? r) (c.number? s) :=
  sortRecords_filter _ (fun _ _ => identityBefore_of_sameRank (proper r member)) c.records

theorem rebuild_sorted (indexed : c.isIndexed) : c.rebuild.2.sorted = c.sorted := by
  have ordered : c.sorted.Pairwise fun a b =>
      identityBefore (c.identityOf? b) (c.identityOf? a) = false := by
    refine (sorted_ranks proper).imp_of_mem fun {a b} first second reached => ?_
    have left := sorted_proper proper a first
    have right := sorted_proper proper b second
    rw [identityBefore_eq right left, decide_eq_false_iff_not]
    exact not_lt.mpr reached
  rw [sorted, rebuild_records indexed, identityOf?_congr (rebuild_identity c)]
  exact sortRecords_of_sorted _ ordered

theorem rebuild_again (indexed : c.isIndexed) : c.rebuild.2.rebuild = (c.rebuild.1, c.rebuild.2) := by
  have identity := rebuild_identity c
  have still := (rebuild_isIndexed c).trans indexed
  have sorted := rebuild_sorted proper indexed
  refine Prod.ext ?_ ?_
  · rw [rebuild_result _ still, rebuild_result c indexed, ← sorted_duplicates, ← sorted_missing,
      sorted, indexFrom_congr identity, sorted_duplicates, sorted_missing]
  · rw [rebuild_eq still, sorted, indexFrom_congr identity, identity, ← rebuild_eq indexed]

/-- Records numbered from zero stand at their numbers. The integers up to `2 ^ 53` are those that
doubles tell apart. -/
theorem sorted_numbered {n : Nat} (small : n ≤ 2 ^ 53)
    (numbered : (c.records.map c.identityOf?).Perm
      ((List.range n).map fun i : Nat => some (.int i))) :
    c.sorted.map c.identityOf? = (List.range n).map fun i : Nat => some (.int i) := by
  have above {i j : Nat} (less : i < j) (inside : j < n) :
      rank (some (Float.ofNat i)) < rank (some (Float.ofNat j)) :=
    WithTop.coe_lt_coe.mpr (Number.place_ofNat_lt less (Nat.lt_of_lt_of_le inside small))
  have same := ((sorted_perm c).map c.identityOf?).trans numbered
  have apart : ∀ d e, d ∈ c.sorted.map c.identityOf? →
      e ∈ (List.range n).map (fun i : Nat => some (Datum.int i)) →
      rank (d.bind Datum.toFloat?) ≤ rank (e.bind Datum.toFloat?) →
      rank (e.bind Datum.toFloat?) ≤ rank (d.bind Datum.toFloat?) → d = e := by
    intro d e first second up down
    obtain ⟨i, left, rfl⟩ := List.mem_map.mp (same.mem_iff.mp first)
    obtain ⟨j, right, rfl⟩ := List.mem_map.mp second
    rw [List.mem_range] at left right
    rcases Nat.lt_trichotomy i j with less | rfl | greater
    · exact absurd down (not_le.mpr (above less right))
    · rfl
    · exact absurd up (not_le.mpr (above greater left))
  refine same.eq_of_pairwise apart (List.pairwise_map.mpr (sorted_ranks proper)) ?_
  refine List.pairwise_map.mpr (List.pairwise_lt_range.imp_of_mem ?_)
  intro i j _ inside less
  exact le_of_lt (above less (List.mem_range.mp inside))

end

/-- A rebuild succeeds if every record has a key and no two have the same. -/
theorem rebuild_ok_iff {c : Collection} (indexed : c.isIndexed) : c.rebuild.1 = .ok () ↔
    (∀ r ∈ c.records, (c.keyOf? r).isSome) ∧ c.keys.Nodup := by
  rw [rebuild_result c indexed, ← missing_eq_zero_iff, ← duplicates_eq_zero_iff]
  split
  · rename_i clean
    exact ⟨fun _ => clean.symm, fun _ => rfl⟩
  · rename_i unclean
    exact ⟨nofun, fun clean => absurd clean.symm unclean⟩

/-- What a rebuild makes of a collection. -/
structure Compacted (c : Collection) (result : Except CollectionError Unit) (after : Collection) :
    Prop where
  identity : after.identity = c.identity
  indexed : after.isIndexed
  /-- Every slot holds a record. -/
  full : after.cells = after.records.map some
  /-- No record is lost or new. -/
  kept : after.records.Perm c.records
  /-- Numbers come first, in their order. -/
  ordered : after.records.Pairwise fun a b => InOrder (c.number? a) (c.number? b)
  /-- Records of one rank stand as before. -/
  stable : ∀ r ∈ c.records,
    (after.records.filter fun s => sameRank (c.number? r) (c.number? s)) =
      c.records.filter fun s => sameRank (c.number? r) (c.number? s)
  ok_iff : result = .ok () ↔ (∀ r ∈ c.records, (c.keyOf? r).isSome) ∧ c.keys.Nodup
  counted : result ≠ .ok () → result = .error (.inconsistent c.duplicates c.missing)
  /-- Records numbered from zero stand in the slots of their numbers, as long as doubles tell the
  numbers apart. -/
  numbered : ∀ n ≤ 2 ^ 53,
    (c.records.map c.identityOf?).Perm ((List.range n).map fun i : Nat => some (.int i)) →
      ∀ i < n, (after.get? i).bind c.identityOf? = some (.int i)
  again : after.rebuild = (result, after)

/-- A rebuild makes the same of a collection in whatever state its slots and its index are. -/
theorem rebuild_compacted {c : Collection} (indexed : c.isIndexed)
    (proper : ∀ r ∈ c.records, IsProper (c.number? r)) :
    Compacted c c.rebuild.1 c.rebuild.2 where
  identity := rebuild_identity c
  indexed := (rebuild_isIndexed c).trans indexed
  full := by rw [rebuild_records indexed, rebuild_eq indexed]; rfl
  kept := rebuild_records_perm indexed
  ordered := by
    rw [rebuild_records indexed]
    exact sorted_inOrder proper
  stable := fun r member => by
    rw [rebuild_records indexed]
    exact sorted_filter proper member
  ok_iff := rebuild_ok_iff indexed
  counted := fun failed => by
    rw [rebuild_result c indexed] at failed ⊢
    exact if_neg fun clean => failed (if_pos clean)
  numbered := fun n small numbered i inside => by
    have placed := congrArg (·[i]?) (sorted_numbered proper small numbered)
    have slot : c.rebuild.2.get? i = c.sorted[i]? := by
      rw [rebuild_eq indexed, get?, cells, List.getElem?_map]
      cases c.sorted[i]? <;> rfl
    rw [slot]
    simp only [List.getElem?_map, List.getElem?_range inside, Option.map_some] at placed
    obtain ⟨r, found, identity⟩ := Option.map_eq_some_iff.mp placed
    rw [found]
    exact identity
  again := rebuild_again proper indexed

/-- Records with identities of all kinds, an empty slot, and an index of other records. -/
def moored : Collection :=
  let craft (name : String) (identity : List (String × Datum)) : Option Record :=
    some ⟨"Craft", identity ++ [("Name", .text name)]⟩
  ⟨some "Id", .indexed
    [craft "Skiff" [("Id", .int 2)], none, craft "Raft" [], craft "Punt" [("Id", .text "ten")],
      craft "Tug" [("Id", .float 0)], craft "Yawl" [("Id", .int 2)]]
    [(.int 7, 0)]⟩

theorem rebuild_compacted_moored : moored.isIndexed ∧
    (∀ r ∈ moored.records, IsProper (moored.number? r)) ∧
    Compacted moored moored.rebuild.1 moored.rebuild.2 ∧
    moored.rebuild.1 = .error (.inconsistent 1 1) := by
  have numbers : moored.records.all (fun r => (moored.number? r).all fun x => !x.isNaN) = true := by
    decide +kernel
  have proper : ∀ r ∈ moored.records, IsProper (moored.number? r) := fun r member x found => by
    have number := List.all_eq_true.mp numbers r member
    rw [found] at number
    simpa using number
  exact ⟨rfl, proper, rebuild_compacted rfl proper, by decide +kernel⟩

end Collection

end Emend
