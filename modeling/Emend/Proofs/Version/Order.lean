import Emend.Proofs.Version.Reading

/-!
The order of versions. It is a total preorder whose ties are the versions that count as equal, it does
not see zeros behind the numbers, and a version with a tag is below the version without one.
-/

set_option autoImplicit false

namespace Emend.Version

/-- What a part that is no number is compared by. -/
def spelled (part : List Char) : String :=
  match number? part with
  | some _ => ""
  | none => String.ofList part

/-- Numbers come first, by value; then texts, by their characters. -/
def partOrder : List Char → List Char → Ordering :=
  compareLex (compareOn fun part => (number? part).isNone) <|
    compareLex (compareOn fun part => (number? part).getD 0) (compareOn spelled)

theorem compareParts_eq : compareParts = partOrder := by
  funext a b
  unfold compareParts
  simp only [partOrder, compareLex, compareOn, spelled]
  cases number? a <;> cases number? b
  · simp
  · rfl
  · rfl
  · simp

instance : Std.TransCmp compareParts := by
  rw [compareParts_eq]
  unfold partOrder
  infer_instance

theorem compareTags_eq : compareTags = List.compareLex compareParts := by
  funext as bs
  induction as, bs using compareTags.induct with
  | case1 => rfl
  | case2 => rfl
  | case3 => rfl
  | case4 a as b bs ih => rw [compareTags, ih, List.compareLex_cons_cons]

instance : Std.TransCmp compareTags := by
  rw [compareTags_eq]
  infer_instance

def tagParts : Option String → List (List Char)
  | none => []
  | some tag => Text.pieces (· == '.') tag.toList

theorem comparePreRelease_eq : comparePreRelease =
    compareLex (compareOn Option.isNone) (Ordering.byKey tagParts compareTags) := by
  funext a b
  cases a <;> cases b <;> rfl

instance : Std.TransCmp comparePreRelease := by
  rw [comparePreRelease_eq]
  infer_instance

theorem cmp_eq : cmp =
    compareLex (compareOn (component · 0)) (compareLex (compareOn (component · 1))
      (compareLex (compareOn (component · 2)) (compareLex (compareOn (component · 3))
        (Ordering.byKey preRelease comparePreRelease)))) := rfl

instance : Std.TransCmp cmp := by
  rw [cmp_eq]
  infer_instance

theorem same_iff {a b : Version} : a.same b ↔ a.cmp b = .eq := beq_iff_eq

theorem cmp_of_component {a b : Version} (numbers : ∀ i, a.component i = b.component i) :
    a.cmp b = comparePreRelease a.preRelease b.preRelease := by
  unfold cmp
  simp only [numbers, Std.ReflCmp.compare_self, Ordering.eq_then]

/-- The left version has a tag, the right one has none, and their numbers agree. -/
structure IsPreReleaseOf (p v : Version) : Prop where
  tagged : p.preRelease.isSome
  untagged : v.preRelease = none
  numbers : ∀ i, p.component i = v.component i

theorem IsPreReleaseOf.cmp_eq_lt {p v : Version} (earlier : p.IsPreReleaseOf v) : p.cmp v = .lt := by
  obtain ⟨tag, tagged⟩ := Option.isSome_iff_exists.mp earlier.tagged
  rw [cmp_of_component earlier.numbers, tagged, earlier.untagged]
  rfl

def padded (v : Version) (zeros : Nat) : Version :=
  ⟨v.numbers ++ List.replicate zeros 0, v.preRelease⟩

theorem component_padded (v : Version) (zeros i : Nat) :
    (v.padded zeros).component i = v.component i := by
  unfold component padded
  rw [List.getD_eq_getElem?_getD, List.getD_eq_getElem?_getD, List.getElem?_append]
  split
  · rfl
  · rename_i beyond
    rw [List.getElem?_eq_none (not_lt.mp beyond), List.getElem?_replicate]
    split <;> rfl

theorem cmp_padded (v : Version) (zeros : Nat) : (v.padded zeros).cmp v = .eq := by
  rw [cmp_of_component (component_padded v zeros)]
  exact Std.ReflCmp.compare_self

def zeroText (zeros : Nat) : List Char := (List.replicate zeros ['.', '0']).flatten

theorem Numerals.padded {parts : List (List Char)} {numbers : List Nat}
    (numerals : Numerals parts numbers) {zeros : Nat} (short : numbers.length + zeros ≤ 4) :
    Numerals (parts ++ List.replicate zeros ['0']) (numbers ++ List.replicate zeros 0) where
  read := by
    refine List.rel_append numerals.read ?_
    induction zeros with
    | zero => exact .nil
    | succ zeros ih => exact .cons rfl (ih (by omega))
  filled := List.append_ne_nil_of_left_ne_nil numerals.filled _
  short := by
    rw [List.length_append, List.length_replicate, numerals.read.length_eq]
    exact short

/-- There is a place in the text of a version for more zeros. -/
theorem parse?_padded {text : String} {v : Version} (read : parse? text = some v) {zeros : Nat}
    (short : v.numbers.length + zeros ≤ 4) :
    ∃ front back, text.toList = front ++ back ∧
      parse? (String.ofList (front ++ zeroText zeros ++ back)) = some (v.padded zeros) := by
  obtain ⟨front, parts, back, opening, numerals, whole, tag, filled⟩ := of_parse? read
  refine ⟨front ++ joined parts, back, whole, ?_⟩
  have longer := parse?_numerals opening (numerals.padded short) filled tag
  rwa [joined_append numerals.filled, List.flatMap_replicate, ← List.append_assoc] at longer

/-- Comparison is a total preorder of the versions, and its ties are the versions that count as equal. A
version with more zeros has the place of the version itself and is written with these zeros behind its
numbers; a pre-release is below its version. -/
theorem cmp_preorder (a b c : Version) :
    b.cmp a = (a.cmp b).swap ∧
    ((a.cmp b).isLE → (b.cmp c).isLE → (a.cmp c).isLE) ∧
    (a.same b ↔ a.cmp b = .eq) ∧
    (∀ zeros, (a.padded zeros).cmp b = a.cmp b ∧ b.cmp (a.padded zeros) = b.cmp a ∧
      ∀ text, Version.parse text = .ok a → a.numbers.length + zeros ≤ 4 →
        ∃ front back, text.toList = front ++ back ∧
          Version.parse (String.ofList (front ++ zeroText zeros ++ back)) = .ok (a.padded zeros)) ∧
    (b.IsPreReleaseOf a → b.cmp a = .lt) := by
  refine ⟨Std.OrientedCmp.eq_swap, Std.TransCmp.isLE_trans, same_iff, fun zeros => ⟨?_, ?_, ?_⟩,
    IsPreReleaseOf.cmp_eq_lt⟩
  · exact Std.TransCmp.congr_left (cmp_padded a zeros)
  · exact Std.TransCmp.congr_right (cmp_padded a zeros)
  · intro text read short
    obtain ⟨front, back, whole, longer⟩ := parse?_padded (parse_eq_ok_iff.mp read) short
    exact ⟨front, back, whole, parse_eq_ok_iff.mpr longer⟩

/-- Two candidates, one of them with a word where the other one has a number, and their release. -/
theorem cmp_preorder_candidates :
    Version.parse " v1.2-rc.9+b3" = .ok ⟨[1, 2], some "rc.9"⟩ ∧
    (∃ front back, " v1.2-rc.9+b3".toList = front ++ back ∧
      Version.parse (String.ofList (front ++ zeroText 2 ++ back)) = .ok ⟨[1, 2, 0, 0], some "rc.9"⟩) ∧
    (cmp ⟨[1, 2], some "rc.9"⟩ ⟨[1, 2, 0], some "rc.x"⟩).isLE ∧
    (cmp ⟨[1, 2, 0], some "rc.x"⟩ ⟨[1, 2], none⟩).isLE ∧
    (cmp ⟨[1, 2], some "rc.9"⟩ ⟨[1, 2], none⟩).isLE ∧
    IsPreReleaseOf ⟨[1, 2, 0], some "rc.x"⟩ ⟨[1, 2], none⟩ ∧
    cmp ⟨[1, 2, 0], some "rc.x"⟩ ⟨[1, 2], none⟩ = .lt := by
  have read : Version.parse " v1.2-rc.9+b3" = .ok ⟨[1, 2], some "rc.9"⟩ := by decide +kernel
  have below : (cmp ⟨[1, 2], some "rc.9"⟩ ⟨[1, 2, 0], some "rc.x"⟩).isLE := by decide +kernel
  have above : (cmp ⟨[1, 2, 0], some "rc.x"⟩ ⟨[1, 2], none⟩).isLE := by decide +kernel
  have earlier : IsPreReleaseOf ⟨[1, 2, 0], some "rc.x"⟩ ⟨[1, 2], none⟩ :=
    ⟨rfl, rfl, component_padded ⟨[1, 2], none⟩ 1⟩
  have order := cmp_preorder ⟨[1, 2], some "rc.9"⟩ ⟨[1, 2, 0], some "rc.x"⟩ ⟨[1, 2], none⟩
  have release := cmp_preorder ⟨[1, 2], none⟩ ⟨[1, 2, 0], some "rc.x"⟩ ⟨[1, 2], none⟩
  obtain ⟨-, transitive, -, zeros, -⟩ := order
  exact ⟨read, (zeros 2).2.2 _ read (by decide), below, above, transitive below above, earlier,
    release.2.2.2.2 earlier⟩

end Emend.Version
