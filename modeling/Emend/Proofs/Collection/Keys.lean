import Emend.Proofs.Collection.Compaction
import Emend.Proofs.Collection.Numbered
import Emend.Proofs.Number.ReadBack

/-!
Identities and their keys. Two identities with one key are found as each other, and only they, as long
as no number and no name among them has two forms: then the index of a rebuilt collection and the scan
of its records lead to the same slot.
-/

set_option autoImplicit false

namespace Emend

namespace Datum

/-- Whether an identity has a key that says what it is: NaN is equal to nothing, and the key of a whole
number beyond the stored integers is that of the nearest one. -/
def isPlain : Datum → Bool
  | int i => (storedInt? i).isSome
  | float x =>
    !x.isNaN && (!Number.isIntegral x || ((Number.roundInt? .towardZero x).bind storedInt?).isSome)
  | _ => true

/-- Whether the second identity, if it is a text, is read as a number other than `i`. Two texts are
never read. -/
def isUnlike (i : Int) : Datum → Datum → Bool
  | text _, text _ => true
  | _, text s => !(text s).toFloat?.any (· == Float.ofInt i)
  | _, _ => true

/-- Whether two identities differ in all forms or in none. Different integers differ as doubles, and
texts of one integer are one text. A text that is read as a number is written as that number is, and
the name of a variant is no other identity's text. -/
def isClear (x d : Datum) : Bool :=
  match x.toInt?, d.toInt? with
  | some i, some j =>
    match x, d with
    | text s, text t => i != j || s == t
    | _, _ => i == j || !(Float.ofInt i == Float.ofInt j)
  | some i, none => isUnlike i x d
  | none, some j => isUnlike j d x
  | none, none =>
    match x, d with
    | variant s, text t | text t, variant s => s != t
    | variant s, float y | float y, variant s => s != Number.toText y
    | text s, float y | float y, text s => s == Number.toText y || !(text s).toFloat?.any (· == y)
    | _, _ => true

theorem ofDatum?_of_toInt? {x : Datum} {i : Int} (counted : x.toInt? = some i) :
    IdentityKey.ofDatum? x = some (.int i) := by
  cases x with
  | int | float | text => simp [IdentityKey.ofDatum?, counted]
  | null | bool | variant | record | list => cases counted

theorem storedInt?_eq_some {i j : Int} :
    storedInt? i = some j ↔ i = j ∧ leastInt ≤ i ∧ i ≤ greatestInt := by
  unfold storedInt?
  rw [Option.ite_none_right_eq_some, Option.some_inj, and_comm]

theorem toFloat?_of_toInt? {x : Datum} {i : Int} (plain : x.isPlain) (counted : x.toInt? = some i) :
    (∃ y, x.toFloat? = some y ∧ y == Float.ofInt i) ∧ i.natAbs < 2 ^ 64 := by
  have short {k : Int} (stored : leastInt ≤ k ∧ k ≤ greatestInt) : k.natAbs < 2 ^ 64 := by
    unfold leastInt greatestInt at stored
    omega
  cases x with
  | null | bool | variant | record | list => cases counted
  | int k =>
      cases counted
      obtain ⟨-, stored⟩ := storedInt?_eq_some.mp (Option.some_get plain).symm
      exact ⟨⟨_, rfl, Number.ofInt_beq_self _⟩, short stored⟩
  | float y =>
      unfold toInt? at counted
      dsimp only at counted
      split at counted
      · rename_i whole
        obtain ⟨k, rounded, rfl⟩ := Option.map_eq_some_iff.mp counted
        simp only [isPlain, whole, rounded, Option.bind_some, Bool.not_true, Bool.false_or,
          Bool.and_eq_true] at plain
        obtain ⟨-, stored⟩ := storedInt?_eq_some.mp (Option.some_get plain.2).symm
        have kept : clamp k = k := by
          unfold clamp
          omega
        rw [kept]
        exact ⟨⟨y, rfl, Number.beq_ofInt_of_isIntegral whole rounded⟩, short stored⟩
      · cases counted
  | text s =>
      obtain ⟨k, read, stored⟩ := Option.bind_eq_some_iff.mp counted
      obtain ⟨rfl, bounds⟩ := storedInt?_eq_some.mp stored
      exact ⟨Number.ofText?_of_readInt? read, short bounds⟩

theorem isIntegral_of_toInt? {x : Datum} {i : Int} {y : Float} (plain : x.isPlain)
    (counted : x.toInt? = some i) (number : x.toFloat? = some y) : Number.isIntegral y := by
  obtain ⟨⟨z, found, equal⟩, short⟩ := toFloat?_of_toInt? plain counted
  cases number.symm.trans found
  rw [Number.isIntegral_congr equal]
  exact Number.isIntegral_ofInt short

theorem not_isIntegral_of_toInt? {y : Float} (plain : (float y).isPlain)
    (uncounted : (float y).toInt? = none) : Number.isIntegral y = false := by
  by_contra whole
  rw [Bool.not_eq_false] at whole
  simp only [isPlain, whole, Bool.not_true, Bool.false_or, Bool.and_eq_true] at plain
  unfold toInt? at uncounted
  dsimp only at uncounted
  rw [if_pos whole, Option.map_eq_none_iff] at uncounted
  rw [uncounted] at plain
  exact absurd plain.2 Bool.false_ne_true

theorem sameIdentity_of_numbers {x d : Datum} {y z : Float} (first : x.toFloat? = some y)
    (second : d.toFloat? = some z) (mixed : ∀ s t, x = text s → d ≠ text t) :
    x.sameIdentity d = (y == z) := by
  unfold sameIdentity
  split
  · rename_i s t
    exact absurd rfl (mixed s t rfl)
  · rw [first, second]

/-- An identity that is no number is only equal to one of its kind. -/
theorem sameIdentity_of_none {x d : Datum} (other : x.toFloat? = none ∨ d.toFloat? = none)
    (mixed : ∀ s t, x = text s → d ≠ text t) : x.sameIdentity d = same x d := by
  unfold sameIdentity
  split
  · rename_i s t
    exact absurd rfl (mixed s t rfl)
  · split
    · rename_i first second
      rcases other with none | none
      · rw [none] at first
        cases first
      · rw [none] at second
        cases second
    · rfl

theorem toInt?_congr {x d : Datum} (equal : same x d) : x.toInt? = d.toInt? := by
  cases x <;> cases d <;> simp only [same, Bool.false_eq_true, beq_iff_eq] at equal
  case int.int => rw [equal]
  case text.text => rw [equal]
  case float.float y z =>
    unfold toInt?
    simp only [Number.isIntegral_congr equal, Number.roundInt?_congr .towardZero equal]
  all_goals rfl

theorem sameIdentity_texts (s t : String) : (text s).sameIdentity (text t) = (s == t) := rfl

theorem beq_of_isUnlike {x d : Datum} {i : Int} {y z : Float} (plainX : x.isPlain)
    (plainD : d.isPlain) (unlike : isUnlike i x d) (counted : x.toInt? = some i)
    (uncounted : d.toInt? = none) (first : x.toFloat? = some y) (second : d.toFloat? = some z)
    (mixed : ∀ s t, x = text s → d ≠ text t) : (y == z) = false := by
  obtain ⟨⟨w, found, equal⟩, -⟩ := toFloat?_of_toInt? plainX counted
  cases first.symm.trans found
  cases d with
  | null | bool | variant | record | list => cases second
  | int k => cases uncounted
  | float z =>
      cases second
      have fraction := not_isIntegral_of_toInt? plainD uncounted
      by_contra same
      rw [Bool.not_eq_false] at same
      rw [← Number.isIntegral_congr same, isIntegral_of_toInt? plainX counted first] at fraction
      cases fraction
  | text t =>
      have differ : (z == Float.ofInt i) = false := by
        cases x with
        | text s => exact absurd rfl (mixed s t rfl)
        | null | bool | int | float | variant | record | list => simpa [isUnlike, second] using unlike
      by_contra same
      rw [Bool.not_eq_false] at same
      rw [← Number.beq_congr same (Number.ofInt_beq_self i), equal] at differ
      cases differ

theorem sameIdentity_of_isSome_ne {x d : Datum} (plainX : x.isPlain) (plainD : d.isPlain)
    (clear : x.isClear d) (differ : x.toInt?.isSome ≠ d.toInt?.isSome) :
    x.sameIdentity d = false := by
  by_cases texts : ∃ s t, x = text s ∧ d = text t
  · obtain ⟨s, t, rfl, rfl⟩ := texts
    rw [sameIdentity_texts, beq_eq_false_iff_ne]
    rintro rfl
    exact differ rfl
  · have mixed : ∀ s t, x = text s → d ≠ text t := fun s t first second =>
      texts ⟨s, t, first, second⟩
    have other : same x d = false := Bool.eq_false_iff.mpr fun equal =>
      differ (by rw [toInt?_congr equal])
    unfold isClear at clear
    cases first : x.toFloat? with
    | none => rw [sameIdentity_of_none (.inl first) mixed, other]
    | some y =>
        cases second : d.toFloat? with
        | none => rw [sameIdentity_of_none (.inr second) mixed, other]
        | some z =>
            rw [sameIdentity_of_numbers first second mixed]
            cases countX : x.toInt? with
            | none =>
                cases countD : d.toInt? with
                | none => exact absurd (by rw [countX, countD]) differ
                | some j =>
                    rw [countX, countD] at clear
                    rw [BEq.comm]
                    exact beq_of_isUnlike plainD plainX clear countD countX second first
                      fun s t left right => mixed t s right left
            | some i =>
                cases countD : d.toInt? with
                | none =>
                    rw [countX, countD] at clear
                    exact beq_of_isUnlike plainX plainD clear countX countD first second mixed
                | some j => exact absurd (by rw [countX, countD]; rfl) differ

theorem sameIdentity_iff_of_toInt? {x d : Datum} {i j : Int} (plainX : x.isPlain)
    (plainD : d.isPlain) (clear : x.isClear d) (first : x.toInt? = some i)
    (second : d.toInt? = some j) : x.sameIdentity d ↔ i = j := by
  unfold isClear at clear
  rw [first, second] at clear
  by_cases texts : ∃ s t, x = text s ∧ d = text t
  · obtain ⟨s, t, rfl, rfl⟩ := texts
    rw [sameIdentity_texts, beq_iff_eq]
    constructor
    · intro equal
      rw [equal, second] at first
      exact (Option.some.inj first).symm
    · intro equal
      simpa [equal] using clear
  · have mixed : ∀ s t, x = text s → d ≠ text t := fun s t left right =>
      texts ⟨s, t, left, right⟩
    have told : (i == j || !(Float.ofInt i == Float.ofInt j)) = true := by
      cases x <;> cases d <;> first | exact clear | exact absurd rfl (mixed _ _ rfl)
    obtain ⟨⟨y, countX, equalX⟩, -⟩ := toFloat?_of_toInt? plainX first
    obtain ⟨⟨z, countD, equalD⟩, -⟩ := toFloat?_of_toInt? plainD second
    rw [sameIdentity_of_numbers countX countD mixed, Number.beq_congr equalX equalD]
    constructor
    · intro equal
      simpa [equal] using told
    · rintro rfl
      exact Number.ofInt_beq_self i

theorem toFloat?_toText (y : Float) : (text (Number.toText y)).toFloat? = some y := by
  change Number.ofText? (Text.trim (Number.toText y)) = some y
  rw [Text.trim_of_solid (Number.isSolid_toText y), Number.ofText?_toText]

theorem sameIdentity_text_float (s : String) (y : Float) :
    (text s).sameIdentity (float y) = (text s).toFloat?.any (· == y) := by
  cases read : (text s).toFloat? with
  | none =>
      rw [sameIdentity_of_none (.inl read) (by simp)]
      rfl
  | some z => rw [sameIdentity_of_numbers read rfl (by simp), Option.any_some]

theorem sameIdentity_float_text (s : String) (y : Float) :
    (float y).sameIdentity (text s) = (text s).toFloat?.any (· == y) := by
  cases read : (text s).toFloat? with
  | none =>
      rw [sameIdentity_of_none (.inr read) (by simp)]
      rfl
  | some z =>
      rw [sameIdentity_of_numbers rfl read (by simp), Option.any_some]
      exact BEq.comm

/-- A text counts as a fraction if and only if it is its written form. -/
theorem any_toFloat?_iff {s : String} {y : Float} (number : y.isNaN = false)
    (clear : s == Number.toText y || !(text s).toFloat?.any (· == y)) :
    (text s).toFloat?.any (· == y) ↔ s = Number.toText y := by
  constructor
  · intro read
    simpa [read] using clear
  · rintro rfl
    rw [toFloat?_toText, Option.any_some]
    rw [Float.isNaN_eq_decide_eq_nan, decide_eq_false_iff_not] at number
    exact Float.beq_self_iff.mpr number

theorem beq_iff_toText {y z : Float} (number : y.isNaN = false) (fraction : Number.isIntegral y = false) :
    y == z ↔ Number.toText y = Number.toText z := by
  constructor
  · intro equal
    obtain ⟨-, -, rfl | ⟨rfl, -⟩ | ⟨rfl, -⟩⟩ := Float.beq_iff_ne_nan_and_eq.mp equal
    · rfl
    · cases fraction
    · cases fraction
  · intro written
    have read := congrArg Number.ofText? written
    rw [Number.ofText?_toText, Number.ofText?_toText, Option.some_inj] at read
    rw [Float.isNaN_eq_decide_eq_nan, decide_eq_false_iff_not] at number
    exact read ▸ Float.beq_self_iff.mpr number

theorem isNaN_of_isPlain {y : Float} (plain : (float y).isPlain) : y.isNaN = false := by
  simpa using (Bool.and_eq_true_iff.mp plain).1

def textKey? : Datum → Option IdentityKey
  | float x => some (.text (Number.toText x))
  | text s | variant s => some (.text s)
  | _ => none

theorem ofDatum?_of_none {x : Datum} (uncounted : x.toInt? = none) :
    IdentityKey.ofDatum? x = x.textKey? := by
  cases x with
  | int i => cases uncounted
  | float | text | variant =>
      simp only [IdentityKey.ofDatum?, uncounted]
      rfl
  | null | bool | record | list => rfl

theorem sameIdentity_iff_of_none {x d : Datum} {key : IdentityKey} (plainX : x.isPlain)
    (plainD : d.isPlain) (clear : x.isClear d) (first : x.toInt? = none) (second : d.toInt? = none)
    (keyed : d.textKey? = some key) : x.sameIdentity d ↔ x.textKey? = some key := by
  unfold isClear at clear
  rw [first, second] at clear
  cases d with
  | null | bool | record | list => cases keyed
  | int => cases second
  | float z =>
      cases keyed
      have number := isNaN_of_isPlain plainD
      cases x with
      | null | bool | record | list => exact ⟨nofun, nofun⟩
      | int => cases first
      | float y =>
          change y == z ↔ some (IdentityKey.text (Number.toText y)) = _
          rw [Option.some_inj, IdentityKey.text.injEq]
          exact beq_iff_toText (isNaN_of_isPlain plainX) (not_isIntegral_of_toInt? plainX first)
      | text s =>
          change (text s).sameIdentity (float z) ↔ some (IdentityKey.text s) = _
          rw [Option.some_inj, IdentityKey.text.injEq, ← any_toFloat?_iff number clear,
            sameIdentity_text_float]
      | variant s =>
          change false = true ↔ some (IdentityKey.text s) = _
          rw [Option.some_inj, IdentityKey.text.injEq]
          simpa using clear
  | text t =>
      cases keyed
      cases x with
      | null | bool | record | list => exact ⟨nofun, nofun⟩
      | int => cases first
      | float y =>
          change (float y).sameIdentity (text t) ↔ some (IdentityKey.text (Number.toText y)) = _
          rw [Option.some_inj, IdentityKey.text.injEq, eq_comm (a := Number.toText y),
            ← any_toFloat?_iff (isNaN_of_isPlain plainX) clear, sameIdentity_float_text]
      | text s =>
          change s == t ↔ some (IdentityKey.text s) = _
          rw [Option.some_inj, IdentityKey.text.injEq, beq_iff_eq]
      | variant s =>
          change false = true ↔ some (IdentityKey.text s) = _
          rw [Option.some_inj, IdentityKey.text.injEq]
          simpa using clear
  | variant t =>
      cases keyed
      cases x with
      | null | bool | record | list => exact ⟨nofun, nofun⟩
      | int => cases first
      | float y =>
          change false = true ↔ some (IdentityKey.text (Number.toText y)) = _
          rw [Option.some_inj, IdentityKey.text.injEq, eq_comm (a := Number.toText y)]
          simpa using clear
      | text s =>
          change (text s).sameIdentity (variant t) ↔ some (IdentityKey.text s) = _
          rw [Option.some_inj, IdentityKey.text.injEq, eq_comm (a := s),
            sameIdentity_of_none (.inr rfl) (by simp)]
          simpa [same] using clear
      | variant s =>
          change s == t ↔ some (IdentityKey.text s) = _
          rw [Option.some_inj, IdentityKey.text.injEq, beq_iff_eq]

theorem textKey?_ne_int (x : Datum) (i : Int) : x.textKey? ≠ some (.int i) := by
  cases x <;> simp [textKey?]

/-- Identities are equal if and only if they have one key. -/
theorem sameIdentity_iff_key {x d : Datum} {key : IdentityKey} (plainX : x.isPlain)
    (plainD : d.isPlain) (clear : x.isClear d) (keyed : IdentityKey.ofDatum? d = some key) :
    x.sameIdentity d ↔ IdentityKey.ofDatum? x = some key := by
  cases first : x.toInt? with
  | none =>
      rw [ofDatum?_of_none first]
      cases second : d.toInt? with
      | none =>
          rw [ofDatum?_of_none second] at keyed
          exact sameIdentity_iff_of_none plainX plainD clear first second keyed
      | some j =>
          rw [ofDatum?_of_toInt? second] at keyed
          cases keyed
          rw [sameIdentity_of_isSome_ne plainX plainD clear (by simp [first, second])]
          exact ⟨nofun, fun same => absurd same (x.textKey?_ne_int j)⟩
  | some i =>
      rw [ofDatum?_of_toInt? first]
      cases second : d.toInt? with
      | none =>
          rw [ofDatum?_of_none second] at keyed
          rw [sameIdentity_of_isSome_ne plainX plainD clear (by simp [first, second])]
          refine ⟨nofun, fun same => ?_⟩
          exact absurd (keyed.trans same.symm) (d.textKey?_ne_int i)
      | some j =>
          rw [ofDatum?_of_toInt? second] at keyed
          cases keyed
          rw [sameIdentity_iff_of_toInt? plainX plainD clear first second, Option.some_inj,
            IdentityKey.int.injEq]

/-- An identity with a key is equal to none without one. -/
theorem sameIdentity_of_keyless {x d : Datum} (keyed : (IdentityKey.ofDatum? x).isSome)
    (keyless : IdentityKey.ofDatum? d = none) : x.sameIdentity d = false := by
  cases counted : d.toInt? with
  | some i =>
      rw [ofDatum?_of_toInt? counted] at keyless
      cases keyless
  | none =>
      rw [ofDatum?_of_none counted] at keyless
      cases d with
      | int => cases counted
      | float | text | variant => cases keyless
      | null | bool | record | list =>
          rw [sameIdentity_of_none (.inr rfl) (by simp)]
          cases x with
          | null | bool | record | list => cases keyed
          | int | float | text | variant => rfl

end Datum

namespace Collection

theorem getIndex?_of_keyless {c : Collection} {d : Datum} (indexed : c.isIndexed)
    (keyless : IdentityKey.ofDatum? d = none) : c.getIndex? d = none := by
  obtain ⟨identity, slots⟩ := c
  cases slots with
  | ordered records => cases indexed
  | indexed slots index =>
      unfold getIndex?
      rw [keyless]
      rfl

section
variable {c : Collection} (indexed : c.isIndexed)
include indexed

theorem rebuild_givenIdentities : c.rebuild.2.givenIdentities.Perm c.givenIdentities := by
  unfold givenIdentities
  rw [identityOf?_congr (rebuild_identity c)]
  exact (rebuild_records_perm indexed).filterMap _

theorem rebuild_keys_nodup (apart : c.keys.Nodup) :
    (c.rebuild.2.records.filterMap c.rebuild.2.keyOf?).Nodup := by
  have kept : c.rebuild.2.keyOf? = c.keyOf? := funext (rebuild_keyOf? indexed)
  rw [kept]
  exact (((rebuild_records_perm indexed).filterMap _).nodup_iff).mpr apart

/-- After a rebuild the index and the scan lead to the same slot. -/
theorem rebuild_getIndex?_eq_find? {d : Datum} (ok : c.rebuild.1 = .ok ()) (plain : d.isPlain)
    (clear : ∀ x ∈ c.givenIdentities, x.isPlain ∧ x.isClear d) :
    c.rebuild.2.getIndex? d = c.rebuild.2.find? d := by
  obtain ⟨present, apart⟩ := (rebuild_ok_iff indexed).mp ok
  have given {slot : Nat} {x : Datum} (there : c.rebuild.2.identityAt? slot = some x) :
      x ∈ c.givenIdentities :=
    (rebuild_givenIdentities indexed).mem_iff.mp (mem_givenIdentities there)
  cases keyed : IdentityKey.ofDatum? d with
  | none =>
      rw [getIndex?_of_keyless ((rebuild_isIndexed c).trans indexed) keyed]
      cases found : c.rebuild.2.find? d with
      | none => rfl
      | some slot =>
          obtain ⟨x, there, same⟩ := of_find? found
          obtain ⟨r, member, identified⟩ := List.mem_filterMap.mp (given there)
          have key := present r member
          unfold keyOf? at key
          rw [identified, Option.bind_some] at key
          rw [Datum.sameIdentity_of_keyless key keyed] at same
          cases same
  | some key =>
      obtain ⟨indexedAt, absent⟩ := rebuild_exact indexed d key keyed
      have matched {slot : Nat} {x : Datum} (there : c.rebuild.2.identityAt? slot = some x) :
          x.sameIdentity d ↔ c.rebuild.2.keyAt? slot = some key := by
        obtain ⟨plainX, clearX⟩ := clear x (given there)
        rw [keyAt?_eq, there, Option.bind_some]
        exact Datum.sameIdentity_iff_key plainX plain clearX keyed
      cases found : c.rebuild.2.find? d with
      | none =>
          refine absent.mpr fun r member keyR => ?_
          obtain ⟨slot, live⟩ := exists_live member
          have here : c.rebuild.2.keyAt? slot = some key := by
            unfold keyAt?
            rw [get?_of_live live]
            exact keyR
          obtain ⟨x, there, -⟩ := Option.bind_eq_some_iff.mp ((keyAt?_eq _ slot).symm.trans here)
          have := isSome_find? there ((matched there).mpr here)
          rw [found] at this
          cases this
      | some slot =>
          obtain ⟨x, there, same⟩ := of_find? found
          have here := (matched there).mp same
          refine (indexedAt slot).mpr ⟨here, fun lower less other => ?_⟩
          exact Nat.ne_of_lt less
            (slot_unique_of_nodup (rebuild_keys_nodup indexed apart) other here)

end

def craft (identity : Datum) : Record := ⟨"Craft", [("Id", identity)]⟩

/-- Records with identities of all kinds, and an empty slot. -/
def anchorage : Collection :=
  ⟨some "Id", .indexed [some (craft (.text "ten")), none, some (craft (.int 9007199254740993)),
    some (craft (.float 2.5)), some (craft (.variant "Tug")), some (craft (.text " +12")),
    some (craft (.float (-4)))] []⟩

theorem rebuild_getIndex?_eq_find?_anchorage :
    anchorage.isIndexed ∧ anchorage.rebuild.1 = .ok () ∧ (Datum.text "2.5").isPlain ∧
    (∀ x ∈ anchorage.givenIdentities, x.isPlain ∧ x.isClear (.text "2.5")) ∧
    anchorage.rebuild.2.getIndex? (.text "2.5") = anchorage.rebuild.2.find? (.text "2.5") ∧
    anchorage.rebuild.2.find? (.text "2.5") = some 1 := by
  have ok : anchorage.rebuild.1 = .ok () := by decide +kernel
  have plain : (Datum.text "2.5").isPlain := by decide +kernel
  have clear : ∀ x ∈ anchorage.givenIdentities, x.isPlain ∧ x.isClear (.text "2.5") := by
    decide +kernel
  exact ⟨rfl, ok, plain, clear, rebuild_getIndex?_eq_find? rfl ok plain clear, by decide +kernel⟩

/-- A record with a padded number for its identity. -/
def padded : Collection := ⟨some "Id", .indexed [some (craft (.text "07"))] []⟩

/-- Texts of one integer have one key, but they are not equal. -/
theorem rebuild_getIndex?_padded : padded.isIndexed ∧ padded.rebuild.1 = .ok () ∧
    padded.rebuild.2.getIndex? (.text "7") = some 0 ∧
    padded.rebuild.2.find? (.text "7") = none := by
  decide +kernel

end Collection

end Emend
