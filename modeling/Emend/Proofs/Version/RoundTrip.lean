import Emend.Coercion
import Emend.Proofs.Version.Order

/-!
Versions written and read again. The text of a version is read as the version itself, unless its tag
ends in a blank: the blank is then at the end of the text and is lost. Only metadata can bring such a tag
about, since it is dropped after the text has been trimmed.
-/

set_option autoImplicit false

namespace Emend.Version
open Emend.Text (isBlank trimEnd)

/-- Whether the last character of the tag is a blank. -/
def endsBlank (v : Version) : Bool := (v.preRelease.bind (·.toList.getLast?)).any isBlank

/-- The version without the blanks at the end of its tag. -/
def trimmed (v : Version) : Version :=
  ⟨v.numbers, v.preRelease.map fun tag => String.ofList (trimEnd tag.toList)⟩

variable {v w : Version}

theorem tagText_trimmed (v : Version) : tagText v.trimmed.preRelease = trimEnd (tagText v.preRelease) := by
  unfold trimmed
  cases v.preRelease with
  | none => rfl
  | some tag =>
      rw [Option.map_some, tagText, String.toList_ofList, tagText]
      exact (Text.trimEnd_append (by decide) [] _).symm

theorem takeWhile_trimEnd {cs : List Char} (plain : '+' ∉ cs) :
    (trimEnd cs).takeWhile (· != '+') = trimEnd cs := by
  rw [List.takeWhile_eq_self_iff]
  intro c member
  obtain ⟨after, -, whole⟩ := Text.exists_trimEnd cs
  rw [bne_iff_ne]
  rintro rfl
  rw [whole] at plain
  exact plain (List.mem_append_left _ member)

theorem tagText_injective : Function.Injective tagText := by
  intro a b same
  cases a <;> cases b
  · rfl
  · cases same
  · cases same
  · exact congrArg some (String.toList_inj.mp (List.cons.inj same).2)

theorem trimmed_eq_self_iff : v.trimmed = v ↔ ¬ v.endsBlank := by
  have tags : v.trimmed = v ↔ trimEnd (tagText v.preRelease) = tagText v.preRelease := by
    rw [← tagText_trimmed]
    exact ⟨fun same => by rw [same],
      fun same => congrArg (Version.mk v.numbers) (tagText_injective same)⟩
  rw [tags, Text.trimEnd_eq_self_iff]
  unfold endsBlank
  cases v.preRelease with
  | none => simp [tagText]
  | some tag =>
      rcases List.eq_nil_or_concat tag.toList with empty | ⟨front, c, whole⟩
      · simp [tagText, empty, show isBlank '-' = false by decide]
      · simp [tagText, whole, List.getLast?_cons]

/-- The text of a version is read as the version without the blanks at the end of its tag; if its tag is
blank, the text is not read at all. -/
theorem IsReadable.parse?_toText (readable : IsReadable v) :
    parse? v.toText = if v.trimmed.preRelease = some "" then none else some v.trimmed := by
  have opening : IsOpening [] := ⟨[], [], rfl, nofun, .inl rfl⟩
  have plain : (trimEnd (tagText v.preRelease)).takeWhile (· != '+') =
      tagText v.trimmed.preRelease := by
    rw [takeWhile_trimEnd readable.plain, tagText_trimmed]
  have text : v.toText.toList = [] ++ joined v.numerals ++ tagText v.preRelease := toList_toText v
  rw [parse?_eq, text, core_dotted opening readable.numerals.isDotted, plain]
  split
  · rename_i blank
    rw [blank]
    exact ofCore?_dash readable.numerals.isDotted
  · rename_i filled
    rw [readable.numerals.ofCore? filled]
    rfl

theorem IsReadable.parse?_toText_of_solid (readable : IsReadable v) (solid : ¬ v.endsBlank) :
    parse? v.toText = some v := by
  rw [readable.parse?_toText, trimmed_eq_self_iff.mpr solid, if_neg readable.tagged]

/-- A version that is written alike and has the same numbers has the same tag. -/
theorem eq_of_toText (numbers : w.numbers = v.numbers) (same : w.toText = v.toText) : w = v := by
  have letters := congrArg String.toList same
  rw [toList_toText, toList_toText, numerals, numerals, numbers] at letters
  have tags := tagText_injective (List.append_cancel_left letters)
  cases v
  cases w
  cases numbers
  cases tags
  rfl

theorem not_endsBlank_of_plain {text : String} (read : parse? text = some v) (plain : '+' ∉ text.toList) :
    ¬ v.endsBlank := by
  obtain ⟨front, parts, back, -, -, whole, tag, -⟩ := of_parse? read
  have kept : (trimEnd back).takeWhile (· != '+') = trimEnd back := by
    refine takeWhile_trimEnd fun member => plain ?_
    rw [whole]
    exact List.mem_append_right _ member
  have stable : trimEnd (tagText v.preRelease) = tagText v.preRelease := by
    rw [← tag, kept, Text.trimEnd_trimEnd]
  rw [← trimmed_eq_self_iff]
  refine congrArg (Version.mk v.numbers) (tagText_injective ?_)
  exact (tagText_trimmed v).trans stable

/-- The text of a version that was read is read again as an equal version of the same text if and only if
its tag does not end in a blank, and then also where a formula takes a text for a version. Tags of texts
without metadata do not. -/
theorem parse_toText {text : String} {v : Version} (read : Version.parse text = .ok v) :
    ((∃ w, Version.parse v.toText = .ok w ∧ w.same v ∧ w.toText = v.toText) ↔ ¬ v.endsBlank) ∧
    (¬ v.endsBlank → Version.parse v.toText = .ok v ∧
      (Value.text (Value.version v).toText).toVersion = .ok v) ∧
    ('+' ∉ text.toList → ¬ v.endsBlank) := by
  have readable := isReadable (parse_eq_ok_iff.mp read)
  refine ⟨⟨?_, fun solid => ?_⟩, fun solid => ?_, not_endsBlank_of_plain (parse_eq_ok_iff.mp read)⟩
  · rintro ⟨w, again, -, same⟩
    rw [parse_eq_ok_iff, readable.parse?_toText] at again
    -- What is read has the same numbers, so its text can differ in the tag alone.
    split at again
    · cases again
    · cases again
      exact trimmed_eq_self_iff.mp (eq_of_toText rfl same)
  · exact ⟨v, parse_eq_ok_iff.mpr (readable.parse?_toText_of_solid solid),
      beq_iff_eq.mpr Std.ReflCmp.compare_self, rfl⟩
  · have again := readable.parse?_toText_of_solid solid
    refine ⟨parse_eq_ok_iff.mpr again, ?_⟩
    rw [Value.toText]
    unfold Value.toVersion
    dsimp only
    rw [again]

theorem parse_toText_candidate :
    Version.parse " V01.2-rc 1.x-y+b 3" = .ok ⟨[1, 2], some "rc 1.x-y"⟩ ∧
    endsBlank ⟨[1, 2], some "rc 1.x-y"⟩ = false ∧
    Version.parse (toText ⟨[1, 2], some "rc 1.x-y"⟩) = .ok ⟨[1, 2], some "rc 1.x-y"⟩ := by
  have read : Version.parse " V01.2-rc 1.x-y+b 3" = .ok ⟨[1, 2], some "rc 1.x-y"⟩ := by decide +kernel
  have solid : endsBlank ⟨[1, 2], some "rc 1.x-y"⟩ = false := by decide
  exact ⟨read, solid, ((parse_toText read).2.1 (by rw [solid]; exact Bool.false_ne_true)).1⟩

/-- A blank before the metadata stays in the tag. The version is then written with the blank at its end,
which is lost when the text is read again; with a tag of blanks alone the text is not read at all. -/
theorem parse_toText_blank :
    (Version.parse "1.0-rc +9" = .ok ⟨[1, 0], some "rc "⟩ ∧
      Version.parse (toText ⟨[1, 0], some "rc "⟩) = .ok ⟨[1, 0], some "rc"⟩ ∧
      same ⟨[1, 0], some "rc"⟩ ⟨[1, 0], some "rc "⟩ = false ∧
      toText ⟨[1, 0], some "rc"⟩ ≠ toText ⟨[1, 0], some "rc "⟩) ∧
    (Version.parse "1.0- +9" = .ok ⟨[1, 0], some " "⟩ ∧
      Version.parse (toText ⟨[1, 0], some " "⟩) = .error (.invalidVersion "1.0- ")) := by
  refine ⟨⟨?_, ?_, ?_, ?_⟩, ?_, ?_⟩ <;> decide +kernel

end Emend.Version
