import Emend.Proofs.Number.ReadBack
import Emend.Proofs.Text.Cutting
import Emend.Version.Basic

/-!
The texts of versions. Between blanks, an optional mark before it and metadata behind it a version is
written as numerals between dots and a tag after a dash; the numerals can be exchanged for others
without a change to the rest.
-/

set_option autoImplicit false

namespace Emend.Version
open Emend.Text (pieces isBlank trimStart trimEnd)

/-- Parts of a text that are read as these numbers. -/
structure Numerals (parts : List (List Char)) (numbers : List Nat) : Prop where
  read : List.Forall₂ (fun part n => number? part = some n) parts numbers
  filled : parts ≠ []
  short : parts.length ≤ 4

def joined (parts : List (List Char)) : List Char := ['.'].intercalate parts

/-- Digits and dots, with a digit at either end. -/
structure IsDotted (cs : List Char) : Prop where
  chars : ∀ c ∈ cs, c.isDigit ∨ c = '.'
  first : ∃ d rest, cs = d :: rest ∧ d.isDigit
  last : ∃ front d, cs = front ++ [d] ∧ d.isDigit

theorem isDotted_digits {cs : List Char} (filled : cs ≠ []) (digits : ∀ c ∈ cs, c.isDigit) :
    IsDotted cs where
  chars c member := .inl (digits c member)
  first := by
    obtain ⟨d, rest, rfl⟩ := List.exists_cons_of_ne_nil filled
    exact ⟨d, rest, rfl, digits d List.mem_cons_self⟩
  last := by
    refine ⟨cs.dropLast, cs.getLast filled, (List.dropLast_append_getLast filled).symm, ?_⟩
    exact digits _ (List.getLast_mem filled)

theorem IsDotted.append {front back : List Char} (left : IsDotted front) (right : IsDotted back) :
    IsDotted (front ++ '.' :: back) where
  chars c member := by
    rcases List.mem_append.mp member with before | behind
    · exact left.chars c before
    · rcases List.mem_cons.mp behind with dot | behind
      · exact .inr dot
      · exact right.chars c behind
  first := by
    obtain ⟨d, rest, rfl, digit⟩ := left.first
    exact ⟨d, rest ++ '.' :: back, rfl, digit⟩
  last := by
    obtain ⟨init, d, rfl, digit⟩ := right.last
    exact ⟨front ++ '.' :: init, d, by simp, digit⟩

theorem IsDotted.not_mem {cs : List Char} (dotted : IsDotted cs) {c : Char} (letter : c.isDigit = false)
    (other : c ≠ '.') : c ∉ cs := by
  intro member
  rcases dotted.chars c member with digit | dot
  · rw [letter] at digit
    cases digit
  · exact other dot

theorem of_number? {part : List Char} {n : Nat} (read : number? part = some n) :
    part ≠ [] ∧ (∀ c ∈ part, c.isDigit) ∧ n < 2 ^ 64 := by
  obtain ⟨natural, small⟩ := Option.filter_eq_some_iff.mp read
  obtain ⟨filled, digits, -⟩ := Number.readNat?_eq_some natural
  exact ⟨filled, digits, of_decide_eq_true small⟩

theorem number?_toDigits {n : Nat} (small : n < 2 ^ 64) : number? (Nat.toDigits 10 n) = some n := by
  have filled : (Nat.toDigits 10 n).isEmpty = false := List.isEmpty_eq_false_iff.mpr Nat.toDigits_ne_nil
  have digits : (Nat.toDigits 10 n).all Char.isDigit = true :=
    List.all_eq_true.mpr (Number.isDigit_toDigits n)
  have natural : Number.readNat? (Nat.toDigits 10 n) = some n := by
    unfold Number.readNat?
    rw [filled, digits, Number.digitsValue_toDigits]
    rfl
  rw [number?, natural]
  exact Option.filter_eq_some_iff.mpr ⟨rfl, decide_eq_true small⟩

theorem mapM_number?_eq_some_iff {parts : List (List Char)} {numbers : List Nat} :
    parts.mapM number? = some numbers ↔
      List.Forall₂ (fun part n => number? part = some n) parts numbers := by
  induction parts generalizing numbers with
  | nil => simp [eq_comm]
  | cons part parts ih =>
      rw [List.mapM_cons]
      cases first : number? part with
      | none => cases numbers <;> simp [first]
      | some n =>
          cases later : parts.mapM number? with
          | none => cases numbers <;> simp [← ih, later]
          | some others => cases numbers <;> simp [← ih, first, later]

theorem numbers?_eq_some_iff {parts : List (List Char)} {numbers : List Nat} :
    numbers? parts = some numbers ↔
      parts.length ≤ 4 ∧ List.Forall₂ (fun part n => number? part = some n) parts numbers := by
  rw [← mapM_number?_eq_some_iff]
  unfold numbers?
  split <;> simp [*]

theorem joined_cons (part : List Char) (more : List (List Char)) :
    joined (part :: more) = part ++ more.flatMap ('.' :: ·) := by
  induction more generalizing part with
  | nil => simp [joined]
  | cons next more ih =>
      rw [joined, List.intercalate_cons_cons, ← joined, ih, List.flatMap_cons, List.append_assoc]
      rfl

theorem joined_append {parts : List (List Char)} (filled : parts ≠ []) (more : List (List Char)) :
    joined (parts ++ more) = joined parts ++ more.flatMap ('.' :: ·) := by
  obtain ⟨first, rest, rfl⟩ := List.exists_cons_of_ne_nil filled
  rw [List.cons_append, joined_cons, joined_cons, List.flatMap_append, List.append_assoc]

namespace Numerals

variable {parts : List (List Char)} {numbers : List Nat}

theorem numbers? (numerals : Numerals parts numbers) : Version.numbers? parts = some numbers :=
  numbers?_eq_some_iff.mpr ⟨numerals.short, numerals.read⟩

theorem digits (numerals : Numerals parts numbers) :
    ∀ part ∈ parts, part ≠ [] ∧ ∀ c ∈ part, c.isDigit := by
  obtain ⟨read, -, -⟩ := numerals
  induction read with
  | nil => simp
  | cons first later ih =>
      intro part member
      rcases List.mem_cons.mp member with rfl | member
      · exact ⟨(of_number? first).1, (of_number? first).2.1⟩
      · exact ih part member

theorem pieces_joined (numerals : Numerals parts numbers) :
    pieces (· == '.') (joined parts) = parts :=
  Text.pieces_joined numerals.filled fun part member dot =>
    absurd ((numerals.digits part member).2 '.' dot) (by decide)

theorem isDotted (numerals : Numerals parts numbers) : IsDotted (joined parts) := by
  have digits := numerals.digits
  have filled := numerals.filled
  clear numerals
  induction parts with
  | nil => exact absurd rfl filled
  | cons part parts ih =>
      have first := digits part List.mem_cons_self
      cases parts with
      | nil =>
          rw [joined, List.intercalate_singleton]
          exact isDotted_digits first.1 first.2
      | cons next parts =>
          have later := ih (fun part member => digits part (List.mem_cons_of_mem _ member)) (by simp)
          rw [joined, List.intercalate_cons_cons, List.append_assoc]
          exact (isDotted_digits first.1 first.2).append later

end Numerals

def tagText : Option String → List Char
  | none => []
  | some tag => '-' :: tag.toList

/-- What is left of a text without blanks, mark and metadata. -/
def core (cs : List Char) : List Char := (withoutMark (trimEnd (trimStart cs))).takeWhile (· != '+')

/-- Reads numbers and a tag. -/
def ofCore? (cs : List Char) : Option Version := do
  let (numbers, tag) ← tagged? cs
  let numbers ← numbers? (pieces (· == '.') numbers)
  some ⟨numbers, tag⟩

theorem parse?_eq (text : String) : parse? text = ofCore? (core text.toList) := by
  unfold parse? Text.trim
  rw [String.toList_ofList]
  rfl

theorem parse_eq_ok_iff {text : String} {v : Version} :
    Version.parse text = .ok v ↔ parse? text = some v := by
  unfold Version.parse
  cases parse? text <;> simp

theorem tagged?_dotted {cs : List Char} (dotted : IsDotted cs) {tag : Option String}
    (filled : tag ≠ some "") : tagged? (cs ++ tagText tag) = some (cs, tag) := by
  have dash : '-' ∉ cs := dotted.not_mem (by decide) (by decide)
  unfold tagged?
  cases tag with
  | none => rw [tagText, List.append_nil, Text.cut?_eq_none dash]
  | some tag =>
      rw [tagText, Text.cut?_append dash]
      cases letters : tag.toList with
      | nil => exact absurd (congrArg some (String.toList_eq_nil_iff.mp letters)) filled
      | cons c rest => simp [← letters]

theorem Numerals.ofCore? {parts : List (List Char)} {numbers : List Nat}
    (numerals : Numerals parts numbers) {tag : Option String} (filled : tag ≠ some "") :
    Version.ofCore? (joined parts ++ tagText tag) = some ⟨numbers, tag⟩ := by
  unfold Version.ofCore?
  rw [tagged?_dotted numerals.isDotted filled, Option.bind_eq_bind, Option.bind_some]
  dsimp only
  rw [numerals.pieces_joined, numerals.numbers?]
  rfl

theorem ofCore?_dash {cs : List Char} (dotted : IsDotted cs) : Version.ofCore? (cs ++ ['-']) = none := by
  unfold Version.ofCore? tagged?
  rw [Text.cut?_append (dotted.not_mem (by decide) (by decide))]
  rfl

theorem of_tagged? {cs numbers : List Char} {tag : Option String}
    (read : tagged? cs = some (numbers, tag)) : tag ≠ some "" ∧ cs = numbers ++ tagText tag := by
  unfold tagged? at read
  rcases Text.exists_cut? '-' cs with ⟨-, cut⟩ | ⟨front, back, rfl, -, cut⟩
  · rw [cut] at read
    cases read
    exact ⟨nofun, (List.append_nil _).symm⟩
  · rw [cut] at read
    cases back with
    | nil => cases read
    | cons c back =>
        cases read
        refine ⟨fun empty => ?_, by rw [tagText, String.toList_ofList]⟩
        have letters := congrArg String.toList (Option.some.inj empty)
        rw [String.toList_ofList] at letters
        cases letters

theorem of_ofCore? {cs : List Char} {v : Version} (read : Version.ofCore? cs = some v) :
    ∃ parts, Numerals parts v.numbers ∧ v.preRelease ≠ some "" ∧
      cs = joined parts ++ tagText v.preRelease := by
  unfold Version.ofCore? at read
  obtain ⟨⟨letters, tag⟩, tagged, read⟩ := Option.bind_eq_some_iff.mp read
  obtain ⟨numbers, numerals, read⟩ := Option.bind_eq_some_iff.mp read
  cases read
  obtain ⟨filled, rfl⟩ := of_tagged? tagged
  obtain ⟨short, each⟩ := numbers?_eq_some_iff.mp numerals
  refine ⟨pieces (· == '.') letters, ⟨each, ?_, short⟩, filled, ?_⟩
  · rw [Text.pieces_eq_splitOnP]
    exact List.splitOnP_ne_nil _ _
  · rw [joined, Text.joined_pieces]

/-- What may stand in front of the numerals. -/
def IsOpening (front : List Char) : Prop :=
  ∃ blanks mark, front = blanks ++ mark ∧ (∀ b ∈ blanks, isBlank b = true) ∧
    (mark = [] ∨ mark = ['v'] ∨ mark = ['V'])

theorem isBlank_of_isDigit {c : Char} (digit : c.isDigit) : isBlank c = false := by
  have code := Char.isDigit_iff_toNat.mp digit
  change 48 ≤ c.toNat ∧ c.toNat ≤ 57 at code
  exact Text.isBlank_of_numeral (by omega) (by omega)

theorem withoutMark_of_isDigit {d : Char} (digit : d.isDigit) (rest : List Char) :
    withoutMark (d :: rest) = d :: rest := by
  unfold withoutMark
  split
  · rename_i same
    cases same
    cases digit
  · rename_i same
    cases same
    cases digit
  · rfl

theorem exists_mark (cs : List Char) :
    ∃ mark, (mark = [] ∨ mark = ['v'] ∨ mark = ['V']) ∧ cs = mark ++ withoutMark cs := by
  unfold withoutMark
  split
  · exact ⟨['v'], .inr (.inl rfl), rfl⟩
  · exact ⟨['V'], .inr (.inr rfl), rfl⟩
  · exact ⟨[], .inl rfl, rfl⟩

/-- The numerals stay as they are, and of what is behind them the blanks at the end and the metadata are
dropped, in this order. -/
theorem core_dotted {front cs : List Char} (opening : IsOpening front) (dotted : IsDotted cs)
    (back : List Char) :
    core (front ++ cs ++ back) = cs ++ (trimEnd back).takeWhile (· != '+') := by
  obtain ⟨blanks, mark, rfl, blank, marked⟩ := opening
  -- A digit at either end of the numerals stops the trimming from both sides.
  have started : trimStart (blanks ++ mark ++ cs ++ back) = mark ++ cs ++ back := by
    obtain ⟨d, rest, rfl, digit⟩ := dotted.first
    rw [List.append_assoc, List.append_assoc, Text.trimStart_blanks blank]
    rcases marked with rfl | rfl | rfl
    · exact Text.trimStart_of_solid (isBlank_of_isDigit digit) _
    · exact Text.trimStart_of_solid (by decide) _
    · exact Text.trimStart_of_solid (by decide) _
  have ended : trimEnd (mark ++ cs ++ back) = mark ++ (cs ++ trimEnd back) := by
    obtain ⟨init, d, rfl, digit⟩ := dotted.last
    have whole : mark ++ (init ++ [d]) ++ back = mark ++ init ++ d :: back := by simp
    rw [whole, Text.trimEnd_append (isBlank_of_isDigit digit)]
    simp
  have unmarked : withoutMark (mark ++ (cs ++ trimEnd back)) = cs ++ trimEnd back := by
    obtain ⟨d, rest, rfl, digit⟩ := dotted.first
    rcases marked with rfl | rfl | rfl
    · exact withoutMark_of_isDigit digit _
    · rfl
    · rfl
  unfold core
  rw [started, ended, unmarked, List.takeWhile_append_of_pos]
  intro c member
  rcases dotted.chars c member with digit | rfl
  · rw [bne_iff_ne]
    rintro rfl
    cases digit
  · rfl

theorem of_core {cs numerals rest : List Char} (dotted : IsDotted numerals)
    (same : core cs = numerals ++ rest) :
    ∃ front back, IsOpening front ∧ cs = front ++ numerals ++ back ∧
      (trimEnd back).takeWhile (· != '+') = rest := by
  obtain ⟨blanks, blank, start⟩ := Text.exists_trimStart cs
  obtain ⟨after, -, stop⟩ := Text.exists_trimEnd (trimStart cs)
  obtain ⟨mark, marked, body⟩ := exists_mark (trimEnd (trimStart cs))
  obtain ⟨metadata, kept⟩ : ∃ metadata,
      withoutMark (trimEnd (trimStart cs)) = numerals ++ rest ++ metadata :=
    ⟨_, by rw [← same]; exact List.takeWhile_append_dropWhile.symm⟩
  have opening : IsOpening (blanks ++ mark) := ⟨blanks, mark, rfl, blank, marked⟩
  have whole : cs = blanks ++ mark ++ numerals ++ (rest ++ metadata ++ after) := by
    rw [start, stop, body, kept]
    simp
  refine ⟨blanks ++ mark, rest ++ metadata ++ after, opening, whole, ?_⟩
  -- What is trimmed off at the end of the whole text is trimmed off behind the numerals.
  have again := core_dotted opening dotted (rest ++ metadata ++ after)
  rw [← whole, same] at again
  exact (List.append_cancel_left again).symm

/-- A version in a text: the numerals and the tag are where they are read, and other numerals in their
place are read with the same tag. -/
theorem of_parse? {text : String} {v : Version} (read : parse? text = some v) :
    ∃ front parts back, IsOpening front ∧ Numerals parts v.numbers ∧
      text.toList = front ++ joined parts ++ back ∧
      (trimEnd back).takeWhile (· != '+') = tagText v.preRelease ∧ v.preRelease ≠ some "" := by
  rw [parse?_eq] at read
  obtain ⟨parts, numerals, filled, same⟩ := of_ofCore? read
  obtain ⟨front, back, opening, whole, tag⟩ := of_core numerals.isDotted same
  exact ⟨front, parts, back, opening, numerals, whole, tag, filled⟩

theorem parse?_numerals {front back : List Char} (opening : IsOpening front)
    {parts : List (List Char)} {numbers : List Nat} (numerals : Numerals parts numbers)
    {tag : Option String} (filled : tag ≠ some "")
    (tagged : (trimEnd back).takeWhile (· != '+') = tagText tag) :
    parse? (String.ofList (front ++ joined parts ++ back)) = some ⟨numbers, tag⟩ := by
  rw [parse?_eq, String.toList_ofList, core_dotted opening numerals.isDotted, tagged,
    numerals.ofCore? filled]

/-- A version that some text is read as. -/
structure IsReadable (v : Version) : Prop where
  filled : v.numbers ≠ []
  short : v.numbers.length ≤ 4
  small : ∀ n ∈ v.numbers, n < 2 ^ 64
  tagged : v.preRelease ≠ some ""
  plain : '+' ∉ tagText v.preRelease

theorem Numerals.small {parts : List (List Char)} {numbers : List Nat}
    (numerals : Numerals parts numbers) : ∀ n ∈ numbers, n < 2 ^ 64 := by
  obtain ⟨read, -, -⟩ := numerals
  induction read with
  | nil => simp
  | cons first later ih =>
      intro n member
      rcases List.mem_cons.mp member with rfl | member
      · exact (of_number? first).2.2
      · exact ih n member

theorem isReadable {text : String} {v : Version} (read : parse? text = some v) : IsReadable v := by
  obtain ⟨front, parts, back, -, numerals, -, tag, filled⟩ := of_parse? read
  have length := numerals.read.length_eq
  refine ⟨?_, length ▸ numerals.short, numerals.small, filled, ?_⟩
  · exact List.ne_nil_of_length_pos (length ▸ List.length_pos_of_ne_nil numerals.filled)
  · rw [← tag]
    intro member
    exact absurd (List.mem_takeWhile_imp member) (by decide)

def numerals (v : Version) : List (List Char) := v.numbers.map (Nat.toDigits 10)

theorem toList_toText (v : Version) : v.toText.toList = joined v.numerals ++ tagText v.preRelease := by
  unfold toText
  rw [String.toList_append, String.toList_intercalate, List.map_map]
  cases v.preRelease with
  | none => simp [joined, numerals, tagText, Function.comp_def]
  | some tag => simp [joined, numerals, tagText, Function.comp_def]

theorem IsReadable.numerals {v : Version} (readable : IsReadable v) :
    Numerals v.numerals v.numbers where
  read := by
    unfold Version.numerals
    have small := readable.small
    generalize v.numbers = numbers at small
    induction numbers with
    | nil => exact .nil
    | cons n numbers ih =>
        exact .cons (number?_toDigits (small n List.mem_cons_self))
          (ih fun m member => small m (List.mem_cons_of_mem _ member))
  filled := by
    rw [Version.numerals, Ne, List.map_eq_nil_iff]
    exact readable.filled
  short := by
    rw [Version.numerals, List.length_map]
    exact readable.short

end Emend.Version
