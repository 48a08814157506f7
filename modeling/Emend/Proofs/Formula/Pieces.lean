import Emend.Formula.Scanner
import Emend.Proofs.Number.Denoted
import Emend.Proofs.Text.Bytes

/-!
What the scanner finds where it stands. A text is cut there into the characters before and the
characters after: pieces between characters can be taken, blanks and digits are passed over, and a
number is read as the lexer reads it.
-/

set_option autoImplicit false

namespace Emend.Formula
open Emend.Text (byteLength leading isBlank)

namespace Scanner

theorem peek?_eq (text : String) (pos : Nat) :
    peek? text pos = ((text.toList.flatMap String.utf8EncodeChar)[pos]?).map Char.ofUInt8 := by
  unfold peek?
  split
  · rename_i inside
    rw [Text.getElem?_bytes inside]
    rfl
  · rename_i outside
    rw [List.getElem?_eq_none, Option.map_none]
    rw [Text.length_flatMap_utf8EncodeChar, ← Text.utf8ByteSize_eq_byteLength]
    exact Nat.le_of_not_lt outside

section
variable {text : String} {front rest : List Char} (cut : text.toList = front ++ rest)
include cut

theorem peek?_cut : peek? text (byteLength front) = rest.head?.map leading := by
  rw [peek?_eq, cut, List.flatMap_append,
    List.getElem?_append_right (Text.length_flatMap_utf8EncodeChar front).le,
    Text.length_flatMap_utf8EncodeChar, Nat.sub_self]
  cases rest with
  | nil => rfl
  | cons c rest =>
      have encoded : String.utf8EncodeChar c ≠ [] := String.utf8EncodeChar_ne_nil
      rw [List.flatMap_cons, List.getElem?_append_left (List.length_pos_of_ne_nil encoded),
        ← List.head?_eq_getElem?, List.head?_eq_some_head encoded]
      rfl

theorem peek?_any_cut {p : Char → Bool} (narrow : ∀ c, p c → c.toNat < 128) :
    (peek? text (byteLength front)).any p = rest.head?.any p := by
  rw [peek?_cut cut]
  cases rest with
  | nil => rfl
  | cons c rest => exact Text.leading_decides narrow c

theorem size_cut : text.utf8ByteSize = byteLength front + byteLength rest := by
  rw [Text.utf8ByteSize_eq_byteLength, cut, Text.byteLength_append]

end

section
variable {text : String} {front piece rest : List Char}

theorem slice_cut (cut : text.toList = front ++ (piece ++ rest)) :
    slice text (byteLength front) (byteLength (front ++ piece)) = .ok piece := by
  unfold slice
  rw [cut, Text.between?_cut]

theorem tail_cut (cut : text.toList = front ++ rest) : tail text (byteLength front) = .ok rest := by
  have whole : text.toList = front ++ (rest ++ []) := by rw [List.append_nil, cut]
  unfold tail
  rw [Text.utf8ByteSize_eq_byteLength, cut]
  exact slice_cut whole

theorem cut_after (piece : List Char) (cut : text.toList = front ++ (piece ++ rest)) :
    text.toList = (front ++ piece) ++ rest :=
  cut.trans (List.append_assoc ..).symm

end

section
variable {text : String}

theorem skipBlanks_cut {front rest : List Char} (cut : text.toList = front ++ rest) :
    skipBlanks text (byteLength front) = .ok (byteLength (front ++ rest.takeWhile isBlank)) := by
  induction rest generalizing front with
  | nil =>
      rw [skipBlanks, tail_cut cut, List.takeWhile_nil, List.append_nil]
  | cons c rest ih =>
      rw [skipBlanks, tail_cut cut]
      dsimp only
      by_cases blank : isBlank c
      · have further := ih (cut_after [c] cut)
        rw [Text.byteLength_append, byteLength, byteLength, Nat.add_zero] at further
        rw [if_pos blank, further, List.takeWhile_cons_of_pos blank, List.append_assoc]
        rfl
      · rw [if_neg blank, List.takeWhile_cons_of_neg blank, List.append_nil]

theorem skipDigits_cut {front rest : List Char} (cut : text.toList = front ++ rest) :
    skipDigits text (byteLength front) = byteLength (front ++ rest.takeWhile Char.isDigit) := by
  induction rest generalizing front with
  | nil =>
      rw [skipDigits, peek?_cut cut, List.takeWhile_nil, List.append_nil]
      rfl
  | cons c rest ih =>
      rw [skipDigits, peek?_cut cut]
      dsimp only [List.head?, Option.map]
      rw [Text.leading_decides (fun _ => Text.narrow_of_isDigit)]
      by_cases digit : c.isDigit
      · have further := ih (cut_after [c] cut)
        rw [Text.byteLength_push (Text.narrow_of_isDigit digit)] at further
        rw [if_pos digit, further, List.takeWhile_cons_of_pos digit, List.append_assoc]
        rfl
      · rw [if_neg digit, List.takeWhile_cons_of_neg digit, List.append_nil]

theorem peek?_any_after {front rest : List Char} {c : Char} (cut : text.toList = front ++ c :: rest)
    (single : c.toNat < 128) {p : Char → Bool} (narrow : ∀ c, p c → c.toNat < 128) :
    (peek? text (byteLength front + 1)).any p = rest.head?.any p := by
  rw [← Text.byteLength_push single]
  exact peek?_any_cut (cut_after [c] cut) narrow

theorem digitCount_eq_zero {cs : List Char} (none : cs.head?.any Char.isDigit = false) :
    Lexer.digitCount cs = 0 := by
  cases cs with
  | nil => rfl
  | cons c cs =>
      have other : ¬ c.isDigit := Bool.eq_false_iff.mp none
      rw [Lexer.digitCount, List.takeWhile_cons_of_neg other, List.length_nil]

theorem takeWhile_filled {cs : List Char} (some : cs.head?.any Char.isDigit = true) :
    cs.takeWhile Char.isDigit ≠ [] := by
  cases cs with
  | nil => cases some
  | cons c cs =>
      have digit : c.isDigit := some
      rw [List.takeWhile_cons_of_pos digit]
      exact List.cons_ne_nil _ _

theorem digitCount_ne_zero {cs : List Char} (some : cs.head?.any Char.isDigit = true) :
    Lexer.digitCount cs ≠ 0 :=
  fun none => takeWhile_filled some (List.eq_nil_of_length_eq_zero none)

theorem narrow_of_either {a b c : Char} (first : a.toNat < 128) (second : b.toNat < 128)
    (either : (c == a || c == b) = true) : c.toNat < 128 := by
  rcases Bool.or_eq_true_iff.mp either with same | same
  · rwa [eq_of_beq same]
  · rwa [eq_of_beq same]

/-- What is passed over is a point with digits, or nothing. -/
theorem skipFraction_cut {front rest : List Char} (cut : text.toList = front ++ rest) :
    ∃ fraction others, rest = fraction ++ others ∧
      (fraction = [] ∨ ∃ part, fraction = '.' :: part ∧ ∀ c ∈ part, c.isDigit) ∧
      fraction.length = Lexer.fractionLength rest ∧
      skipFraction text (byteLength front) = byteLength (front ++ fraction) := by
  have narrow (c : Char) (point : (c == '.') = true) : c.toNat < 128 := by
    rw [eq_of_beq point]
    decide
  unfold skipFraction
  rw [peek?_any_cut cut narrow]
  cases rest with
  | nil => exact ⟨[], [], rfl, .inl rfl, rfl, by rw [List.append_nil]; rfl⟩
  | cons c rest =>
      by_cases point : c = '.'
      · subst point
        rw [peek?_any_after cut (by decide) fun _ => Text.narrow_of_isDigit]
        cases found : rest.head?.any Char.isDigit with
        | false =>
            refine ⟨[], _, rfl, .inl rfl, ?_, by rw [List.append_nil]; rfl⟩
            rw [Lexer.fractionLength, digitCount_eq_zero found, if_pos rfl, List.length_nil]
        | true =>
            have skipped := skipDigits_cut (cut_after ['.'] cut)
            rw [Text.byteLength_push (by decide), List.append_assoc] at skipped
            refine ⟨'.' :: rest.takeWhile Char.isDigit, rest.dropWhile Char.isDigit, ?_,
              .inr ⟨_, rfl, fun c member => List.mem_takeWhile_imp member⟩, ?_, skipped⟩
            · rw [List.cons_append, List.takeWhile_append_dropWhile]
            · rw [Lexer.fractionLength, if_neg (digitCount_ne_zero found), List.length_cons, Nat.add_comm]
              rfl
      · refine ⟨[], _, rfl, .inl rfl, ?_, ?_⟩
        · unfold Lexer.fractionLength
          split
          · rename_i same
            exact absurd (List.cons.inj same).1 point
          · rfl
        · rw [List.head?_cons, Option.any_some, beq_eq_false_iff_ne.mpr point, List.append_nil]
          rfl

def IsSign (sign : List Char) : Prop := sign = [] ∨ sign = ['+'] ∨ sign = ['-']

theorem IsSign.narrow {sign : List Char} (signed : IsSign sign) : ∀ c ∈ sign, c.toNat < 128 := by
  intro c member
  rcases signed with rfl | rfl | rfl
  · cases member
  · rw [List.mem_singleton.mp member]
    decide
  · rw [List.mem_singleton.mp member]
    decide

theorem exists_readInt? {sign digits : List Char} (signed : IsSign sign) (filled : digits ≠ [])
    (decimal : ∀ c ∈ digits, c.isDigit) : ∃ e, Number.readInt? (sign ++ digits) = some e := by
  have natural : Number.readNat? digits = some (Number.digitsValue digits) := by
    unfold Number.readNat?
    rw [List.isEmpty_eq_false_iff.mpr filled, List.all_eq_true.mpr decimal]
    rfl
  rcases signed with rfl | rfl | rfl
  · obtain ⟨c, cs, rfl⟩ := List.exists_cons_of_ne_nil filled
    have digit := Text.isDigit_iff.mp (decimal c List.mem_cons_self)
    refine ⟨Int.ofNat (Number.digitsValue (c :: cs)), ?_⟩
    rw [List.nil_append]
    unfold Number.readInt?
    split
    · rename_i same
      rw [(List.cons.inj same).1] at digit
      exact absurd digit (by decide)
    · rename_i same
      rw [(List.cons.inj same).1] at digit
      exact absurd digit (by decide)
    · rw [natural]
      rfl
  · exact ⟨_, congrArg (Option.map Int.ofNat) natural⟩
  · refine ⟨-(Number.digitsValue digits : Int), ?_⟩
    rw [List.singleton_append, Number.readInt?, natural]
    rfl

theorem exists_sign (cs : List Char) : ∃ sign after, cs = sign ++ after ∧ IsSign sign ∧
    (cs.head?.any fun c => c == '+' || c == '-') = !sign.isEmpty := by
  match cs with
  | [] => exact ⟨[], [], rfl, .inl rfl, rfl⟩
  | c :: cs =>
    by_cases plus : c = '+'
    · exact ⟨['+'], cs, by rw [plus]; rfl, .inr (.inl rfl), by rw [plus]; rfl⟩
    · by_cases minus : c = '-'
      · exact ⟨['-'], cs, by rw [minus]; rfl, .inr (.inr rfl), by rw [minus]; rfl⟩
      · refine ⟨[], c :: cs, rfl, .inl rfl, ?_⟩
        rw [List.head?_cons, Option.any_some, beq_eq_false_iff_ne.mpr plus, beq_eq_false_iff_ne.mpr minus]
        rfl

theorem exponentLength_cons (mark : Char) {sign after : List Char} (signed : IsSign sign)
    (known : ((sign ++ after).head?.any fun c => c == '+' || c == '-') = !sign.isEmpty) :
    Lexer.exponentLength (mark :: (sign ++ after)) =
      if (mark == 'e' || mark == 'E') && Lexer.digitCount after != 0 then
        1 + sign.length + Lexer.digitCount after
      else 0 := by
  rcases signed with rfl | rfl | rfl
  · rw [List.nil_append] at known ⊢
    unfold Lexer.exponentLength
    dsimp only
    split
    · cases known
    · cases known
    · rfl
  · rfl
  · rfl

theorem skipExponent_marked {front sign after : List Char} {mark : Char}
    (cut : text.toList = front ++ mark :: (sign ++ after)) (marked : (mark == 'e' || mark == 'E') = true)
    (signed : IsSign sign)
    (known : ((sign ++ after).head?.any fun c => c == '+' || c == '-') = !sign.isEmpty) :
    skipExponent text (byteLength front) =
      if after.head?.any Char.isDigit then
        byteLength (front ++ mark :: (sign ++ after.takeWhile Char.isDigit))
      else byteLength front := by
  have markNarrow (c : Char) : (c == 'e' || c == 'E') = true → c.toNat < 128 :=
    narrow_of_either (by decide) (by decide)
  have signNarrow (c : Char) : (c == '+' || c == '-') = true → c.toNat < 128 :=
    narrow_of_either (by decide) (by decide)
  have ahead : (if !sign.isEmpty then 2 else 1) = 1 + sign.length := by
    rcases signed with rfl | rfl | rfl <;> rfl
  have narrow : ∀ c ∈ mark :: sign, c.toNat < 128 :=
    List.forall_mem_cons.mpr ⟨markNarrow mark marked, signed.narrow⟩
  have place : byteLength (front ++ mark :: sign) = byteLength front + (1 + sign.length) := by
    rw [Text.byteLength_append_narrow front narrow, List.length_cons, Nat.add_comm 1]
  have further : text.toList = (front ++ mark :: sign) ++ after := cut_after (mark :: sign) cut
  unfold skipExponent
  rw [peek?_any_cut cut markNarrow, List.head?_cons, Option.any_some, if_pos marked,
    peek?_any_after cut (markNarrow mark marked) signNarrow, known]
  dsimp only
  rw [ahead, ← place, peek?_any_cut further fun _ => Text.narrow_of_isDigit, skipDigits_cut further,
    List.append_assoc, List.cons_append]

/-- What is passed over is the mark of an exponent with digits, or nothing. -/
theorem skipExponent_cut {front rest : List Char} (cut : text.toList = front ++ rest) :
    ∃ exponent others e, rest = exponent ++ others ∧ Number.DenotesExponent exponent e ∧
      exponent.length = Lexer.exponentLength rest ∧
      skipExponent text (byteLength front) = byteLength (front ++ exponent) := by
  have unmarked (other : (rest.head?.any fun c => c == 'e' || c == 'E') = false) :
      skipExponent text (byteLength front) = byteLength (front ++ []) := by
    unfold skipExponent
    rw [peek?_any_cut cut fun _ => narrow_of_either (by decide) (by decide), other, List.append_nil]
    rfl
  cases rest with
  | nil => exact ⟨[], [], 0, rfl, .none, rfl, unmarked rfl⟩
  | cons mark rest =>
      obtain ⟨sign, after, rfl, signed, known⟩ := exists_sign rest
      have length := exponentLength_cons mark signed known
      cases marked : mark == 'e' || mark == 'E' with
      | false =>
          rw [marked] at length
          exact ⟨[], _, 0, rfl, .none, length.symm, unmarked marked⟩
      | true =>
          have skipped := skipExponent_marked cut marked signed known
          rw [marked, Bool.true_and] at length
          cases found : after.head?.any Char.isDigit with
          | false =>
              rw [digitCount_eq_zero found] at length
              rw [found] at skipped
              exact ⟨[], _, 0, rfl, .none, length.symm, skipped.trans (by rw [List.append_nil]; rfl)⟩
          | true =>
              rw [if_pos (bne_iff_ne.mpr (digitCount_ne_zero found))] at length
              rw [found] at skipped
              have decimal : ∀ c ∈ after.takeWhile Char.isDigit, c.isDigit :=
                fun c member => List.mem_takeWhile_imp member
              obtain ⟨e, integer⟩ := exists_readInt? signed (takeWhile_filled found) decimal
              refine ⟨mark :: (sign ++ after.takeWhile Char.isDigit), after.dropWhile Char.isDigit, e,
                ?_, .mark ?_ integer, ?_, skipped⟩
              · rw [List.cons_append, List.append_assoc, List.takeWhile_append_dropWhile]
              · exact (Bool.or_eq_true_iff.mp marked).imp eq_of_beq eq_of_beq
              · rw [length, List.length_cons, List.length_append]
                change sign.length + Lexer.digitCount after + 1 = _
                omega

theorem numberLength_eq {rest whole fraction exponent others : List Char}
    (digits : rest.takeWhile Char.isDigit = whole)
    (shape : rest = whole ++ (fraction ++ (exponent ++ others)))
    (part : fraction.length = Lexer.fractionLength (fraction ++ (exponent ++ others)))
    (power : exponent.length = Lexer.exponentLength (exponent ++ others)) :
    Lexer.numberLength rest = (whole ++ (fraction ++ exponent)).length := by
  have counted : Lexer.digitCount rest = whole.length := congrArg List.length digits
  have first : rest.drop whole.length = fraction ++ (exponent ++ others) := by
    rw [shape, List.drop_left]
  have second : rest.drop (whole.length + fraction.length) = exponent ++ others := by
    rw [← List.drop_drop, first, List.drop_left]
  unfold Lexer.numberLength
  dsimp only
  rw [counted, first, ← part, second, ← power, List.length_append, List.length_append, Nat.add_assoc]

theorem number_cut {front rest : List Char} {c : Char} (cut : text.toList = front ++ c :: rest)
    (digit : c.isDigit = true) :
    number text (byteLength front) = .ok ((Lexer.number c rest).1,
      byteLength (front ++ c :: rest.take (Lexer.number c rest).2)) := by
  have begun := skipDigits_cut cut
  rw [List.takeWhile_cons_of_pos digit] at begun
  have decimal : ∀ d ∈ rest.takeWhile Char.isDigit, d.isDigit :=
    fun d member => List.mem_takeWhile_imp member
  have shape := (List.takeWhile_append_dropWhile (p := Char.isDigit) (l := rest)).symm
  generalize digits : rest.takeWhile Char.isDigit = whole at begun decimal shape
  have second : text.toList = (front ++ c :: whole) ++ rest.dropWhile Char.isDigit :=
    cut_after (c :: whole) (by rw [List.cons_append, ← shape, cut])
  obtain ⟨fraction, after, split, pointed, part, skipped⟩ := skipFraction_cut second
  rw [split] at shape part second
  obtain ⟨exponent, others, e, rfl, denotes, power, ended⟩ := skipExponent_cut (cut_after fraction second)
  have length := numberLength_eq digits shape part power
  have taken : rest.take (Lexer.numberLength rest) = whole ++ (fraction ++ exponent) := by
    have spelled : rest = (whole ++ (fraction ++ exponent)) ++ others := by
      rw [shape, List.append_assoc, List.append_assoc]
    rw [length]
    nth_rewrite 1 [spelled]
    exact List.take_left
  have number : ∃ q, Number.DenotesUnsigned (c :: (whole ++ (fraction ++ exponent))) q := by
    have each : ∀ d ∈ c :: whole, d.isDigit := List.forall_mem_cons.mpr ⟨digit, decimal⟩
    rcases pointed with rfl | ⟨part, rfl, decimals⟩
    · exact ⟨_, .integral (List.cons_ne_nil c whole) each denotes⟩
    · exact ⟨_, .pointed (.inl (List.cons_ne_nil c whole)) each decimals denotes⟩
  obtain ⟨q, denotes⟩ := number
  obtain ⟨n, d, read, -⟩ := denotes.read
  have spelled : text.toList = front ++ ((c :: (whole ++ (fraction ++ exponent))) ++ others) := by
    rw [cut, shape]
    simp only [List.cons_append, List.append_assoc]
  have piece := slice_cut spelled
  unfold Lexer.number Scanner.number
  dsimp only
  rw [begun, skipped, ended, taken]
  simp only [List.append_assoc, List.cons_append, piece, ok_bind, read, Option.getD_some]

end

end Scanner

end Emend.Formula
