import Emend.Proofs.Formula.Pieces
import Emend.Proofs.Formula.Tiling

/-!
The scanner and the lexer. The scanner reads from the bytes of a text what the lexer reads from its
characters, and when it has read them it is between characters again. So it takes no piece that begins
or ends inside of a character, and its lexemes are those of the lexer.
-/

set_option autoImplicit false

namespace Emend.Formula
open Emend.Text (byteLength between? leading isBlank isIdentifierStart isIdentifierPart)

namespace Scanner

theorem symbol?_narrow {c : Char} {rest : List Char} {symbol : Symbol} {n : Nat}
    (found : Lexer.symbol? c rest = some (symbol, n)) :
    c.toNat < 128 ∧ ∀ d ∈ rest.take n, d.toNat < 128 := by
  have none : ∀ d ∈ rest.take 0, d.toNat < 128 := nofun
  have second {d : Char} (narrow : d.toNat < 128) (head : rest.head? = some d) :
      ∀ d ∈ rest.take 1, d.toNat < 128 := by
    obtain ⟨others, rfl⟩ := List.head?_eq_some_iff.mp head
    exact fun b member => List.mem_singleton.mp member ▸ narrow
  unfold Lexer.symbol? at found
  split at found
  case h_13 => cases found
  case h_10 | h_11 | h_12 =>
    split at found
    · rename_i doubled
      cases found
      refine ⟨by decide, second ?_ doubled⟩
      decide
    · cases found
      exact ⟨by decide, none⟩
  all_goals
    cases found
    exact ⟨by decide, none⟩

theorem symbol?_wide {c : Char} (wide : 128 ≤ c.toNat) (rest : List Char) :
    Lexer.symbol? c rest = none := by
  cases found : Lexer.symbol? c rest with
  | none => rfl
  | some read => exact absurd (symbol?_narrow found).1 (Nat.not_lt.mpr wide)

theorem head_leading {d : Char} (narrow : d.toNat < 128) (rest : List Char) :
    (rest.head?.map leading).toList.head? = some d ↔ rest.head? = some d := by
  cases rest with
  | nil => rfl
  | cons c rest =>
      have same := Text.leading_decides (p := (· == d)) (fun b same => eq_of_beq same ▸ narrow) c
      simp only [List.head?_cons, Option.map_some, Option.toList_some, Option.some.injEq]
      rw [← beq_iff_eq, same, beq_iff_eq]

theorem symbol?_cut {text : String} {front rest : List Char} {c : Char}
    (cut : text.toList = front ++ c :: rest) :
    Lexer.symbol? (leading c) (peek? text (byteLength front + 1)).toList = Lexer.symbol? c rest := by
  rcases Nat.lt_or_ge c.toNat 128 with narrow | wide
  · rw [← Text.byteLength_push narrow, peek?_cut (cut_after [c] cut), Text.leading_eq narrow]
    unfold Lexer.symbol?
    simp only [head_leading (show '.'.toNat < 128 by decide), head_leading (show '='.toNat < 128 by decide)]
  · rw [symbol?_wide wide, symbol?_wide (Text.le_leading wide)]

/-- The characters that the lexer counts, as the place where the scanner is behind them. -/
def placed {α : Type} (front rest : List Char) : Except ParseError (α × Nat) → Except Stop (α × Nat)
  | .ok (a, n) => .ok (a, byteLength (front ++ rest.take n))
  | .error e => .error (.failure e)

theorem narrow_of_isOctalDigit (c : Char) (octal : Lexer.isOctalDigit c = true) : c.toNat < 128 := by
  have high : c ≤ '7' := of_decide_eq_true (Bool.and_eq_true_iff.mp octal).2
  have code : c.toNat ≤ 55 := high
  omega

theorem narrow_of_isHexDigit (c : Char) (hex : Lexer.isHexDigit c = true) : c.toNat < 128 := by
  unfold Lexer.isHexDigit at hex
  simp only [Bool.or_eq_true, Bool.and_eq_true, decide_eq_true_eq] at hex
  rcases hex with (digit | ⟨-, high⟩) | ⟨-, high⟩
  · exact Text.narrow_of_isDigit digit
  · have code : c.toNat ≤ 102 := high
    omega
  · have code : c.toNat ≤ 70 := high
    omega

section
variable {text : String}

theorem octal_cut {front rest : List Char} (cut : text.toList = front ++ rest) (code most : Nat) :
    octal text (byteLength front) code most =
      (((rest.take most).takeWhile Lexer.isOctalDigit).foldl (fun n d => 8 * n + (d.toNat - 48)) code,
        byteLength (front ++ (rest.take most).takeWhile Lexer.isOctalDigit)) := by
  induction most generalizing front rest code with
  | zero => rw [octal, List.take_zero, List.takeWhile_nil, List.append_nil, List.foldl_nil]
  | succ most ih =>
      rw [octal, peek?_cut cut]
      cases rest with
      | nil => rw [List.take_nil, List.takeWhile_nil, List.append_nil]; rfl
      | cons c rest =>
          rw [List.take_succ_cons]
          dsimp only [List.head?, Option.map]
          rw [Text.leading_decides narrow_of_isOctalDigit]
          by_cases digit : Lexer.isOctalDigit c
          · have narrow := narrow_of_isOctalDigit c digit
            have further := ih (cut_after [c] cut) (8 * code + (c.toNat - 48))
            rw [Text.byteLength_push narrow, List.append_assoc] at further
            rw [if_pos digit, Text.leading_eq narrow, further, List.takeWhile_cons_of_pos digit]
            rfl
          · rw [if_neg digit, List.takeWhile_cons_of_neg digit, List.append_nil]
            rfl

theorem octal_lt {digits : List Char} (octal : ∀ d ∈ digits, Lexer.isOctalDigit d = true) {code k : Nat}
    (small : code < 8 ^ k) :
    digits.foldl (fun n d => 8 * n + (d.toNat - 48)) code < 8 ^ (k + digits.length) := by
  induction digits generalizing code k with
  | nil => exact small
  | cons d digits ih =>
      have first := octal d List.mem_cons_self
      have high : d.toNat ≤ 55 := of_decide_eq_true (p := d ≤ '7') (Bool.and_eq_true_iff.mp first).2
      have next : 8 * code + (d.toNat - 48) < 8 ^ (k + 1) := by
        rw [Nat.pow_succ]
        omega
      have later := ih (fun d member => octal d (List.mem_cons_of_mem _ member)) next
      rwa [List.foldl_cons, List.length_cons, Nat.add_comm digits.length, ← Nat.add_assoc]

theorem all_isHexDigit_cut {front rest : List Char} (cut : text.toList = front ++ rest) (count : Nat) :
    (List.range count).all (fun k => (peek? text (byteLength front + k)).any Lexer.isHexDigit) = true ↔
      (rest.take count).length = count ∧ (rest.take count).all Lexer.isHexDigit = true := by
  induction count generalizing front rest with
  | zero => exact ⟨fun _ => ⟨rfl, rfl⟩, fun _ => rfl⟩
  | succ count ih =>
      have first := peek?_any_cut cut narrow_of_isHexDigit
      rw [List.range_succ_eq_map, List.all_cons, Nat.add_zero, first, List.all_map, Bool.and_eq_true]
      cases rest with
      | nil => simp
      | cons c rest =>
          rw [List.head?_cons, Option.any_some, List.take_succ_cons, List.length_cons, List.all_cons,
            Bool.and_eq_true, Nat.add_right_cancel_iff, and_left_comm]
          refine and_congr_right fun digit => ?_
          have shifted (k : Nat) : byteLength front + k.succ = byteLength (front ++ [c]) + k := by
            rw [Text.byteLength_push (narrow_of_isHexDigit c digit)]
            omega
          simp only [Function.comp_def, shifted]
          exact ih (cut_after [c] cut)

theorem byteLength_opened {front : List Char} {letter : Char} (narrow : letter.toNat < 128) :
    byteLength (front ++ ['\\', letter]) = byteLength front + 2 :=
  Text.byteLength_append_narrow front
    (List.forall_mem_cons.mpr ⟨by decide, fun _ member => List.mem_singleton.mp member ▸ narrow⟩)

section
variable {front rest : List Char} {letter : Char}
  (cut : text.toList = front ++ '\\' :: letter :: rest)
include cut

theorem character_cut {digits after : List Char} (split : rest = digits ++ after) (code : Nat) :
    character text (byteLength front) (byteLength (front ++ ['\\', letter] ++ digits)) code =
      placed (front ++ ['\\']) (letter :: rest)
        (if code.isValidChar then .ok (Char.ofNat code, 1 + digits.length)
        else .error (.invalidEscape (String.ofList ('\\' :: letter :: digits))
          ⟨byteLength front, byteLength (front ++ ['\\', letter] ++ digits)⟩)) := by
  subst split
  unfold character
  split
  · rw [placed, Nat.add_comm 1, List.take_succ_cons, List.take_left]
    simp only [List.append_assoc, List.cons_append, List.nil_append]
  · have spelled : text.toList = front ++ ('\\' :: letter :: digits ++ after) := cut
    have sequence := slice_cut spelled
    rw [placed]
    simp only [List.append_assoc, List.cons_append, List.nil_append] at sequence ⊢
    rw [sequence, ok_bind]

variable (narrow : letter.toNat < 128)
include narrow

/-- What the error of an incomplete escape shows is cut to the end of the text. -/
theorem shown_cut (count : Nat) :
    min (byteLength front + 2 + count) text.utf8ByteSize =
        byteLength front + 2 + min count (byteLength rest) ∧
      between? (byteLength front) (byteLength front + 2 + min count (byteLength rest)) text.toList =
        (between? 0 (min count (byteLength rest)) rest).map (['\\', letter] ++ ·) := by
  have size := size_cut (cut_after ['\\', letter] cut)
  rw [byteLength_opened narrow] at size
  refine ⟨by omega, ?_⟩
  have begun : byteLength ['\\', letter] = 2 := @byteLength_opened [] letter narrow
  have spelled := Text.between?_take ['\\', letter] rest (min count (byteLength rest))
  rw [begun] at spelled
  rw [cut, ← spelled, Nat.add_assoc]
  exact Text.between?_skip front ('\\' :: letter :: rest) 0 (2 + min count (byteLength rest))

theorem hexadecimal_cut (count : Nat) :
    (hexadecimal text (byteLength front) (byteLength front + 2) count >>= fun (code, stop) =>
      character text (byteLength front) stop code) =
      placed (front ++ ['\\']) (letter :: rest)
        (Lexer.hexadecimal (byteLength front) letter count rest) := by
  have opened := @byteLength_opened front letter narrow
  have after : text.toList = (front ++ ['\\', letter]) ++ rest := cut_after ['\\', letter] cut
  have found := all_isHexDigit_cut after count
  rw [opened] at found
  unfold hexadecimal Lexer.hexadecimal
  dsimp only
  by_cases complete : (rest.take count).length = count ∧ (rest.take count).all Lexer.isHexDigit = true
  · obtain ⟨long, hex⟩ := complete
    have digits : ∀ d ∈ rest.take count, d.toNat < 128 :=
      fun d member => narrow_of_isHexDigit d (List.all_eq_true.mp hex d member)
    have stop : byteLength (front ++ ['\\', letter] ++ rest.take count) = byteLength front + 2 + count := by
      rw [Text.byteLength_append_narrow _ digits, opened, long]
    have split : rest = rest.take count ++ rest.drop count := (List.take_append_drop count rest).symm
    have whole : text.toList = (front ++ ['\\', letter]) ++ (rest.take count ++ rest.drop count) := by
      rw [← split, after]
    have inside : byteLength front + 2 + count ≤ text.utf8ByteSize := by
      have size := size_cut (cut_after (rest.take count) whole)
      rw [stop] at size
      omega
    have piece := slice_cut whole
    have made := character_cut cut split
    rw [opened, stop] at piece
    rw [stop, long] at made
    rw [if_pos ⟨inside, found.mpr ⟨long, hex⟩⟩, if_pos ⟨long, hex⟩, piece, ok_bind, ok_bind]
    exact made _
  · obtain ⟨short, sequence⟩ := shown_cut cut narrow count
    rw [if_neg fun both => complete (found.mp both.2), if_neg complete, short, sequence, error_bind,
      placed]
    cases between? 0 (min count (byteLength rest)) rest <;> rfl

end

theorem narrow_of_hexEscape? {c : Char} {count : Nat} (asks : Lexer.hexEscape? c = some count) :
    c.toNat < 128 := by
  unfold Lexer.hexEscape? at asks
  split at asks
  case h_4 => cases asks
  all_goals decide

theorem octalEscape_cut {front rest : List Char} {c : Char}
    (cut : text.toList = front ++ '\\' :: c :: rest) (digit : Lexer.isOctalDigit c = true) :
    (match octal text (byteLength (front ++ ['\\', c])) (c.toNat - 48) 2 with
      | (code, stop) => character text (byteLength front) stop code) =
      placed (front ++ ['\\']) (c :: rest)
        (let digits := c :: (rest.take 2).takeWhile Lexer.isOctalDigit
        .ok (Char.ofNat (digits.foldl (fun n d => 8 * n + (d.toNat - 48)) 0), digits.length)) := by
  rw [octal_cut (cut_after ['\\', c] cut)]
  have others : ∀ d ∈ (rest.take 2).takeWhile Lexer.isOctalDigit, Lexer.isOctalDigit d = true :=
    fun d member => List.mem_takeWhile_imp member
  have short : ((rest.take 2).takeWhile Lexer.isOctalDigit).length ≤ 2 :=
    (List.takeWhile_sublist _).length_le.trans (List.length_take_le 2 rest)
  have taken : rest.take ((rest.take 2).takeWhile Lexer.isOctalDigit).length =
      (rest.take 2).takeWhile Lexer.isOctalDigit :=
    (List.prefix_iff_eq_take.mp ((List.takeWhile_prefix _).trans (List.take_prefix 2 rest))).symm
  generalize (rest.take 2).takeWhile Lexer.isOctalDigit = digits at others short taken
  have all : ∀ d ∈ c :: digits, Lexer.isOctalDigit d = true :=
    List.forall_mem_cons.mpr ⟨digit, others⟩
  have code := octal_lt all (show 0 < 8 ^ 0 by decide)
  have most : 8 ^ (0 + (c :: digits).length) ≤ 8 ^ 3 :=
    Nat.pow_le_pow_right (by decide) (by rw [List.length_cons]; omega)
  rw [List.foldl_cons, Nat.mul_zero, Nat.zero_add] at code
  have valid : (digits.foldl (fun n d => 8 * n + (d.toNat - 48)) (c.toNat - 48)).isValidChar :=
    .inl (code.trans_le (most.trans (by decide)))
  dsimp only
  rw [character, if_pos valid, placed, List.foldl_cons, Nat.mul_zero, Nat.zero_add, List.length_cons,
    List.take_succ_cons, taken]
  simp only [List.append_assoc, List.cons_append, List.nil_append]

theorem escape_cut {front rest : List Char} (cut : text.toList = front ++ '\\' :: rest) :
    escape text (byteLength front) (byteLength front + 1) =
      placed (front ++ ['\\']) rest (Lexer.escape (byteLength front) rest) := by
  have mark : byteLength (front ++ ['\\']) = byteLength front + 1 := Text.byteLength_push (by decide) front
  have following := tail_cut (cut_after ['\\'] cut)
  rw [mark] at following
  unfold escape
  rw [following, ok_bind]
  cases rest with
  | nil => rfl
  | cons c rest =>
      have behind : byteLength front + 1 + c.utf8Size = byteLength (front ++ ['\\'] ++ [c]) := by
        rw [Text.byteLength_append, mark]
        rfl
      dsimp only
      rw [Lexer.escape]
      cases simple : Lexer.simpleEscape? c with
      | some decoded =>
          rw [behind]
          rfl
      | none =>
          cases asks : Lexer.hexEscape? c with
          | some count =>
              have narrow := narrow_of_hexEscape? asks
              have single : byteLength front + 1 + c.utf8Size = byteLength front + 2 := by
                rw [behind, Text.byteLength_push narrow, mark]
              dsimp only
              rw [single]
              exact hexadecimal_cut cut narrow count
          | none =>
              dsimp only
              by_cases digit : Lexer.isOctalDigit c
              · rw [if_pos digit, if_pos digit, behind, List.append_assoc]
                exact octalEscape_cut cut digit
              · rw [if_neg digit, if_neg digit]
                rfl

theorem escape_length_le {offset n : Nat} {rest : List Char} {c : Char}
    (read : Lexer.escape offset rest = .ok (c, n)) : n ≤ rest.length := by
  cases rest with
  | nil => cases read
  | cons d rest =>
      rw [Lexer.escape] at read
      split at read
      · cases read
        exact Nat.succ_le_succ (Nat.zero_le _)
      · rename_i count _ _
        unfold Lexer.hexadecimal at read
        dsimp only at read
        split at read
        · rename_i complete
          have long := List.length_take_le' count rest
          split at read
          · cases read
            rw [List.length_cons]
            omega
          · cases read
        · cases read
      · split at read
        · cases read
          have long := (List.takeWhile_sublist Lexer.isOctalDigit (l := rest.take 2)).length_le.trans
            (List.length_take_le' 2 rest)
          rw [List.length_cons, List.length_cons]
          omega
        · cases read

/-- The induction is on the number of characters that are left: an escape is passed over as a whole. -/
theorem quoted_cut {quote : Char} (narrow : quote.toNat < 128) (opened : Nat) {front rest : List Char}
    (cut : text.toList = front ++ rest) :
    quoted text quote opened (byteLength front) =
      placed front rest (Lexer.quoted quote opened (byteLength front) 0 rest) := by
  induction count : rest.length using Nat.strongRecOn generalizing front rest with
  | ind left ih =>
    rw [quoted, tail_cut cut]
    cases rest with
    | nil => rfl
    | cons c rest =>
        have one := cut_after [c] cut
        have behind : byteLength (front ++ [c]) = byteLength front + c.utf8Size :=
          Text.byteLength_append front [c]
        dsimp only
        rw [Lexer.quoted]
        by_cases closing : c = quote
        · rw [if_pos closing, if_pos closing, ← Text.byteLength_push narrow, ← closing]
          rfl
        · rw [if_neg closing, if_neg closing]
          by_cases escapes : c = '\\'
          · subst escapes
            rw [if_pos rfl, if_pos rfl, escape_cut cut]
            cases read : Lexer.escape (byteLength front) rest with
            | error e => rfl
            | ok made =>
                obtain ⟨decoded, n⟩ := made
                have long := List.length_take_of_le (escape_length_le read)
                have split := List.take_append_drop n rest
                have fewer : (rest.drop n).length < left := by
                  rw [List.length_drop, ← count, List.length_cons]
                  omega
                have later : text.toList = (front ++ ['\\'] ++ rest.take n) ++ rest.drop n :=
                  cut_after _ (by rw [split, one])
                have further := ih _ fewer later rfl
                have skip := Lexer.quoted_skip quote opened (byteLength front + 1) (rest.take n) (rest.drop n)
                rw [split, long] at skip
                have slash : '\\'.utf8Size = 1 := rfl
                rw [slash] at behind
                rw [Text.byteLength_append, behind] at further
                simp only [placed, Text.byteLength_append, behind, further, skip, ok_bind]
                cases Lexer.quoted quote opened (byteLength front + 1 + byteLength (rest.take n)) 0
                    (rest.drop n) with
                | error e => rfl
                | ok made =>
                    obtain ⟨cs, m⟩ := made
                    have whole : byteLength front + 1 + byteLength (rest.take n) +
                        byteLength ((rest.drop n).take m) =
                        byteLength front + byteLength (('\\' :: rest).take (m + n + 1)) := by
                      rw [List.take_succ_cons, byteLength, slash, Nat.add_comm m, List.take_add,
                        Text.byteLength_append]
                      omega
                    exact congrArg (fun stop => Except.ok (decoded :: cs, stop)) whole
          · have further := ih rest.length (count ▸ Nat.lt_succ_self _) one rfl
            rw [behind] at further
            rw [if_neg escapes, if_neg escapes, further]
            cases Lexer.quoted quote opened (byteLength front + c.utf8Size) 0 rest with
            | error e => rfl
            | ok made =>
                simp only [placed, ok_bind, List.append_assoc, List.take_succ_cons, List.singleton_append]

end

section
variable {text : String} {front rest : List Char} {c : Char} (cut : text.toList = front ++ c :: rest)
include cut

theorem name_cut (start : isIdentifierStart c = true) :
    name text (byteLength front) =
      .ok (Lexer.word (String.ofList (c :: rest.takeWhile isIdentifierPart)),
        byteLength (front ++ [c] ++ rest.takeWhile isIdentifierPart)) := by
  have taken : (c :: rest).takeWhile isIdentifierPart = c :: rest.takeWhile isIdentifierPart :=
    List.takeWhile_cons_of_pos (Text.isIdentifierPart_of_start start)
  have split : (c :: rest.takeWhile isIdentifierPart) ++ rest.dropWhile isIdentifierPart = c :: rest := by
    rw [List.cons_append, List.takeWhile_append_dropWhile]
  have piece := slice_cut (cut.trans (congrArg (front ++ ·) split.symm))
  unfold name
  rw [tail_cut cut, ok_bind, taken, ← Text.byteLength_append]
  dsimp only
  rw [piece, ok_bind, List.append_assoc]
  rfl

/-- A token begins with the first byte of its first character, and the scanner ends where the lexer
says that it ends. -/
theorem token_cut :
    token text (byteLength front) (leading c) =
      placed (front ++ [c]) rest (Lexer.token (byteLength front) c rest) := by
  unfold token Lexer.token
  rw [symbol?_cut cut]
  cases found : Lexer.symbol? c rest with
  | some read =>
      obtain ⟨symbol, n⟩ := read
      obtain ⟨first, others⟩ := symbol?_narrow found
      rw [placed, Text.byteLength_append_narrow _ others, Text.byteLength_push first,
        List.length_take_of_le (Lexer.symbol?_length_le found)]
  | none =>
      have quotes (d : Char) (narrow : d.toNat < 128) : leading c = d ↔ c = d := by
        rw [← beq_iff_eq, Text.leading_decides (p := (· == d)) fun b same => eq_of_beq same ▸ narrow,
          beq_iff_eq]
      dsimp only
      rw [Text.leading_decides fun _ => Text.narrow_of_isDigit]
      simp only [quotes '"' (by decide), quotes '\x27' (by decide)]
      by_cases digit : c.isDigit
      · rw [if_pos digit, if_pos digit, number_cut cut digit]
        simp only [placed, List.append_assoc, List.singleton_append]
      · rw [if_neg digit, if_neg digit]
        by_cases mark : c = '"' ∨ c = '\x27'
        · have narrow : c.toNat < 128 := by rcases mark with rfl | rfl <;> decide
          have inside := quoted_cut narrow (byteLength front) (cut_after [c] cut)
          rw [Text.byteLength_push narrow] at inside
          rw [if_pos mark, if_pos mark, Text.leading_eq narrow, inside]
          cases Lexer.quoted c (byteLength front) (byteLength front + 1) 0 rest <;> rfl
        · rw [if_neg mark, if_neg mark, tail_cut cut, ok_bind]
          by_cases start : isIdentifierStart c
          · rw [if_pos start, placed, ← List.prefix_iff_eq_take.mp (List.takeWhile_prefix _)]
            exact (if_pos start).trans (name_cut cut start)
          · rw [if_neg start]
            exact if_neg start

end

theorem lexemesFrom_blanks {blanks : List Char} (blank : ∀ c ∈ blanks, isBlank c) (offset : Nat)
    (rest : List Char) : Lexer.lexemesFrom offset 0 (blanks ++ rest) =
      Lexer.lexemesFrom (offset + byteLength blanks) 0 rest := by
  induction blanks generalizing offset with
  | nil => rfl
  | cons c blanks ih =>
      obtain ⟨first, others⟩ := List.forall_mem_cons.mp blank
      rw [List.cons_append, Lexer.lexemesFrom, if_pos first, ih others, byteLength, Nat.add_assoc]

/-- The lexemes that the lexer finds, and the end of the text. -/
def outcome (stop : Nat) : Lexed → Except Stop (List Lexeme × Nat)
  | ⟨lexemes, none⟩ => .ok (lexemes, stop)
  | ⟨_, some e⟩ => .error (.failure e)

/-- The induction is on the number of characters that are left. -/
theorem lexemes_cut {text : String} {front rest : List Char} (cut : text.toList = front ++ rest) :
    lexemes text (byteLength front) =
      outcome text.utf8ByteSize (Lexer.lexemesFrom (byteLength front) 0 rest) := by
  induction count : rest.length using Nat.strongRecOn generalizing front rest with
  | ind left ih =>
    have split := (List.takeWhile_append_dropWhile (p := isBlank) (l := rest)).symm
    have blank : ∀ c ∈ rest.takeWhile isBlank, isBlank c := fun c member => List.mem_takeWhile_imp member
    have begun := skipBlanks_cut cut
    generalize rest.takeWhile isBlank = blanks at split blank begun
    have solid := List.head?_dropWhile_not isBlank rest
    generalize rest.dropWhile isBlank = others at split solid
    subst split
    have after := cut_after blanks cut
    rw [lexemesFrom_blanks blank, ← Text.byteLength_append]
    cases others with
    | nil =>
        have ended : next text (byteLength front) = .ok (none, text.utf8ByteSize) := by
          unfold next
          rw [begun, ok_bind, peek?_cut after, size_cut after]
          rfl
        rw [lexemes, ended]
        rfl
    | cons c others =>
        have read : next text (byteLength front) =
            (placed (front ++ blanks ++ [c]) others (Lexer.token (byteLength (front ++ blanks)) c others)).map
              fun made => (some ⟨made.1, byteLength (front ++ blanks), made.2⟩, made.2) := by
          unfold next
          rw [begun, ok_bind, peek?_cut after, List.head?_cons, Option.map_some]
          dsimp only
          rw [token_cut after]
          cases placed _ _ (Lexer.token (byteLength (front ++ blanks)) c others) <;> rfl
        have dark : ¬ isBlank c := by simpa using solid
        rw [lexemes, read, Lexer.lexemesFrom, if_neg dark]
        cases made : Lexer.token (byteLength (front ++ blanks)) c others with
        | error e => rfl
        | ok result =>
            obtain ⟨t, n⟩ := result
            have long := List.length_take_of_le (Lexer.token_length_le made)
            have split := List.take_append_drop n others
            have later : text.toList = (front ++ blanks ++ [c] ++ others.take n) ++ others.drop n :=
              cut_after _ (by rw [split, cut_after [c] after])
            have fewer : (others.drop n).length < left := by
              rw [← count, List.length_append, List.length_cons, List.length_drop]
              omega
            have further := ih _ fewer later rfl
            have skip := Lexer.lexemesFrom_skip (byteLength (front ++ blanks) + c.utf8Size) (others.take n)
              (others.drop n)
            rw [split, long] at skip
            have stop : byteLength (front ++ blanks ++ [c] ++ others.take n) =
                byteLength (front ++ blanks) + c.utf8Size + byteLength (others.take n) := by
              rw [Text.byteLength_append, Text.byteLength_append _ [c]]
              rfl
            have last : byteLength (front ++ blanks) + byteLength (c :: others.take n) =
                byteLength (front ++ blanks ++ [c] ++ others.take n) := by
              rw [stop, byteLength, Nat.add_assoc]
            rw [stop] at further
            dsimp only [placed, Except.map]
            rw [skip, last, stop, further]
            obtain ⟨found, failure⟩ := Lexer.lexemesFrom
              (byteLength (front ++ blanks) + c.utf8Size + byteLength (others.take n)) 0 (others.drop n)
            cases failure <;> rfl

end Scanner

/-- The scanner takes every piece of a text between two characters. It finds the lexemes that the lexer
finds and ends at the end of the text, or it fails as the lexer does. -/
theorem scan_eq (text : String) : scan text =
    match tokenize text with
    | .ok lexemes => .ok (lexemes, text.utf8ByteSize)
    | .error e => .error (.failure e) := by
  have whole := Scanner.lexemes_cut (List.nil_append text.toList).symm
  unfold scan tokenize Lexed.ofText
  rw [byteLength] at whole
  rw [whole]
  obtain ⟨found, failure⟩ := Lexer.lexemesFrom 0 0 text.toList
  cases failure <;> rfl

/-- The scanner never takes a piece that begins or ends inside of a character. Either it ends at the end
of the text, and its lexemes and the blanks around them tile the text, or it fails with an error that
points to characters of the text. -/
theorem scan_tiling (text : String) :
    (∀ start stop, scan text ≠ .error (.torn start stop)) ∧
    ((∃ lexemes, scan text = .ok (lexemes, text.utf8ByteSize) ∧
      Tiles 0 text.toList lexemes text.utf8ByteSize ∧ Tiling text lexemes) ∨
    ∃ e, scan text = .error (.failure e) ∧
      e.span.start < e.span.stop ∧ e.span.stop ≤ text.utf8ByteSize) := by
  rw [scan_eq]
  rcases tokenize_tiling text with ⟨lexemes, read, tiles, tiling⟩ | ⟨e, failed, filled, below⟩
  · rw [read]
    exact ⟨fun _ _ => nofun, .inl ⟨lexemes, rfl, tiles, tiling⟩⟩
  · rw [failed]
    exact ⟨fun _ _ => nofun, .inr ⟨e, rfl, filled, below⟩⟩

/-- The backslash asks for two digits, the second of which would begin inside of a character. -/
example : (match scan "'\\x4é'" with
    | .error (.failure e) => some e
    | _ => none) = some (.invalidEscape "\\" ⟨1, 5⟩) := by
  decide +kernel

end Emend.Formula
