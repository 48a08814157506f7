import Emend.Formula.Lexer
import Emend.Proofs.Text.Bytes
import Emend.Proofs.Except
import Mathlib

/-!
Lexemes and blanks tile a text. The reader goes through the text from its first character to its last
one; what it passes over is blank, and what it takes for a lexeme begins where the lexeme's span starts
and ends where the span stops. Where it fails, it points into the text.
-/

set_option autoImplicit false

namespace Emend.Formula
open Emend.Text (byteLength isBlank)

namespace Lexer

theorem digitCount_le (cs : List Char) : digitCount cs ≤ cs.length := (List.takeWhile_sublist _).length_le

theorem fractionLength_le (cs : List Char) : fractionLength cs ≤ cs.length := by
  unfold fractionLength
  split
  · rename_i rest
    have := digitCount_le rest
    rw [List.length_cons]
    split <;> omega
  · exact Nat.zero_le _

theorem exponentLength_le (cs : List Char) : exponentLength cs ≤ cs.length := by
  have bounded (marked : Bool) (sign : Nat) (rest : List Char) :
      (if marked && digitCount (rest.drop sign) != 0 then 1 + sign + digitCount (rest.drop sign) else 0) ≤
        rest.length + 1 := by
    have digits := digitCount_le (rest.drop sign)
    rw [List.length_drop] at digits
    split
    · rename_i both
      have some : digitCount (rest.drop sign) ≠ 0 := by simpa using (Bool.and_eq_true_iff.mp both).2
      omega
    · exact Nat.zero_le _
  cases cs with
  | nil => exact Nat.le_refl _
  | cons mark rest =>
      unfold exponentLength
      dsimp only
      split <;> exact bounded _ _ _

theorem numberLength_le (rest : List Char) : numberLength rest ≤ rest.length := by
  have whole := digitCount_le rest
  have part := fractionLength_le (rest.drop (digitCount rest))
  have exponent :=
    exponentLength_le (rest.drop (digitCount rest + fractionLength (rest.drop (digitCount rest))))
  rw [List.length_drop] at part exponent
  unfold numberLength
  dsimp only
  omega

theorem quoted_length_le {quote : Char} {opened offset skip n : Nat} {cs text : List Char}
    (success : quoted quote opened offset skip cs = .ok (text, n)) : n ≤ cs.length := by
  induction offset, skip, cs using quoted.induct quote generalizing text n with
  | case1 => cases success
  | case2 offset skip c rest ih =>
      rw [quoted] at success
      obtain ⟨⟨_, m⟩, first, success⟩ := of_bind_ok success
      cases success
      exact Nat.succ_le_succ (ih first)
  | case3 offset rest =>
      rw [quoted, if_pos rfl] at success
      cases success
      exact Nat.succ_le_succ (Nat.zero_le _)
  | case4 offset rest unclosed ih =>
      rw [quoted, if_neg unclosed, if_pos rfl] at success
      obtain ⟨⟨decoded, length⟩, -, success⟩ := of_bind_ok success
      obtain ⟨⟨_, m⟩, later, success⟩ := of_bind_ok success
      cases success
      exact Nat.succ_le_succ (ih length later)
  | case5 offset c rest unclosed plain ih =>
      rw [quoted, if_neg unclosed, if_neg plain] at success
      obtain ⟨⟨_, m⟩, first, success⟩ := of_bind_ok success
      cases success
      exact Nat.succ_le_succ (ih first)

theorem symbol?_length_le {c : Char} {rest : List Char} {symbol : Symbol} {n : Nat}
    (found : symbol? c rest = some (symbol, n)) : n ≤ rest.length := by
  have second {d : Char} (doubled : rest.head? = some d) : 1 ≤ rest.length := by
    cases rest with
    | nil => cases doubled
    | cons d rest => exact Nat.succ_le_succ (Nat.zero_le _)
  unfold symbol? at found
  split at found
  all_goals first
    | (cases found; exact Nat.zero_le _)
    | (split at found
       · rename_i doubled
         cases found
         exact second doubled
       · cases found
         exact Nat.zero_le _)
    | cases found

theorem token_length_le {offset n : Nat} {c : Char} {rest : List Char} {t : Token}
    (read : token offset c rest = .ok (t, n)) : n ≤ rest.length := by
  unfold token at read
  split at read
  · rename_i found
    cases read
    exact symbol?_length_le found
  · split at read
    · cases read
      exact numberLength_le rest
    · split at read
      · obtain ⟨⟨_, m⟩, first, read⟩ := of_bind_ok read
        cases read
        exact quoted_length_le first
      · split at read
        · cases read
          exact (List.takeWhile_sublist _).length_le
        · cases read

end Lexer

/-- The characters from one byte to another one are these lexemes, each read from its own characters,
with blanks around them. -/
inductive Tiles : Nat → List Char → List Lexeme → Nat → Prop where
  | done (offset : Nat) : Tiles offset [] [] offset
  | blank {offset stop : Nat} {c : Char} {rest : List Char} {lexemes : List Lexeme}
      (space : isBlank c = true) (after : Tiles (offset + c.utf8Size) rest lexemes stop) :
      Tiles offset (c :: rest) lexemes stop
  | lexeme {offset stop : Nat} {c : Char} {following rest : List Char} {token : Token}
      {lexemes : List Lexeme}
      (read : Lexer.token offset c (following ++ rest) = .ok (token, following.length))
      (after : Tiles (offset + byteLength (c :: following)) rest lexemes stop) :
      Tiles offset (c :: following ++ rest)
        (⟨token, offset, offset + byteLength (c :: following)⟩ :: lexemes) stop

namespace Lexer

theorem quoted_skip (quote : Char) (opened offset : Nat) (skipped rest : List Char) :
    quoted quote opened offset skipped.length (skipped ++ rest) =
      (quoted quote opened (offset + byteLength skipped) 0 rest).map fun (text, n) =>
        (text, n + skipped.length) := by
  induction skipped generalizing offset with
  | nil =>
      change _ = Except.map id _
      rw [Except.map_id]
      rfl
  | cons c skipped ih =>
      rw [List.cons_append, List.length_cons, quoted, ih, byteLength, Nat.add_assoc]
      cases quoted quote opened (offset + (c.utf8Size + byteLength skipped)) 0 rest <;> rfl

theorem lexemesFrom_skip (offset : Nat) (skipped rest : List Char) :
    lexemesFrom offset skipped.length (skipped ++ rest) =
      lexemesFrom (offset + byteLength skipped) 0 rest := by
  induction skipped generalizing offset with
  | nil => rfl
  | cons c skipped ih =>
      rw [List.cons_append, List.length_cons, lexemesFrom, ih, byteLength, Nat.add_assoc]

/-- Whatever belongs to a lexeme already read is passed over, and the rest is tiled. -/
theorem tiles_lexemesFrom (offset skip : Nat) (cs : List Char)
    (success : (lexemesFrom offset skip cs).failure = none) :
    Tiles (offset + byteLength (cs.take skip)) (cs.drop skip) (lexemesFrom offset skip cs).lexemes
      (offset + byteLength cs) := by
  induction offset, skip, cs using lexemesFrom.induct with
  | case1 skip offset => simpa [lexemesFrom, byteLength] using .done offset
  | case2 offset skip c rest ih =>
      rw [lexemesFrom] at success ⊢
      simpa only [List.take_succ_cons, List.drop_succ_cons, byteLength, Nat.add_assoc] using ih success
  | case3 offset c rest space ih =>
      rw [lexemesFrom, if_pos space] at success ⊢
      refine .blank space ?_
      simpa only [List.take_zero, List.drop_zero, byteLength, Nat.add_zero, Nat.add_assoc] using ih success
  | case4 offset c rest solid failure failed =>
      rw [lexemesFrom, if_neg solid, failed] at success
      cases success
  | case5 offset c rest solid t n read ih =>
      rw [lexemesFrom, if_neg solid, read] at success ⊢
      have after := ih success
      simp only [byteLength, List.take_zero, List.drop_zero, Nat.add_zero, Nat.add_assoc] at after ⊢
      have split : c :: rest = c :: rest.take n ++ rest.drop n := by
        rw [List.cons_append, List.take_append_drop]
      have whole : token offset c (rest.take n ++ rest.drop n) = .ok (t, (rest.take n).length) := by
        rw [List.take_append_drop, read, List.length_take_of_le (token_length_le read)]
      rw [split]
      exact .lexeme whole after

end Lexer

/-- The error names characters between two bytes. -/
structure PointsInto (first last : Nat) (e : ParseError) : Prop where
  above : first ≤ e.span.start
  filled : e.span.start < e.span.stop
  below : e.span.stop ≤ last

theorem PointsInto.of_span {first last start stop : Nat} {e : ParseError} (span : e.span = ⟨start, stop⟩)
    (above : first ≤ start) (filled : start < stop) (below : stop ≤ last) :
    PointsInto first last e :=
  ⟨span ▸ above, span ▸ filled, span ▸ below⟩

theorem PointsInto.mono {first last first' last' : Nat} {e : ParseError}
    (points : PointsInto first last e) (above : first' ≤ first) (below : last ≤ last') :
    PointsInto first' last' e :=
  ⟨above.trans points.above, points.filled, points.below.trans below⟩

namespace Lexer

theorem hexadecimal_points {offset count : Nat} {letter : Char} {rest : List Char} {e : ParseError}
    (failure : hexadecimal offset letter count rest = .error e) :
    PointsInto offset (offset + 2 + byteLength rest) e := by
  unfold hexadecimal at failure
  dsimp only at failure
  split at failure
  · rename_i complete
    have digits := Text.length_le_byteLength (rest.take count)
    have cut := Text.byteLength_append (rest.take count) (rest.drop count)
    rw [List.take_append_drop] at cut
    split at failure
    · cases failure
    · cases failure
      exact .of_span rfl (Nat.le_refl _) (by omega) (by omega)
  · cases failure
    exact .of_span rfl (Nat.le_refl _) (by omega) (by omega)

theorem escape_points {offset : Nat} {cs : List Char} {e : ParseError}
    (failure : escape offset cs = .error e) : PointsInto offset (offset + 1 + byteLength cs) e := by
  cases cs with
  | nil =>
      cases failure
      exact .of_span rfl (Nat.le_refl _) (Nat.lt_succ_self _) (Nat.le_refl _)
  | cons c rest =>
      have size := c.utf8Size_pos
      rw [byteLength]
      rw [escape] at failure
      split at failure
      · cases failure
      · exact (hexadecimal_points failure).mono (Nat.le_refl _) (by omega)
      · split at failure
        · cases failure
        · cases failure
          exact .of_span rfl (Nat.le_refl _) (by omega) (by omega)

/-- A text that cannot be read points to what was read of it, or to an escape in it. -/
theorem quoted_points {quote : Char} {opened offset skip : Nat} {cs : List Char} {e : ParseError}
    (ahead : opened < offset) (failure : quoted quote opened offset skip cs = .error e) :
    PointsInto opened (offset + byteLength cs) e := by
  induction offset, skip, cs using quoted.induct quote with
  | case1 skip offset =>
      cases failure
      exact .of_span rfl (Nat.le_refl _) ahead (Nat.le_refl _)
  | case2 offset skip c rest ih =>
      rw [quoted] at failure
      rcases of_bind_error failure with first | ⟨_, -, second⟩
      · rw [byteLength, ← Nat.add_assoc]
        exact ih (by omega) first
      · cases second
  | case3 offset rest =>
      rw [quoted, if_pos rfl] at failure
      cases failure
  | case4 offset rest unclosed ih =>
      rw [quoted, if_neg unclosed, if_pos rfl] at failure
      have size : '\\'.utf8Size = 1 := rfl
      rw [byteLength, size, ← Nat.add_assoc]
      rcases of_bind_error failure with first | ⟨escaped, -, second⟩
      · exact (escape_points first).mono ahead.le (Nat.le_refl _)
      rcases of_bind_error second with first | ⟨_, -, last⟩
      · exact ih escaped.2 (by omega) first
      · cases last
  | case5 offset c rest unclosed plain ih =>
      rw [quoted, if_neg unclosed, if_neg plain] at failure
      rcases of_bind_error failure with first | ⟨_, -, second⟩
      · rw [byteLength, ← Nat.add_assoc]
        exact ih (by omega) first
      · cases second

theorem token_points {offset : Nat} {c : Char} {rest : List Char} {e : ParseError}
    (failure : token offset c rest = .error e) :
    PointsInto offset (offset + byteLength (c :: rest)) e := by
  unfold token at failure
  split at failure
  · cases failure
  · rw [byteLength]
    have size := c.utf8Size_pos
    split at failure
    · cases failure
    split at failure
    · rcases of_bind_error failure with first | ⟨_, -, second⟩
      · exact (quoted_points (Nat.lt_succ_self _) first).mono (Nat.le_refl _) (by omega)
      · cases second
    · split at failure
      · cases failure
      · cases failure
        exact .of_span rfl (Nat.le_refl _) (by omega) (by omega)

theorem lexemesFrom_points {offset skip : Nat} {cs : List Char} {e : ParseError}
    (failure : (lexemesFrom offset skip cs).failure = some e) :
    PointsInto offset (offset + byteLength cs) e := by
  induction offset, skip, cs using lexemesFrom.induct with
  | case1 => cases failure
  | case2 offset skip c rest ih =>
      rw [lexemesFrom] at failure
      rw [byteLength, ← Nat.add_assoc]
      exact (ih failure).mono (Nat.le_add_right _ _) (Nat.le_refl _)
  | case3 offset c rest space ih =>
      rw [lexemesFrom, if_pos space] at failure
      rw [byteLength, ← Nat.add_assoc]
      exact (ih failure).mono (Nat.le_add_right _ _) (Nat.le_refl _)
  | case4 offset c rest solid e' failed =>
      rw [lexemesFrom, if_neg solid, failed] at failure
      cases failure
      exact token_points failed
  | case5 offset c rest solid token n read ih =>
      rw [lexemesFrom, if_neg solid, read] at failure
      rw [byteLength, ← Nat.add_assoc]
      exact (ih failure).mono (Nat.le_add_right _ _) (Nat.le_refl _)

end Lexer

section
variable {offset stop : Nat} {cs : List Char} {lexemes : List Lexeme}

theorem Tiles.le_start (tiles : Tiles offset cs lexemes stop) :
    ∀ t ∈ lexemes, offset ≤ t.span.start := by
  induction tiles with
  | done offset => exact fun t member => absurd member List.not_mem_nil
  | blank space after ih => exact fun t member => (Nat.le_add_right _ _).trans (ih t member)
  | lexeme read after ih =>
      intro t member
      rcases List.mem_cons.mp member with rfl | later
      · exact Nat.le_refl _
      · exact (Nat.le_add_right _ _).trans (ih t later)

theorem Tiles.filled (tiles : Tiles offset cs lexemes stop) :
    ∀ t ∈ lexemes, t.span.start < t.span.stop := by
  induction tiles with
  | done offset => exact fun t member => absurd member List.not_mem_nil
  | blank space after ih => exact ih
  | @lexeme offset stop c following rest token lexemes read after ih =>
      intro t member
      rcases List.mem_cons.mp member with rfl | later
      · have size := c.utf8Size_pos
        change offset < offset + (c.utf8Size + byteLength following)
        omega
      · exact ih t later

theorem Tiles.ordered (tiles : Tiles offset cs lexemes stop) :
    lexemes.Pairwise fun t u => t.span.stop ≤ u.span.start := by
  induction tiles with
  | done offset => exact .nil
  | blank space after ih => exact ih
  | lexeme read after ih => exact .cons after.le_start ih

theorem Tiles.spelled (tiles : Tiles offset cs lexemes stop) : ∀ t ∈ lexemes,
    ∃ before c following after, cs = before ++ c :: following ++ after ∧
      t.span.start = offset + byteLength before ∧
      t.span.stop = offset + byteLength (before ++ c :: following) ∧
      Lexer.token t.span.start c (following ++ after) = .ok (t.token, following.length) := by
  induction tiles with
  | done offset => exact fun t member => absurd member List.not_mem_nil
  | @blank offset stop b rest lexemes space after ih =>
      intro t member
      obtain ⟨before, c, following, behind, rfl, start, stop, read⟩ := ih t member
      refine ⟨b :: before, c, following, behind, rfl, ?_, ?_, read⟩
      · rw [start, byteLength, Nat.add_assoc]
      · rw [stop, List.cons_append, byteLength, Nat.add_assoc]
  | @lexeme offset stop b others rest token lexemes read after ih =>
      intro t member
      rcases List.mem_cons.mp member with rfl | later
      · exact ⟨[], b, others, rest, rfl, rfl, rfl, read⟩
      · obtain ⟨before, c, following, behind, rfl, start, stop, read⟩ := ih t later
        refine ⟨b :: others ++ before, c, following, behind, by simp, ?_, ?_, read⟩
        · rw [start, Text.byteLength_append, Nat.add_assoc]
        · rw [stop, List.append_assoc, Text.byteLength_append (b :: others), Nat.add_assoc]

theorem Tiles.cut (tiles : Tiles offset cs lexemes stop) : ∀ t ∈ lexemes, ∃ before piece after,
    cs = before ++ piece ++ after ∧ t.span.start = offset + byteLength before ∧
      t.span.stop = offset + byteLength (before ++ piece) := by
  intro t member
  obtain ⟨before, c, following, after, place, start, stop, -⟩ := tiles.spelled t member
  exact ⟨before, c :: following, after, place, start, stop⟩

/-- Whatever is not blank is inside a lexeme. -/
theorem Tiles.covers (tiles : Tiles offset cs lexemes stop) {before after : List Char} {c : Char}
    (place : cs = before ++ c :: after) (solid : isBlank c = false) :
    ∃ t ∈ lexemes, t.span.start ≤ offset + byteLength before ∧
      offset + byteLength before + c.utf8Size ≤ t.span.stop := by
  induction tiles generalizing before with
  | done offset => exact absurd place (by simp)
  | @blank offset stop b rest lexemes space tiles ih =>
      cases before with
      | nil =>
          cases place
          rw [space] at solid
          cases solid
      | cons _ before =>
          cases place
          obtain ⟨t, member, start, stop⟩ := ih rfl
          rw [byteLength, ← Nat.add_assoc]
          exact ⟨t, member, start, stop⟩
  | @lexeme offset stop b following rest token lexemes read tiles ih =>
      rcases List.append_eq_append_iff.mp place with ⟨more, rfl, later⟩ | ⟨more, inside, later⟩
      · obtain ⟨t, member, start, stop⟩ := ih later
        rw [Text.byteLength_append, ← Nat.add_assoc]
        exact ⟨t, List.mem_cons_of_mem _ member, start, stop⟩
      · cases more with
        | nil =>
            rw [List.append_nil] at inside
            have first : rest = [] ++ c :: after := later.symm
            obtain ⟨t, member, start, stop⟩ := ih first
            rw [← inside]
            exact ⟨t, List.mem_cons_of_mem _ member, start, stop⟩
        | cons d more =>
            cases later
            refine ⟨_, List.mem_cons_self, Nat.le_add_right _ _, ?_⟩
            change _ ≤ offset + byteLength (b :: following)
            rw [inside, Text.byteLength_append, byteLength]
            omega

end

/-- The spans of the lexemes of a text. -/
structure Tiling (text : String) (lexemes : List Lexeme) : Prop where
  /-- No lexeme is empty. -/
  filled : ∀ t ∈ lexemes, t.span.start < t.span.stop
  /-- They follow one another without overlap. -/
  ordered : lexemes.Pairwise fun t u => t.span.stop ≤ u.span.start
  /-- Both ends of a lexeme fall between characters. -/
  cut : ∀ t ∈ lexemes, ∃ before piece after, text.toList = before ++ piece ++ after ∧
    t.span.start = byteLength before ∧ t.span.stop = byteLength (before ++ piece)
  /-- A character outside of all lexemes is blank. -/
  covers : ∀ before c after, text.toList = before ++ c :: after → isBlank c = false →
    ∃ t ∈ lexemes, t.span.start ≤ byteLength before ∧ byteLength before + c.utf8Size ≤ t.span.stop

theorem Tiles.tiling {text : String} {lexemes : List Lexeme} {stop : Nat}
    (tiles : Tiles 0 text.toList lexemes stop) : Tiling text lexemes where
  filled := tiles.filled
  ordered := tiles.ordered
  cut := by simpa only [Nat.zero_add] using tiles.cut
  covers before c after place solid := by simpa only [Nat.zero_add] using tiles.covers place solid

/-- A text is read to its end, and its lexemes and the blanks around them tile it; or it is not read,
and the error points to characters of the text. -/
theorem tokenize_tiling (text : String) :
    (∃ lexemes, tokenize text = .ok lexemes ∧
      Tiles 0 text.toList lexemes text.utf8ByteSize ∧ Tiling text lexemes) ∨
    ∃ e, tokenize text = .error e ∧ e.span.start < e.span.stop ∧ e.span.stop ≤ text.utf8ByteSize := by
  rw [Text.utf8ByteSize_eq_byteLength]
  unfold tokenize
  cases read : Lexed.ofText text with
  | mk lexemes failure =>
      cases failure with
      | none =>
          have success : (Lexer.lexemesFrom 0 0 text.toList).failure = none := congrArg _ read
          have shown : (Lexer.lexemesFrom 0 0 text.toList).lexemes = lexemes := congrArg _ read
          have tiles := Lexer.tiles_lexemesFrom 0 0 text.toList success
          rw [shown, List.take_zero, List.drop_zero, byteLength, Nat.zero_add, Nat.zero_add] at tiles
          exact .inl ⟨lexemes, rfl, tiles, tiles.tiling⟩
      | some e =>
          have failed : (Lexer.lexemesFrom 0 0 text.toList).failure = some e := congrArg _ read
          have points := Lexer.lexemesFrom_points failed
          rw [Nat.zero_add] at points
          exact .inr ⟨e, rfl, points.filled, points.below⟩

end Emend.Formula
