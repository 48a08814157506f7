import Emend.Proofs.Formula.Names
import Emend.Proofs.Formula.Tiling

/-!
Names read back. A formula that is nothing but a dotted name has the value of the variable of that
name, however many segments the name has: the lexer cuts it at its dots, the reader joins the
segments to one path, and the longest beginning of the path that the scope knows is the whole of it.
A name of one segment may also be called without arguments.
-/

set_option autoImplicit false

namespace Emend.Formula
open Emend.Text (Span byteLength isBlank isIdentifierStart isIdentifierPart)

def isSegment (s : String) : Bool :=
  match s.toList with
  | first :: following =>
    isIdentifierStart first && following.all isIdentifierPart && (Keyword.ofSpelling? s).isNone
  | [] => false

/-- The segments of a name, the first of which is no named constant. -/
def isPath : List String → Bool
  | head :: tail => (Literal.ofName? head).isNone && (head :: tail).all isSegment
  | [] => false

theorem isBlank_of_part {c : Char} (part : isIdentifierPart c = true) : isBlank c = false := by
  by_contra blank
  rw [Text.isIdentifierPart_of_isBlank ((Bool.not_eq_false _).mp blank)] at part
  cases part

theorem exists_of_isSegment {s : String} (segment : isSegment s = true) :
    ∃ first following, s.toList = first :: following ∧ isIdentifierStart first = true ∧
      (∀ c ∈ following, isIdentifierPart c = true) ∧ Keyword.ofSpelling? s = none := by
  unfold isSegment at segment
  match s.toList, segment with
  | first :: following, segment =>
    simp only [Bool.and_eq_true, List.all_eq_true, Option.isNone_iff_eq_none] at segment
    exact ⟨first, following, rfl, segment.1.1, segment.1.2, segment.2⟩

theorem exists_of_isPath {path : List String} (named : isPath path = true) :
    ∃ head tail, path = head :: tail ∧ Literal.ofName? head = none ∧
      ∀ s ∈ head :: tail, isSegment s = true := by
  match path, named with
  | head :: tail, named =>
    unfold isPath at named
    simp only [Bool.and_eq_true, Option.isNone_iff_eq_none, List.all_eq_true] at named
    exact ⟨head, tail, rfl, named.1, named.2⟩

namespace Lexer

theorem symbol?_of_start {c : Char} (start : isIdentifierStart c = true) (rest : List Char) :
    symbol? c rest = none := by
  unfold symbol?
  split
  all_goals first
    | exact absurd start (by decide)
    | rfl

theorem isDigit_of_start {c : Char} (start : isIdentifierStart c = true) : c.isDigit = false := by
  by_contra digit
  have bounds := Text.isDigit_iff.mp ((Bool.not_eq_false _).mp digit)
  have underscore : c ≠ '_' := by
    rintro rfl
    exact absurd bounds (by decide)
  have ascii : c.toNat < 128 := by omega
  have letter : c.isAlpha = true := by
    simpa [isIdentifierStart, underscore, Text.isXidStart, ascii] using start
  have := Text.isAlpha_iff.mp letter
  omega

theorem token_of_start {c : Char} (start : isIdentifierStart c = true) (offset : Nat)
    (rest : List Char) :
    token offset c rest = .ok (word (String.ofList (c :: rest.takeWhile isIdentifierPart)),
      (rest.takeWhile isIdentifierPart).length) := by
  have unquoted : ¬ (c = '"' ∨ c = '\x27') := by
    rintro (rfl | rfl) <;> exact absurd start (by decide)
  unfold token
  rw [symbol?_of_start start, isDigit_of_start start, if_neg unquoted, start]
  rfl

theorem lexemesFrom_segment {s : String} (segment : isSegment s = true) (offset : Nat)
    {rest : List Char} (ends : rest.takeWhile isIdentifierPart = []) :
    ∃ next span, lexemesFrom offset 0 (s.toList ++ rest) =
      ⟨⟨.name s, span⟩ :: (lexemesFrom next 0 rest).lexemes, (lexemesFrom next 0 rest).failure⟩ := by
  obtain ⟨first, following, characters, start, parts, unkeyed⟩ := exists_of_isSegment segment
  have solid := isBlank_of_part (Text.isIdentifierPart_of_start start)
  have taken : (following ++ rest).takeWhile isIdentifierPart = following := by
    rw [List.takeWhile_append_of_pos parts, ends, List.append_nil]
  have spelled : String.ofList (first :: following) = s := by
    rw [← characters, String.ofList_toList]
  refine ⟨offset + first.utf8Size + byteLength following,
    ⟨offset, offset + byteLength (first :: (following ++ rest).take following.length)⟩, ?_⟩
  rw [characters, List.cons_append, lexemesFrom, solid, token_of_start start, taken, spelled]
  simp only [Bool.false_eq_true, ↓reduceIte, word, unkeyed, lexemesFrom_skip]

end Lexer

/-- Lexemes of a dot and a name for each segment. -/
inductive Continues : List String → List Lexeme → Prop where
  | nil : Continues [] []
  | cons {s : String} {path : List String} {ts : List Lexeme} (dot span : Span) :
      Continues path ts → Continues (s :: path) (⟨.symbol .dot, dot⟩ :: ⟨.name s, span⟩ :: ts)

def tailText (path : List String) : List Char := path.flatMap fun s => '.' :: s.toList

namespace Lexer

theorem tailText_ends (path : List String) : (tailText path).takeWhile isIdentifierPart = [] := by
  cases path with
  | nil => rfl
  | cons s path => exact List.takeWhile_cons_of_neg (by decide)

theorem lexemesFrom_dot {s : String} (segment : isSegment s = true) (offset : Nat)
    (rest : List Char) :
    lexemesFrom offset 0 ('.' :: (s.toList ++ rest)) =
      ⟨⟨.symbol .dot, offset, offset + 1⟩ :: (lexemesFrom (offset + 1) 0 (s.toList ++ rest)).lexemes,
        (lexemesFrom (offset + 1) 0 (s.toList ++ rest)).failure⟩ := by
  have single : symbol? '.' (s.toList ++ rest) = some (.dot, 0) := by
    obtain ⟨first, following, characters, start, -, -⟩ := exists_of_isSegment segment
    have other : first ≠ '.' := by
      rintro rfl
      exact absurd start (by decide)
    simp [characters, symbol?, other]
  rw [lexemesFrom, token, single]
  rfl

/-- The induction is on the segments; each ends at the dot before the next one. -/
theorem lexemesFrom_continues {path : List String} (segments : ∀ s ∈ path, isSegment s = true)
    (offset : Nat) :
    ∃ ts, lexemesFrom offset 0 (tailText path) = ⟨ts, none⟩ ∧ Continues path ts := by
  induction path generalizing offset with
  | nil => exact ⟨[], rfl, .nil⟩
  | cons s path ih =>
      obtain ⟨segment, others⟩ := List.forall_mem_cons.mp segments
      obtain ⟨later, span, second⟩ := lexemesFrom_segment segment (offset + 1) (tailText_ends path)
      obtain ⟨ts, third, continues⟩ := ih others later
      refine ⟨_, ?_, .cons ⟨offset, offset + 1⟩ span continues⟩
      change lexemesFrom offset 0 ('.' :: (s.toList ++ tailText path)) = _
      rw [lexemesFrom_dot segment, second, third]

theorem toList_intercalate (head : String) (tail : List String) :
    (".".intercalate (head :: tail)).toList = head.toList ++ tailText tail := by
  rw [String.toList_intercalate]
  induction tail generalizing head with
  | nil => simp [tailText]
  | cons s tail ih =>
    rw [List.map_cons, List.map_cons, List.intercalate_cons_cons, ← List.map_cons, ih]
    simp [tailText]

end Lexer

theorem ofText_path {head : String} {tail : List String}
    (segments : ∀ s ∈ head :: tail, isSegment s = true) :
    ∃ span ts, Lexed.ofText (".".intercalate (head :: tail)) = ⟨⟨.name head, span⟩ :: ts, none⟩ ∧
      Continues tail ts := by
  obtain ⟨segment, others⟩ := List.forall_mem_cons.mp segments
  obtain ⟨next, span, first⟩ := Lexer.lexemesFrom_segment segment 0 (Lexer.tailText_ends tail)
  obtain ⟨ts, second, continues⟩ := Lexer.lexemesFrom_continues others next
  refine ⟨span, ts, ?_, continues⟩
  rw [Lexed.ofText, Lexer.toList_intercalate, first, second]

theorem trim_path {path : List String} (named : isPath path = true) :
    Text.trim (".".intercalate path) = ".".intercalate path := by
  have solid {s : String} (segment : isSegment s = true) : ∀ c ∈ s.toList, isBlank c = false := by
    obtain ⟨first, following, characters, start, parts, -⟩ := exists_of_isSegment segment
    rw [characters]
    exact List.forall_mem_cons.mpr ⟨isBlank_of_part (Text.isIdentifierPart_of_start start),
      fun c member => isBlank_of_part (parts c member)⟩
  obtain ⟨head, tail, rfl, -, segments⟩ := exists_of_isPath named
  apply Text.trim_of_solid
  rw [Lexer.toList_intercalate]
  intro c member
  rcases List.mem_append.mp member with first | later
  · exact solid (segments head List.mem_cons_self) c first
  · obtain ⟨s, listed, member⟩ := List.mem_flatMap.mp later
    rcases List.mem_cons.mp member with rfl | member
    · rfl
    · exact solid (segments s (List.mem_cons_of_mem _ listed)) c member

namespace Parser

theorem moveTo_whole {source : Source} (whole : source.failure = none) (ts : List Lexeme) :
    source.moveTo ts = .ok ts := by
  unfold Source.moveTo
  rw [whole]
  cases ts <;> rfl

theorem formula_of_operand {source : Source} (whole : source.failure = none) {limit : Nat}
    (levels : source.limit = limit + 1) {first : Lexeme} {rest : List Lexeme} {expr : Expr}
    (operand : reader source (limit + 1) .operand (first :: rest) = .ok (expr, [])) :
    formula source (first :: rest) = .ok expr := by
  unfold formula
  rw [moveTo_whole whole, ok_bind, levels]
  dsimp only
  rw [expression, operand, ok_bind]
  rfl

theorem members_continues {source : Source} (whole : source.failure = none) (allowance : Nat)
    {path : List String} {ts : List Lexeme} (continues : Continues path ts) (head : String)
    (tail : List String) (start : Span) :
    ∃ span, members source allowance (.symbol head tail start) ts =
      .ok (.symbol head (tail ++ path) span, []) := by
  induction continues generalizing tail start with
  | nil => exact ⟨start, by simp [members]⟩
  | cons dot span continues ih =>
      rename_i s path ts
      obtain ⟨stop, read⟩ := ih (tail ++ [s]) (start.merge span)
      refine ⟨stop, ?_⟩
      rw [List.append_assoc] at read
      rw [members, moveTo_whole whole, ok_bind]
      exact read

/-- Of the levels of the reader one is enough, since the segments are taken in without a call. -/
theorem formula_continues {source : Source} (whole : source.failure = none)
    (allowed : 1 ≤ source.limit) {head : String} {tail : List String} {ts : List Lexeme}
    (plain : Literal.ofName? head = none) (continues : Continues tail ts) (start : Span) :
    ∃ span, formula source (⟨.name head, start⟩ :: ts) = .ok (.symbol head tail span) := by
  obtain ⟨limit, levels⟩ := Nat.exists_eq_add_of_le' allowed
  obtain ⟨span, read⟩ := members_continues whole limit continues head [] start
  refine ⟨span, ?_⟩
  have base (deeper : Reader) : primary source deeper (⟨.name head, start⟩ :: ts) =
      .ok (.symbol head [] start, ts) := by
    unfold primary
    dsimp only
    rw [moveTo_whole whole, ok_bind]
    cases continues <;> simp [plain]
  have operand : reader source (limit + 1) .operand (⟨.name head, start⟩ :: ts) =
      .ok (.symbol head tail span, []) := by
    change power source limit _ _ = _
    unfold power
    rw [base, ok_bind]
    dsimp only
    rw [read, ok_bind]
    rfl
  exact formula_of_operand whole levels operand

theorem formula_call {source : Source} (whole : source.failure = none) (allowed : 1 ≤ source.limit)
    (name : String) (start opened closed : Span) :
    formula source [⟨.name name, start⟩, ⟨.symbol .leftParen, opened⟩,
        ⟨.symbol .rightParen, closed⟩] =
      .ok (.call name [] (start.merge closed)) := by
  obtain ⟨limit, levels⟩ := Nat.exists_eq_add_of_le' allowed
  have operand : reader source (limit + 1) .operand [⟨.name name, start⟩,
      ⟨.symbol .leftParen, opened⟩, ⟨.symbol .rightParen, closed⟩] =
        .ok (.call name [] (start.merge closed), []) := by
    change power source limit _ _ = _
    unfold power primary
    dsimp only
    rw [moveTo_whole whole, ok_bind]
    dsimp only
    rw [moveTo_whole whole, ok_bind]
    unfold arguments
    dsimp only
    rw [moveTo_whole whole, ok_bind]
    rfl
  exact formula_of_operand whole levels operand

end Parser

theorem parse_path {head : String} {tail : List String} (plain : Literal.ofName? head = none)
    (segments : ∀ s ∈ head :: tail, isSegment s = true) {limit : Nat} (allowed : 1 ≤ limit) :
    ∃ span, parse (".".intercalate (head :: tail)) limit = .ok (.symbol head tail span) := by
  obtain ⟨start, ts, lexed, continues⟩ := ofText_path segments
  unfold parse
  rw [lexed]
  exact Parser.formula_continues rfl allowed plain continues start

theorem Scope.resolve?_whole {scope : Scope} {head : String} {tail : List String} {v : Value}
    (known : scope.value? (".".intercalate (head :: tail)) = some v) :
    ∃ provider, scope.resolve? (head :: tail) = some ⟨provider, ".".intercalate (head :: tail), []⟩ ∧
      scope.get? provider (".".intercalate (head :: tail)) = some v := by
  cases provided : scope.providerOf? (".".intercalate (head :: tail)) with
  | none =>
      rw [providerOf?_eq_none.mp provided] at known
      cases known
  | some provider =>
      refine ⟨provider, ?_, (get?_of_providerOf? provided).trans known⟩
      rw [resolve?, List.length_cons, resolvePrefix?, ← List.length_cons, List.take_length, provided,
        List.drop_length]

/-- The formula that is a name has the value of the name. -/
theorem evaluate_path {path : List String} (named : isPath path = true) {options : Options}
    (allowed : 1 ≤ options.depthLimit) {scope : Scope} {v : Value}
    (known : scope.value? (".".intercalate path) = some v) :
    (Formula.ofText options scope (".".intercalate path)).bind (·.evaluate scope) = .ok v := by
  obtain ⟨head, tail, rfl, plain, segments⟩ := exists_of_isPath named
  obtain ⟨span, parsed⟩ := parse_path plain segments allowed
  obtain ⟨provider, resolved, present⟩ := Scope.resolve?_whole known
  obtain ⟨limit, levels⟩ := Nat.exists_eq_add_of_le' allowed
  have compiled : compile options scope options.depthLimit (.symbol head tail span) =
      .ok ⟨.dynamic, .lookup provider (".".intercalate (head :: tail)) [] span⟩ := by
    rw [levels, compile, Scope.symbol, resolved]
  rw [Formula.ofText, parsed, Formula.ofParsed, Formula.ofExpr, compiled, ok_bind]
  change Code.eval scope _ = _
  rw [Code.eval, present]
  rfl

theorem ofText_call {name : String} (segment : isSegment name = true) :
    ∃ start opened closed, Lexed.ofText (name ++ "()") =
      ⟨[⟨.name name, start⟩, ⟨.symbol .leftParen, opened⟩, ⟨.symbol .rightParen, closed⟩],
        none⟩ := by
  have ends : ['(', ')'].takeWhile isIdentifierPart = [] := List.takeWhile_cons_of_neg (by decide)
  obtain ⟨next, span, first⟩ := Lexer.lexemesFrom_segment segment 0 ends
  refine ⟨span, ⟨next, next + 1⟩, ⟨next + 1, next + 2⟩, ?_⟩
  have spelled : (name ++ "()").toList = name.toList ++ ['(', ')'] := String.toList_append
  rw [Lexed.ofText, spelled, first]
  rfl

/-- A call of a name that the scope knows, without arguments, has the value of the name, also where
the name is that of a constant or a function. -/
theorem evaluate_call {name : String} (segment : isSegment name = true) {options : Options}
    (allowed : 1 ≤ options.depthLimit) {scope : Scope} {v : Value}
    (known : scope.value? name = some v) :
    (Formula.ofText options scope (name ++ "()")).bind (·.evaluate scope) = .ok v := by
  obtain ⟨start, opened, closed, lexed⟩ := ofText_call segment
  have whole : scope.value? (".".intercalate [name]) = some v := known
  obtain ⟨provider, resolved, present⟩ := Scope.resolve?_whole whole
  obtain ⟨limit, levels⟩ := Nat.exists_eq_add_of_le' allowed
  have parsed : parse (name ++ "()") options.depthLimit =
      .ok (.call name [] (start.merge closed)) := by
    unfold parse
    rw [lexed]
    exact Parser.formula_call rfl allowed name start opened closed
  have compiled : compile options scope options.depthLimit (.call name [] (start.merge closed)) =
      .ok ⟨.dynamic, .lookup provider (".".intercalate [name]) [] (start.merge closed)⟩ := by
    rw [levels, compile, resolved]
    dsimp only
    rw [Scope.symbol, resolved]
  rw [Formula.ofText, parsed, Formula.ofParsed, Formula.ofExpr, compiled, ok_bind]
  change Code.eval scope _ = _
  rw [Code.eval, present]
  rfl

end Emend.Formula
