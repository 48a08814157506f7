import Emend.Proofs.Formula.Limit

/-!
The parser with a counter of its nesting. An operand, an operator of a chain and a member each raise
the counter by a level, which the limit may forbid, and whoever raised it lowers it again, a chain by
all its levels at once. The counter is never lowered below zero: the counted parser answers what the
parser answers that recurses on an allowance, and leaves the counter where it found it.
-/

set_option autoImplicit false

namespace Emend.Formula
open Emend.Text (Span)

namespace Counted

/-- Why a counted parse ends early. -/
inductive Halt where
  | failed (error : ParseError)
  /-- The counter was to be lowered by more levels than it had. -/
  | underflow
  /-- The recursion went on beyond its bound. -/
  | exhausted

/-- Computations with the counter. -/
abbrev Counting (α : Type) := StateT Nat (Except Halt) α

def uncounted {α : Type} (result : Except ParseError α) : Counting α := fun depth =>
  match result with
  | .ok a => .ok (a, depth)
  | .error e => .error (.failed e)

def leave (levels : Nat) : Counting Unit := fun depth =>
  if levels ≤ depth then .ok ((), depth - levels) else .error .underflow

/-- What is to be read, the level that it takes being counted already. -/
inductive Task where
  | operand
  /-- More operators of a chain, which has taken so many levels. -/
  | chain (least : Level) (left : Expr) (taken : Nat)

abbrev Reader := Task → List Lexeme → Counting (Expr × List Lexeme)

section
variable (source : Parser.Source)

def enter (ts : List Lexeme) : Counting Unit := fun depth =>
  if depth < source.limit then .ok ((), depth + 1) else .error (.failed (source.tooDeep ts))

def members : (taken : Nat) → Expr → List Lexeme → Counting (Expr × List Lexeme)
  | taken, target, ⟨.symbol .dot, _⟩ :: ⟨.name name, span⟩ :: rest => do
    let after ← uncounted (source.moveTo rest)
    match target with
    | .symbol head tail start =>
      members taken (.symbol head (tail ++ [name]) (start.merge span)) rest
    | target => do
      enter source after
      members (taken + 1) (.member target name) rest
  | _, _, ⟨.symbol .dot, _⟩ :: rest => do
    let after ← uncounted (source.moveTo rest)
    uncounted (.error (source.unexpected "member name after '.'" after))
  | taken, target, ts => do
    leave taken
    return (target, ts)

variable (deeper : Reader)

/-- An operand one level further in. -/
def operand (ts : List Lexeme) : Counting (Expr × List Lexeme) := do
  enter source ts
  let result ← deeper .operand ts
  leave 1
  return result

def expression (least : Level) (ts : List Lexeme) : Counting (Expr × List Lexeme) := do
  enter source ts
  let (left, ts) ← deeper .operand ts
  deeper (.chain least left 1) ts

def items : (fuel : Nat) → List Lexeme → Counting (List Expr × List Lexeme)
  | 0, ts => return ([], ts)
  | fuel + 1, ts => do
    let (first, ts) ← expression source deeper .or ts
    match ts with
    | ⟨.symbol .comma, _⟩ :: rest =>
      let ts ← uncounted (source.moveTo rest)
      let (others, ts) ← items fuel ts
      return (first :: others, ts)
    | ts => return ([first], ts)

def arguments (name : String) (start : Span) (ts : List Lexeme) :
    Counting (Expr × List Lexeme) :=
  match ts with
  | ⟨.symbol .rightParen, span⟩ :: rest => do
    let ts ← uncounted (source.moveTo rest)
    return (.call name [] (start.merge span), ts)
  | ts => do
    let (args, ts) ← items source deeper (ts.length + 1) ts
    let (stop, ts) ←
      uncounted (source.expectSymbol .rightParen "',' or ')' in argument list" ts)
    return (.call name args (start.merge stop), ts)

def group (ts : List Lexeme) : Counting (Expr × List Lexeme) := do
  match ← items source deeper (ts.length + 1) ts with
  | ([single], ts) =>
    let (_, ts) ← uncounted (source.expectSymbol .rightParen "')' to close group" ts)
    return (single, ts)
  | (several, ts) =>
    let (_, ts) ← uncounted (source.expectSymbol .rightParen "')' to close tuple" ts)
    return (.tuple several, ts)

def primary (ts : List Lexeme) : Counting (Expr × List Lexeme) :=
  match ts with
  | ⟨.number x, _⟩ :: rest => do
    let ts ← uncounted (source.moveTo rest)
    return (.literal (.number x), ts)
  | ⟨.text s, _⟩ :: rest => do
    let ts ← uncounted (source.moveTo rest)
    return (.literal (.text s), ts)
  | ⟨.name name, span⟩ :: rest => do
    match ← uncounted (source.moveTo rest) with
    | ⟨.symbol .leftParen, _⟩ :: rest =>
      let ts ← uncounted (source.moveTo rest)
      arguments source deeper name span ts
    | ts => match Literal.ofName? name with
      | some constant => return (.literal constant, ts)
      | none => return (.symbol name [] span, ts)
  | ⟨.symbol .leftParen, _⟩ :: rest => do
    let ts ← uncounted (source.moveTo rest)
    group source deeper ts
  | ts => uncounted (.error (source.unexpected "operand" ts))

def power (ts : List Lexeme) : Counting (Expr × List Lexeme) := do
  let (base, ts) ← primary source deeper ts
  match ← members source 0 base ts with
  | (base, ⟨.symbol .power, _⟩ :: rest) =>
    let ts ← uncounted (source.moveTo rest)
    let (exponent, ts) ← operand source deeper ts
    return (.binary .power base exponent, ts)
  | result => return result

def join (joint : Joint) (left : Expr) (ts : List Lexeme) : Counting (Expr × List Lexeme) := do
  let right := expression source deeper joint.level.tighter
  match joint with
  | .binary op =>
    let (y, ts) ← right ts
    return (.binary op left y, ts)
  | .versions =>
    let ts ← uncounted (source.expectKeyword .versions "'versions' after 'in'" ts)
    let (y, ts) ← right ts
    return (.binary .inVersions left y, ts)
  | .replacement =>
    let (pattern, ts) ← right ts
    let ts ← uncounted (source.expectKeyword .with "'with' after replace pattern" ts)
    let (substitute, ts) ← right ts
    return (.replace left pattern substitute, ts)

def step : Reader
  | .operand, lexeme :: rest =>
    match lexeme.token.prefixOp? with
    | some op => do
      let ts ← uncounted (source.moveTo rest)
      let (x, ts) ← operand source deeper ts
      return (.signed op x, ts)
    | none => power source deeper (lexeme :: rest)
  | .operand, [] => power source deeper []
  | .chain least left taken, lexeme :: rest =>
    match lexeme.token.joint? with
    | some joint =>
      if least.rank ≤ joint.level.rank then do
        let ts ← uncounted (source.moveTo rest)
        let (joined, ts) ← join source deeper joint left ts
        enter source ts
        deeper (.chain least joined (taken + 1)) ts
      else do
        leave taken
        return (left, lexeme :: rest)
    | none => do
      leave taken
      return (left, lexeme :: rest)
  | .chain _ left taken, [] => do
    leave taken
    return (left, [])

end

def reader (source : Parser.Source) : (bound : Nat) → Reader
  | 0 => fun _ _ _ => .error .exhausted
  | bound + 1 => step source (reader source bound)

def formula (source : Parser.Source) (ts : List Lexeme) : Counting Expr := do
  match ← uncounted (source.moveTo ts) with
  | [] => uncounted (.error .empty)
  | ts =>
    match ← expression source (reader source source.limit) .or ts with
    | (expr, []) => return expr
    | (_, ts) => uncounted (.error (source.unexpected "end of formula" ts))

/-- Parses a formula with a counter that starts at zero. -/
def parse (text : String) (limit : Nat) : Except Halt (Expr × Nat) :=
  let lexed := Lexed.ofText text
  formula ⟨text.utf8ByteSize, lexed.failure, limit⟩ lexed.lexemes 0

/-- The result with the counter at `stop`. -/
def settled {α : Type} (stop : Nat) : Except ParseError α → Except Halt (α × Nat)
  | .ok a => .ok (a, stop)
  | .error e => .error (.failed e)

/-- From the first count to the second one, the counted computation has this result. -/
def Counts {α : Type} (start stop : Nat) (counted : Counting α) (result : Except ParseError α) :
    Prop :=
  counted start = settled stop result

namespace Counts

variable {α β : Type} {start mid stop : Nat}

theorem done (a : α) : Counts start start (pure a) (.ok a) := rfl

theorem uncounted (result : Except ParseError α) :
    Counts start start (Counted.uncounted result) result := by
  cases result <;> rfl

theorem bind {counted : Counting α} {result : Except ParseError α} {next : α → Counting β}
    {others : α → Except ParseError β} (first : Counts start mid counted result)
    (after : ∀ a, Counts mid stop (next a) (others a)) :
    Counts start stop (counted >>= next) (result >>= others) := by
  unfold Counts at first ⊢
  change (counted start >>= fun (a, depth) => next a depth) = _
  rw [first]
  cases result with
  | error e => rfl
  | ok a => exact after a

theorem leave {taken : Nat} (a : α) (total : stop + taken = start) :
    Counts start stop (do Counted.leave taken; return a) (.ok a) := by
  unfold Counts
  change (Counted.leave taken start >>= fun (_, depth) => Except.ok (a, depth)) = _
  unfold Counted.leave
  rw [if_pos (by omega)]
  change Except.ok (a, start - taken) = Except.ok (a, stop)
  rw [← total, Nat.add_sub_cancel]

theorem enter {source : Parser.Source} {ts : List Lexeme} {counted : Counting α}
    {result : Except ParseError α} (room : start < source.limit)
    (inside : Counts (start + 1) stop counted result) :
    Counts start stop (do enter source ts; counted) result := by
  unfold Counts
  change (Counted.enter source ts start >>= fun (_, depth) => counted depth) = _
  unfold Counted.enter
  rw [if_pos room]
  exact inside

theorem tooDeep {source : Parser.Source} {ts : List Lexeme} {counted : Counting α}
    (full : source.limit ≤ start) :
    Counts start stop (do Counted.enter source ts; counted) (.error (source.tooDeep ts)) := by
  unfold Counts
  change (Counted.enter source ts start >>= fun (_, depth) => counted depth) = _
  unfold Counted.enter
  rw [if_neg (Nat.not_lt.mpr full)]
  rfl

end Counts

/-- At this count, the level of the task included, the readers answer alike. -/
structure Agree (counted : Reader) (plain : Parser.Reader) (depth : Nat) : Prop where
  operand : ∀ ts, Counts depth depth (counted .operand ts) (plain .operand ts)
  chain : ∀ least left ts taken stop, stop + taken = depth →
    Counts depth stop (counted (.chain least left taken) ts) (plain (.chain least left) ts)

/-- From this count on, the readers answer alike one level further in, if the limit leaves one. -/
inductive Inward (source : Parser.Source) (counted : Reader) (plain : Parser.Reader)
    (depth : Nat) : Prop
  | last (full : source.limit ≤ depth)
      (refuses : ∀ goal ts, plain goal ts = .error (source.tooDeep ts))
  | next (room : depth < source.limit) (agree : Agree counted plain (depth + 1))

section
variable {source : Parser.Source}

/-- The allowance of the one is what the limit leaves above the counter of the other. -/
theorem members_counts {allowance depth taken stop : Nat} (left : allowance + depth = source.limit)
    (total : stop + taken = depth) (target : Expr) (ts : List Lexeme) :
    Counts depth stop (members source taken target ts)
      (Parser.members source allowance target ts) := by
  fun_induction Parser.members source allowance target ts generalizing depth taken with
  | case1 allowance target _ name span others path computed =>
      rw [members]
      refine (Counts.uncounted _).bind fun after => ?_
      cases target with
      | symbol head tail start => exact path head tail start left total
      | _ =>
          cases allowance with
          | zero => exact .tooDeep (by omega)
          | succ allowance => exact .enter (by omega) (computed _ _ (by omega) (by omega))
  | case2 allowance target _ others apart =>
      rw [members]
      · exact (Counts.uncounted _).bind fun after => .uncounted _
      · exact apart
  | case3 allowance target ts named pointed =>
      rw [members]
      · exact .leave _ total
      · exact named
      · exact pointed

variable {counted : Reader} {plain : Parser.Reader} {depth : Nat}
  (inward : Inward source counted plain depth)
include inward

theorem operand_counts (ts : List Lexeme) :
    Counts depth depth (operand source counted ts) (plain .operand ts) := by
  unfold operand
  cases inward with
  | last full refuses =>
      rw [refuses]
      exact .tooDeep full
  | next room agree =>
      have back := (agree.operand ts).bind fun result => Counts.leave result rfl
      have same : (plain .operand ts >>= Except.ok) = plain .operand ts := bind_pure _
      rw [same] at back
      exact .enter room back

theorem chain_counts {taken stop : Nat} (least : Level) (left : Expr) (ts : List Lexeme)
    (total : stop + taken = depth) :
    Counts depth stop (do enter source ts; counted (.chain least left (taken + 1)) ts)
      (plain (.chain least left) ts) := by
  cases inward with
  | last full refuses =>
      rw [refuses]
      exact .tooDeep full
  | next room agree =>
      exact .enter room (agree.chain least left ts (taken + 1) stop (by omega))

theorem expression_counts (least : Level) (ts : List Lexeme) :
    Counts depth depth (expression source counted least ts) (Parser.expression plain least ts) := by
  unfold expression Parser.expression
  cases inward with
  | last full refuses =>
      rw [refuses]
      exact .tooDeep full
  | next room agree =>
      refine .enter room ((agree.operand ts).bind fun (left, ts) => ?_)
      exact agree.chain least left ts 1 depth rfl

theorem items_counts (fuel : Nat) (ts : List Lexeme) :
    Counts depth depth (items source counted fuel ts)
      (Parser.items source (Parser.expression plain .or) fuel ts) := by
  induction fuel generalizing ts with
  | zero => exact .done _
  | succ fuel ih =>
      refine (expression_counts inward .or ts).bind fun (first, ts) => ?_
      -- Both readers look at the first lexeme that is left, so one finds a comma if the other one does.
      rcases ts with _ | ⟨⟨token, span⟩, rest⟩
      · exact .done _
      · cases token with
        | symbol s =>
            cases s with
            | comma =>
                refine (Counts.uncounted _).bind fun ts => ?_
                exact (ih ts).bind fun _ => .done _
            | _ => exact .done _
        | _ => exact .done _

theorem arguments_counts (name : String) (start : Span) (ts : List Lexeme) :
    Counts depth depth (arguments source counted name start ts)
      (Parser.arguments source plain name start ts) := by
  have listed (ts : List Lexeme) : Counts depth depth
      (do
        let (args, ts) ← items source counted (ts.length + 1) ts
        let (stop, ts) ←
          Counted.uncounted (source.expectSymbol .rightParen "',' or ')' in argument list" ts)
        return (Expr.call name args (start.merge stop), ts))
      (do
        let (args, ts) ← Parser.items source (Parser.expression plain .or) (ts.length + 1) ts
        let (stop, ts) ← source.expectSymbol .rightParen "',' or ')' in argument list" ts
        .ok (Expr.call name args (start.merge stop), ts)) :=
    (items_counts inward _ ts).bind fun _ => (Counts.uncounted _).bind fun _ => .done _
  unfold arguments Parser.arguments
  rcases ts with _ | ⟨⟨token, span⟩, rest⟩
  · exact listed _
  · cases token with
    | symbol s =>
        cases s with
        | rightParen => exact (Counts.uncounted _).bind fun _ => .done _
        | _ => exact listed _
    | _ => exact listed _

theorem group_counts (ts : List Lexeme) :
    Counts depth depth (group source counted ts) (Parser.group source plain ts) := by
  unfold group Parser.group
  refine (items_counts inward _ ts).bind fun (listed, ts) => ?_
  rcases listed with _ | ⟨single, _ | ⟨second, others⟩⟩
  all_goals exact (Counts.uncounted _).bind fun _ => .done _

theorem named_counts (name : String) (span : Span) (ts : List Lexeme) :
    Counts depth depth
      (match ts with
        | ⟨.symbol .leftParen, _⟩ :: rest => do
          let ts ← Counted.uncounted (source.moveTo rest)
          arguments source counted name span ts
        | ts => match Literal.ofName? name with
          | some constant => return (.literal constant, ts)
          | none => return (.symbol name [] span, ts))
      (match ts with
        | ⟨.symbol .leftParen, _⟩ :: rest => do
          let ts ← source.moveTo rest
          Parser.arguments source plain name span ts
        | ts => match Literal.ofName? name with
          | some constant => .ok (.literal constant, ts)
          | none => .ok (.symbol name [] span, ts)) := by
  rcases ts with _ | ⟨⟨token, opened⟩, rest⟩
  · cases Literal.ofName? name <;> exact .done _
  · cases token with
    | symbol s =>
        cases s with
        | leftParen => exact (Counts.uncounted _).bind fun ts => arguments_counts inward _ _ ts
        | _ => cases Literal.ofName? name <;> exact .done _
    | _ => cases Literal.ofName? name <;> exact .done _

theorem primary_counts (ts : List Lexeme) :
    Counts depth depth (primary source counted ts) (Parser.primary source plain ts) := by
  unfold primary Parser.primary
  rcases ts with _ | ⟨⟨token, span⟩, rest⟩
  · exact .uncounted _
  · cases token with
    | number | text => exact (Counts.uncounted _).bind fun _ => .done _
    | name name => exact (Counts.uncounted _).bind fun ts => named_counts inward name span ts
    | symbol s =>
        cases s with
        | leftParen => exact (Counts.uncounted _).bind fun ts => group_counts inward ts
        | _ => exact .uncounted _
    | keyword => exact .uncounted _

theorem power_counts {allowance : Nat} (left : allowance + depth = source.limit)
    (ts : List Lexeme) :
    Counts depth depth (power source counted ts) (Parser.power source allowance plain ts) := by
  unfold power Parser.power
  refine (primary_counts inward ts).bind fun (base, ts) => ?_
  refine (members_counts left (Nat.add_zero depth) base ts).bind fun (base, ts) => ?_
  rcases ts with _ | ⟨⟨token, span⟩, rest⟩
  · exact .done _
  · cases token with
    | symbol s =>
        cases s with
        | power =>
            refine (Counts.uncounted _).bind fun ts => ?_
            exact (operand_counts inward ts).bind fun _ => .done _
        | _ => exact .done _
    | _ => exact .done _

theorem join_counts (joint : Joint) (left : Expr) (ts : List Lexeme) :
    Counts depth depth (join source counted joint left ts)
      (Parser.join source plain joint left ts) := by
  have right := expression_counts inward joint.level.tighter
  unfold join Parser.join
  cases joint with
  | binary op => exact (right ts).bind fun _ => .done _
  | versions =>
      refine (Counts.uncounted _).bind fun ts => ?_
      exact (right ts).bind fun _ => .done _
  | replacement =>
      refine (right ts).bind fun (pattern, ts) => ?_
      refine (Counts.uncounted _).bind fun ts => ?_
      exact (right ts).bind fun _ => .done _

theorem step_agree {allowance : Nat} (left : allowance + depth = source.limit) :
    Agree (step source counted) (Parser.step source allowance plain) depth where
  operand ts := by
    cases ts with
    | nil => exact power_counts inward left []
    | cons lexeme rest =>
        dsimp only [step, Parser.step]
        cases lexeme.token.prefixOp? with
        | none => exact power_counts inward left _
        | some op =>
            refine (Counts.uncounted _).bind fun ts => ?_
            exact (operand_counts inward ts).bind fun _ => .done _
  chain least before ts taken stop total := by
    cases ts with
    | nil => exact .leave _ total
    | cons lexeme rest =>
        dsimp only [step, Parser.step]
        cases lexeme.token.joint? with
        | none => exact .leave _ total
        | some joint =>
            by_cases tight : least.rank ≤ joint.level.rank
            · simp only [if_pos tight]
              refine (Counts.uncounted _).bind fun ts => ?_
              refine (join_counts inward joint before ts).bind fun (joined, ts) => ?_
              exact chain_counts inward least joined ts total
            · simp only [if_neg tight]
              exact .leave _ total

end

theorem reader_inward {source : Parser.Source} {bound depth : Nat}
    (left : bound + depth = source.limit) :
    Inward source (reader source bound) (Parser.reader source bound) depth := by
  induction bound generalizing depth with
  | zero => exact .last (by omega) fun _ _ => rfl
  | succ bound ih =>
      have inside : bound + (depth + 1) = source.limit := by omega
      exact .next (by omega) (step_agree (ih inside) inside)

theorem formula_counts (source : Parser.Source) (ts : List Lexeme) :
    Counts 0 0 (formula source ts) (Parser.formula source ts) := by
  unfold formula Parser.formula
  refine (Counts.uncounted _).bind fun ts => ?_
  cases ts with
  | nil => exact .uncounted _
  | cons first others =>
      have inward : Inward source (reader source source.limit)
          (Parser.reader source source.limit) 0 := reader_inward (Nat.add_zero _)
      refine (expression_counts inward .or _).bind fun (expr, rest) => ?_
      cases rest with
      | nil => exact .done expr
      | cons lexeme rest => exact .uncounted _

end Counted

/-- What the parser answers with a limit, unless it says that the text nests too deep, it answers
with every larger limit. Its counter is never lowered below zero, and is zero again at the end. -/
theorem parse_larger (text : String) {limit larger : Nat} (within : limit ≤ larger) :
    ((∀ n span, parse text limit ≠ .error (.tooDeep n span)) →
      parse text larger = parse text limit) ∧
    Counted.parse text limit = Counted.settled 0 (parse text limit) := by
  refine ⟨fun shallow => ?_, Counted.formula_counts _ _⟩
  let source : Parser.Source := ⟨text.utf8ByteSize, (Lexed.ofText text).failure, limit⟩
  have cut : Parser.Cut source (parse text limit) (parse text larger) :=
    Parser.formula_cut within (Lexed.ofText text).lexemes
  rcases cut with ⟨span, deep⟩ | same
  · exact absurd deep (shallow limit span)
  · exact same.symm

/-- Three levels are enough to see that the group is not closed, and more make no difference. -/
theorem parse_larger_unclosed :
    3 ≤ 128 ∧
    parse "(x or y" 3 = .error (.unexpectedEnd "')' to close group" ⟨7, 7⟩) ∧
    parse "(x or y" 128 = parse "(x or y" 3 ∧
    Counted.parse "(x or y" 3 = .error (.failed (.unexpectedEnd "')' to close group" ⟨7, 7⟩)) := by
  have unclosed : (errorOf? (parse "(x or y" 3)).map id =
      some (.unexpectedEnd "')' to close group" ⟨7, 7⟩) := by decide +kernel
  obtain ⟨e, failed, rfl⟩ := of_errorOf?_map unclosed
  have enough : 3 ≤ 128 := by decide
  obtain ⟨larger, counted⟩ := parse_larger "(x or y" enough
  refine ⟨enough, failed, larger fun n span deep => ?_, ?_⟩
  · rw [failed] at deep
    cases deep
  · rw [counted, failed]
    rfl

end Emend.Formula
