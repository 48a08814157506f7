import Emend.Proofs.Formula.Reading
import Emend.Proofs.Formula.Unambiguous

/-!
The parser accepts every sentence of the grammar, unless it nests too deep.
-/

set_option autoImplicit false

namespace Emend.Formula.Parser
open Grammar
open Emend.Text (Span)

variable {α β : Type} {source : Source}

/-- The result is the expected one, or the text nests too deep for the allowance. It does not if
the allowance is enough. -/
def Gives (source : Source) (enough : Prop) (result expected : Except ParseError α) : Prop :=
  (enough → result = expected) ∧
    ((∃ span, result = .error (.tooDeep source.limit span)) ∨ result = expected)

section
variable {enough : Prop}

theorem Gives.refl (result : Except ParseError α) : Gives source enough result result :=
  ⟨fun _ => rfl, .inr rfl⟩

theorem Gives.deep (span : Span) (expected : Except ParseError α) (short : ¬ enough) :
    Gives source enough (.error (.tooDeep source.limit span)) expected :=
  ⟨fun given => absurd given short, .inl ⟨span, rfl⟩⟩

theorem Gives.weaken {less : Prop} {a b : Except ParseError α} (gives : Gives source less a b)
    (weaker : enough → less) : Gives source enough a b :=
  ⟨fun given => gives.1 (weaker given), gives.2⟩

theorem Gives.trans {a b c : Except ParseError α} (first : Gives source enough a b)
    (second : Gives source enough b c) : Gives source enough a c := by
  refine ⟨fun given => (first.1 given).trans (second.1 given), ?_⟩
  rcases first.2 with deep | rfl
  · exact .inl deep
  · exact second.2

theorem Gives.bind {first : Except ParseError α} {a : α} {next : α → Except ParseError β}
    {expected : Except ParseError β} (done : Gives source enough first (.ok a))
    (others : Gives source enough (next a) expected) :
    Gives source enough (first >>= next) expected := by
  refine ⟨fun given => ?_, ?_⟩
  · rw [done.1 given]
    exact others.1 given
  · rcases done.2 with ⟨span, rfl⟩ | rfl
    · exact .inl ⟨span, rfl⟩
    · exact others.2

end

namespace Source

theorem moveTo_eq (whole : source.failure = none) (ts : List Lexeme) :
    source.moveTo ts = .ok ts := by
  unfold moveTo
  rw [whole]
  split
  · contradiction
  · rfl

theorem expectSymbol_eq (whole : source.failure = none) (s : Symbol) (expected : String)
    (span : Span) (rest : List Lexeme) :
    source.expectSymbol s expected (⟨.symbol s, span⟩ :: rest) = .ok (span, rest) := by
  dsimp only [expectSymbol]
  rw [if_pos (by simp [Token.isSymbol]), moveTo_eq whole]
  rfl

theorem expectKeyword_eq (whole : source.failure = none) (k : Keyword) (expected : String)
    (span : Span) (rest : List Lexeme) :
    source.expectKeyword k expected (⟨.keyword k, span⟩ :: rest) = .ok rest := by
  dsimp only [expectKeyword]
  rw [if_pos (by simp [Token.isKeyword]), moveTo_eq whole]

end Source

theorem joint?_of_listed {n : Nat} {words : List Token} {op : BinaryOp}
    (listed : (words, op) ∈ operators n) :
    (∃ token, words = [token] ∧ token.joint? = some (.binary op) ∧
      (Joint.binary op).level.rank = n) ∨
      words = [.keyword .in, .keyword .versions] ∧ op = .inVersions ∧ n = 4 := by
  unfold operators at listed
  split at listed <;>
    simp only [List.mem_cons, Prod.mk.injEq, List.not_mem_nil, or_false] at listed
  case h_4 => exact .inr ⟨listed.1, listed.2, rfl⟩
  case h_1 | h_2 | h_3 =>
    obtain ⟨rfl, rfl⟩ := listed
    exact .inl ⟨_, rfl, rfl, rfl⟩
  case h_7 | h_8 =>
    rcases listed with ⟨rfl, rfl⟩ | ⟨rfl, rfl⟩
    all_goals exact .inl ⟨_, rfl, rfl, rfl⟩
  case h_9 =>
    rcases listed with ⟨rfl, rfl⟩ | ⟨rfl, rfl⟩ | ⟨rfl, rfl⟩
    all_goals exact .inl ⟨_, rfl, rfl, rfl⟩
  all_goals
    rcases listed with ⟨rfl, rfl⟩ | ⟨rfl, rfl⟩ | ⟨rfl, rfl⟩ | ⟨rfl, rfl⟩
    all_goals exact .inl ⟨_, rfl, rfl, rfl⟩

theorem reach?_of_joint? {token : Token} {joint : Joint} (found : token.joint? = some joint) :
    reach? token = some joint.level.rank := by
  unfold reach?
  split
  case h_5 => rw [found, Option.map_some]
  all_goals cases found

theorem power_eq (allowance : Nat) (deeper : Reader) (ts : List Lexeme) :
    power source allowance deeper ts =
      ((primary source deeper ts >>= fun read => members source allowance read.1 read.2) >>=
        fun
        | (base, ⟨.symbol .power, _⟩ :: rest) => do
          let (exponent, ts) ← deeper .operand (← source.moveTo rest)
          .ok (.binary .power base exponent, ts)
        | result => .ok result) := by
  unfold power
  cases primary source deeper ts with
  | error e => rfl
  | ok read => rfl

theorem chain_stops {least : Level} {rest : List Lexeme} (ends : Ends (.layer least.rank) rest)
    (allowance : Nat) (e : Expr) :
    Gives source (1 ≤ allowance) (reader source allowance (.chain least e) rest)
      (.ok (e, rest)) := by
  cases allowance with
  | zero => exact .deep _ _ (by decide)
  | succ allowance =>
      have stopped : reader source (allowance + 1) (.chain least e) rest = .ok (e, rest) := by
        cases rest with
        | nil => rfl
        | cons lexeme others =>
            dsimp only [reader, step]
            split
            · rename_i joint found
              have loose : joint.level.rank < least.rank :=
                ends lexeme others _ rfl (reach?_of_joint? found)
              rw [if_neg (Nat.not_le.mpr loose)]
            · rfl
      rw [stopped]
      exact .refl _

theorem chain_joins {least : Level} {lexeme : Lexeme} {joint : Joint} {ts rest : List Lexeme}
    {left e : Expr} {need : Nat} (whole : source.failure = none)
    (found : lexeme.token.joint? = some joint) (tight : least.rank ≤ joint.level.rank)
    (joined : ∀ m, Gives source (need ≤ m) (join source (reader source m) joint left ts)
      (.ok (e, rest)))
    (allowance : Nat) :
    ∃ k, allowance ≤ k + 1 ∧
      Gives source (need < allowance) (reader source allowance (.chain least left) (lexeme :: ts))
        (reader source k (.chain least e) rest) := by
  cases allowance with
  | zero => exact ⟨0, Nat.zero_le _, .deep _ _ (Nat.not_lt_zero _)⟩
  | succ allowance =>
      refine ⟨allowance, Nat.le_refl _, ?_⟩
      dsimp only [reader, step]
      rw [found]
      dsimp only
      rw [if_pos tight, Source.moveTo_eq whole]
      exact ((joined allowance).weaken Nat.le_of_lt_succ).bind (.refl _)

/-- How the parser accepts a sentence of each category. An allowance of one level for each lexeme
is enough, and a chain of operators leaves some of it for what comes next. -/
def Accepted (source : Source) (c : Category) (ts : List Lexeme) (t : Tree)
    (rest : List Lexeme) : Prop :=
  match c with
  | .layer n => ∀ (m : Nat) (least : Level), least.rank ≤ n →
    ∃ k, m + rest.length < k + ts.length ∧
      Gives source (ts.length ≤ m + rest.length) (expression (reader source m) least ts)
        (reader source k (.chain least t.expr) rest)
  | .unary => ∀ m, Gives source (ts.length ≤ m + rest.length) (reader source m .operand ts)
    (.ok (t.expr, rest))
  | .power => ∀ m, Gives source (ts.length ≤ m + 1 + rest.length)
    (power source m (reader source m) ts) (.ok (t.expr, rest))
  | .access => ∀ m, ∃ k, m + rest.length < k + ts.length ∧
    Gives source (ts.length ≤ m + 1 + rest.length)
      (primary source (reader source m) ts >>= fun read => members source m read.1 read.2)
      (members source k t.expr rest)
  | .primary => ∀ m, Gives source (ts.length ≤ m + 1 + rest.length)
    (primary source (reader source m) ts) (.ok (t.expr, rest))
  | .items => ∀ m fuel, ts.length < fuel → Gives source (ts.length ≤ m + rest.length)
    (items source (expression (reader source m) .or) fuel ts) (.ok (t.exprs, rest))

section
variable {ts mid after rest : List Lexeme} {t right pattern substitute : Tree}

theorem expression_gives (level : Level) (accepted : Accepted source (.layer level.rank) ts t rest)
    (ends : Ends (.layer level.rank) rest) (m : Nat) :
    Gives source (ts.length ≤ m + rest.length) (expression (reader source m) level ts)
      (.ok (t.expr, rest)) := by
  obtain ⟨k, left, gives⟩ := accepted m level (Nat.le_refl _)
  exact gives.trans ((chain_stops ends k t.expr).weaken (by omega))

theorem join_binary_gives {op : BinaryOp} {level : Level} {left : Expr}
    (next : (Joint.binary op).level.tighter = level)
    (accepted : Accepted source (.layer level.rank) ts right rest)
    (ends : Ends (.layer level.rank) rest) (m : Nat) :
    Gives source (ts.length - rest.length ≤ m)
      (join source (reader source m) (.binary op) left ts)
      (.ok (.binary op left right.expr, rest)) := by
  subst next
  refine ((expression_gives _ accepted ends m).weaken ?_).bind (.refl _)
  omega

theorem join_versions_gives {a : Span} {left : Expr} (whole : source.failure = none)
    (accepted : Accepted source (.layer 5) ts right rest) (ends : Ends (.layer 5) rest) (m : Nat) :
    Gives source (ts.length - rest.length ≤ m)
      (join source (reader source m) .versions left (⟨.keyword .versions, a⟩ :: ts))
      (.ok (.binary .inVersions left right.expr, rest)) := by
  have gives : Gives source (ts.length ≤ m + rest.length)
      (expression (reader source m) .comparison ts) (.ok (right.expr, rest)) :=
    expression_gives .comparison accepted ends m
  dsimp only [join]
  rw [Source.expectKeyword_eq whole]
  refine (gives.weaken ?_).bind (.refl _)
  omega

theorem join_replacement_gives {b : Span} {left : Expr} (whole : source.failure = none)
    (first : Accepted source (.layer 7) ts pattern (⟨.keyword .with, b⟩ :: after))
    (second : Accepted source (.layer 7) after substitute rest) (ends : Ends (.layer 7) rest)
    (searchedShorter : after.length < ts.length) (putShorter : rest.length < after.length)
    (m : Nat) :
    Gives source (ts.length - rest.length ≤ m)
      (join source (reader source m) .replacement left ts)
      (.ok (.replace left pattern.expr substitute.expr, rest)) := by
  have searched : Gives source (ts.length ≤ m + (after.length + 1))
      (expression (reader source m) .joining ts)
      (.ok (pattern.expr, ⟨.keyword .with, b⟩ :: after)) :=
    expression_gives .joining first (ends_of_reach?_eq_none rfl) m
  have put : Gives source (after.length ≤ m + rest.length)
      (expression (reader source m) .joining after) (.ok (substitute.expr, rest)) :=
    expression_gives .joining second ends m
  dsimp only [join]
  refine (searched.weaken ?_).bind ?_
  · omega
  · dsimp only
    rw [Source.expectKeyword_eq whole]
    refine (put.weaken ?_).bind (.refl _)
    omega

end

theorem signed_eq (op : UnaryOp) (e : Expr) : Expr.signed op e = withSign op e := by
  unfold Expr.signed withSign
  rfl

theorem members_gives (whole : source.failure = none) (allowance : Nat) (target : Expr)
    (name : String) (a span : Span) (rest : List Lexeme) :
    ∃ k, allowance ≤ k + 1 ∧ Gives source (1 ≤ allowance)
      (members source allowance target (⟨.symbol .dot, a⟩ :: ⟨.name name, span⟩ :: rest))
      (members source k (withMember name span target) rest) := by
  rw [members, Source.moveTo_eq whole]
  cases target with
  | symbol => exact ⟨allowance, Nat.le_succ _, .refl _⟩
  | _ =>
      cases allowance with
      | zero => exact ⟨0, Nat.zero_le _, .deep (source.here rest) _ (by decide)⟩
      | succ allowance => exact ⟨allowance, Nat.le_refl _, .refl _⟩

theorem members_stops {allowance : Nat} {target : Expr} {rest : List Lexeme}
    (ends : Ends .access rest) : members source allowance target rest = .ok (target, rest) := by
  unfold members
  split
  · exact absurd ends (not_ends_cons rfl (by decide))
  · exact absurd ends (not_ends_cons rfl (by decide))
  · rfl

theorem base_accepted {ts rest : List Lexeme} {t : Tree}
    (accepted : Accepted source .access ts t rest) (ends : Ends .power rest) :
    Accepted source .power ts t rest := by
  intro m
  obtain ⟨k, -, gives⟩ := accepted m
  rw [members_stops (ends.mono (by decide))] at gives
  rw [power_eq]
  refine gives.bind ?_
  split
  · rename_i raised
    cases raised
    exact absurd ends (not_ends_cons rfl (by decide))
  · exact .refl _

theorem power_accepted {ts mid rest : List Lexeme} {base exponent : Tree} {a : Span}
    (whole : source.failure = none)
    (first : Accepted source .access ts base (⟨.symbol .power, a⟩ :: mid))
    (second : Accepted source .unary mid exponent rest) (baseShorter : mid.length + 1 < ts.length)
    (exponentShorter : rest.length < mid.length) :
    Accepted source .power ts (.power base exponent) rest := by
  intro m
  obtain ⟨k, -, gives⟩ := first m
  rw [members_stops (ends_cons rfl (by decide)), List.length_cons] at gives
  rw [power_eq]
  refine (gives.weaken ?_).bind ?_
  · omega
  · dsimp only
    rw [Source.moveTo_eq whole]
    refine ((second m).weaken ?_).bind (.refl _)
    omega

theorem list_gives {ts rest : List Lexeme} {t : Tree} (accepted : Accepted source .items ts t rest)
    (m : Nat) :
    Gives source (ts.length ≤ m + rest.length)
      (items source (expression (reader source m) .or) (ts.length + 1) ts)
      (.ok (t.exprs, rest)) :=
  accepted m (ts.length + 1) (Nat.lt_succ_self _)

theorem arguments_gives {name : String} {start stop : Span} {ts rest : List Lexeme} {args : Tree}
    (whole : source.failure = none)
    (derived : Derives .items ts args (⟨.symbol .rightParen, stop⟩ :: rest))
    (accepted : Accepted source .items ts args (⟨.symbol .rightParen, stop⟩ :: rest)) (m : Nat) :
    Gives source (ts.length ≤ m + rest.length)
      (arguments source (reader source m) name start ts)
      (.ok (.call name args.exprs (start.merge stop), rest)) := by
  unfold arguments
  split
  · exact absurd derived not_items_of_rightParen
  · refine ((list_gives accepted m).weaken ?_).bind ?_
    · rw [List.length_cons]
      omega
    · dsimp only
      rw [Source.expectSymbol_eq whole]
      exact .refl _

theorem group_gives {b : Span} {ts rest : List Lexeme} {t : Tree} (whole : source.failure = none)
    (derived : Derives .items ts t (⟨.symbol .rightParen, b⟩ :: rest))
    (accepted : Accepted source .items ts t (⟨.symbol .rightParen, b⟩ :: rest)) (m : Nat) :
    Gives source (ts.length ≤ m + rest.length) (group source (reader source m) ts)
      (.ok (t.expr, rest)) := by
  refine ((list_gives accepted m).weaken ?_).bind ?_
  · rw [List.length_cons]
    omega
  · rcases expr_of_items derived with
      ⟨first, listed, single⟩ | ⟨first, second, others, listed, tuple⟩
    · rw [listed, single]
      dsimp only
      rw [Source.expectSymbol_eq whole]
      exact .refl _
    · rw [tuple, listed]
      dsimp only
      rw [Source.expectSymbol_eq whole]
      exact .refl _

/-- A chain of operators is accepted up to the joint that its last operator was read at. -/
theorem layer_accepted (joint : Joint) {n : Nat} {lexeme : Lexeme} {ts mid rest : List Lexeme}
    {left t : Tree} (whole : source.failure = none)
    (found : lexeme.token.joint? = some joint) (rank : joint.level.rank = n)
    (first : Accepted source (.layer n) ts left (lexeme :: mid))
    (joined : ∀ m, Gives source (mid.length - rest.length ≤ m)
      (join source (reader source m) joint left.expr mid) (.ok (t.expr, rest)))
    (shorter : rest.length < mid.length) :
    Accepted source (.layer n) ts t rest := by
  intro m least tight
  have reached : least.rank ≤ joint.level.rank := by omega
  obtain ⟨k, more, before⟩ := first m least tight
  rw [List.length_cons] at more before
  obtain ⟨k', kept, after⟩ := chain_joins whole found reached joined k
  refine ⟨k', by omega, (before.weaken ?_).trans (after.weaken ?_)⟩
  · omega
  · omega

section
variable {ts mid rest : List Lexeme} {left right t items : Tree}
  (whole : source.failure = none)
include whole

theorem binary_accepted {n : Nat} {words : List Token} {op : BinaryOp} {signs : List Lexeme}
    (listed : (words, op) ∈ operators n) (spelled : signs.map (·.token) = words)
    (shorter : rest.length < mid.length) (ends : Ends (.layer (n + 1)) rest)
    (first : Accepted source (.layer n) ts left (signs ++ mid))
    (second : Accepted source (.layer (n + 1)) mid right rest) :
    Accepted source (.layer n) ts (.binary op left right) rest := by
  rcases joint?_of_listed listed with ⟨token, rfl, found, rank⟩ | ⟨rfl, rfl, rfl⟩
  · obtain ⟨lexeme, rfl, rfl⟩ := List.map_eq_singleton_iff.mp spelled
    have tight := lt_ten_of_listed listed
    have next : (Joint.binary op).level.tighter.rank = n + 1 := by
      rw [Level.rank_tighter (by omega), rank]
    rw [← next] at second ends
    exact layer_accepted _ whole found rank first (join_binary_gives rfl second ends) shorter
  · obtain ⟨⟨token, a⟩, others, rfl, rfl, last⟩ := List.map_eq_cons_iff.mp spelled
    obtain ⟨⟨token, b⟩, rfl, rfl⟩ := List.map_eq_singleton_iff.mp last
    have chained : Accepted source (.layer 4) ts left
        (⟨.keyword .in, a⟩ :: ⟨.keyword .versions, b⟩ :: mid) := first
    refine layer_accepted .versions whole rfl rfl chained (fun m => ?_) ?_
    · refine (join_versions_gives whole second ends m).weaken ?_
      rw [List.length_cons]
      omega
    · exact Nat.lt_succ_of_lt shorter

theorem sign_accepted {lexeme : Lexeme} {op : UnaryOp} (listed : (lexeme.token, op) ∈ prefixes)
    (shorter : rest.length < ts.length) (operand : Accepted source .unary ts t rest) :
    Accepted source .unary (lexeme :: ts) (.sign op t) rest := by
  intro m
  rw [List.length_cons]
  cases m with
  | zero => exact .deep _ _ (by omega)
  | succ m =>
      dsimp only [reader, step]
      rw [Token.mem_prefixes_iff.mp listed]
      dsimp only
      rw [Source.moveTo_eq whole, Tree.expr, ← signed_eq]
      refine ((operand m).weaken ?_).bind (.refl _)
      omega

omit whole in
theorem unsigned_accepted (derived : Derives .power ts t rest)
    (power : Accepted source .power ts t rest) : Accepted source .unary ts t rest := by
  have shorter := derived.length_lt
  obtain ⟨lexeme, others, rfl, -⟩ := derived.begins
  intro m
  cases m with
  | zero => exact .deep _ _ (by omega)
  | succ m =>
      have unsigned : lexeme.token.prefixOp? = none := by
        cases found : lexeme.token.prefixOp? with
        | none => rfl
        | some op => exact absurd derived (not_power_of_listed (Token.mem_prefixes_iff.mpr found))
      dsimp only [reader, step]
      rw [unsigned]
      exact power m

theorem member_accepted {name : String} {a span : Span}
    (target : Accepted source .access ts t
      (⟨.symbol .dot, a⟩ :: ⟨.name name, span⟩ :: rest)) :
    Accepted source .access ts (.member t name span) rest := by
  intro m
  obtain ⟨k, more, before⟩ := target m
  simp only [List.length_cons] at more before
  obtain ⟨k', kept, after⟩ := members_gives whole k t.expr name a span rest
  refine ⟨k', by omega, (before.weaken ?_).trans (after.weaken ?_)⟩
  · omega
  · omega

theorem name_accepted {spelling : String} {span : Span} (ends : Ends .primary rest) :
    Accepted source .primary (⟨.name spelling, span⟩ :: rest) (.name spelling span) rest := by
  intro m
  unfold Parser.primary
  dsimp only
  rw [Source.moveTo_eq whole, Tree.expr]
  dsimp only [bind, Except.bind]
  split
  · exact absurd ends (not_ends_cons rfl (by decide))
  · cases Literal.ofName? spelling <;> exact .refl _

theorem call_accepted {name : String} {start a stop : Span} :
    Accepted source .primary
      (⟨.name name, start⟩ :: ⟨.symbol .leftParen, a⟩ :: ⟨.symbol .rightParen, stop⟩ :: rest)
      (.call name start stop) rest := by
  intro m
  unfold Parser.primary
  dsimp only
  rw [Source.moveTo_eq whole]
  dsimp only [bind, Except.bind, arguments]
  rw [Source.moveTo_eq whole]
  dsimp only
  rw [Source.moveTo_eq whole]
  exact .refl _

theorem callWith_accepted {name : String} {start a stop : Span}
    (derived : Derives .items ts items (⟨.symbol .rightParen, stop⟩ :: rest))
    (args : Accepted source .items ts items (⟨.symbol .rightParen, stop⟩ :: rest)) :
    Accepted source .primary (⟨.name name, start⟩ :: ⟨.symbol .leftParen, a⟩ :: ts)
      (.callWith name start items stop) rest := by
  intro m
  unfold Parser.primary
  dsimp only
  rw [Source.moveTo_eq whole]
  dsimp only [bind, Except.bind]
  rw [Source.moveTo_eq whole]
  refine (arguments_gives whole derived args m).weaken ?_
  simp only [List.length_cons]
  omega

theorem parens_accepted {a b : Span}
    (derived : Derives .items ts items (⟨.symbol .rightParen, b⟩ :: rest))
    (inner : Accepted source .items ts items (⟨.symbol .rightParen, b⟩ :: rest)) :
    Accepted source .primary (⟨.symbol .leftParen, a⟩ :: ts) (.parens items) rest := by
  intro m
  unfold Parser.primary
  dsimp only
  rw [Source.moveTo_eq whole]
  refine (group_gives whole derived inner m).weaken ?_
  simp only [List.length_cons]
  omega

omit whole in
theorem last_accepted (ends : Ends .items rest) (item : Accepted source (.layer 1) ts t rest) :
    Accepted source .items ts (.last t) rest := by
  intro m fuel enough
  cases fuel with
  | zero => exact absurd enough (Nat.not_lt_zero _)
  | succ fuel =>
      refine (expression_gives .or item (ends.mono (by decide)) m).bind ?_
      dsimp only
      split
      · exact absurd ends (not_ends_cons rfl (by decide))
      · exact .refl _

theorem more_accepted {a : Span} (itemShorter : mid.length + 1 < ts.length)
    (othersShorter : rest.length < mid.length)
    (item : Accepted source (.layer 1) ts t (⟨.symbol .comma, a⟩ :: mid))
    (others : Accepted source .items mid items rest) :
    Accepted source .items ts (.more t items) rest := by
  intro m fuel enough
  cases fuel with
  | zero => exact absurd enough (Nat.not_lt_zero _)
  | succ fuel =>
      have gives := expression_gives .or item (ends_cons rfl (by decide)) m
      rw [List.length_cons] at gives
      refine (gives.weaken (by omega)).bind ?_
      dsimp only
      rw [Source.moveTo_eq whole]
      refine ((others m fuel (by omega)).weaken ?_).bind (.refl _)
      omega

end

/-- Each sentence is accepted with the formula of its tree, if no operand of its category could go
on after it. -/
theorem accepted {c : Category} {ts rest : List Lexeme} {t : Tree} (whole : source.failure = none)
    (derived : Derives c ts t rest) (ends : Ends c.inner rest) : Accepted source c ts t rest := by
  induction derived with
  | binary listed _ spelled operand first second =>
      have tight := lt_ten_of_listed listed
      rw [Category.inner, if_pos tight] at ends first
      exact binary_accepted whole listed spelled operand.length_lt ends
        (first (ends_of_listed listed spelled (Nat.lt_succ_self _)))
        (second (ends.inner_layer tight))
  | replace _ pattern substitute first second third =>
      have searched := second (ends_of_reach?_eq_none rfl)
      have put := third (ends.inner_layer (by decide))
      have searchedShorter := pattern.length_lt
      have putShorter := substitute.length_lt
      rw [List.length_cons] at searchedShorter
      exact layer_accepted .replacement whole rfl rfl (first (ends_cons rfl (by decide)))
        (join_replacement_gives whole searched put ends (by omega) putShorter) (by omega)
  | tighter loose _ ih =>
      rw [Category.inner, if_pos loose] at ends
      intro m least tight
      exact ih (ends.inner_layer loose) m least (Nat.le_succ_of_le tight)
  | operand inner ih =>
      have shorter := inner.length_lt
      intro m least _
      exact ⟨m, by omega, (ih ends m).bind (.refl _)⟩
  | sign listed inner ih => exact sign_accepted whole listed inner.length_lt (ih ends)
  | unsigned inner ih => exact unsigned_accepted inner (ih ends)
  | power base exponent first second =>
      have baseShorter := base.length_lt
      rw [List.length_cons] at baseShorter
      exact power_accepted whole (first (ends_cons rfl (by decide))) (second ends) baseShorter
        exponent.length_lt
  | base _ ih => exact base_accepted (ih (ends.mono (by decide))) ends
  | member _ ih => exact member_accepted whole (ih (ends_cons rfl (by decide)))
  | primary inner ih =>
      have shorter := inner.length_lt
      intro m
      exact ⟨m, by omega, (ih ends m).bind (.refl _)⟩
  | number | text =>
      intro m
      unfold Parser.primary
      dsimp only
      rw [Source.moveTo_eq whole]
      exact .refl _
  | name => exact name_accepted whole ends
  | call => exact call_accepted whole
  | callWith inner ih => exact callWith_accepted whole inner (ih (ends_of_reach?_eq_none rfl))
  | parens inner ih => exact parens_accepted whole inner (ih (ends_of_reach?_eq_none rfl))
  | last _ ih => exact last_accepted ends (ih (ends.mono (by decide)))
  | more first second ih others =>
      have itemShorter := first.length_lt
      rw [List.length_cons] at itemShorter
      exact more_accepted whole itemShorter second.length_lt (ih (ends_cons rfl (by decide)))
        (others ends)

/-- A sentence is read as the formula of its tree. It does not nest too deep if there are no more
lexemes than levels. -/
theorem formula_gives {ts : List Lexeme} {t : Tree} (whole : source.failure = none)
    (sentence : Sentence ts t) :
    Gives source (ts.length ≤ source.limit) (formula source ts) (.ok t.expr) := by
  have read := expression_gives .or (accepted whole sentence (ends_nil _)) (ends_nil _) source.limit
  obtain ⟨lexeme, others, rfl, -⟩ := Derives.begins sentence
  unfold formula
  rw [Source.moveTo_eq whole]
  exact read.bind (.refl _)

theorem formula_ok_of_length_le {ts : List Lexeme} {t : Tree} (whole : source.failure = none)
    (sentence : Sentence ts t) (short : ts.length ≤ source.limit) :
    formula source ts = .ok t.expr :=
  (formula_gives whole sentence).1 short

/-- Unless the text nests too deep, exactly the sentences of the grammar are formulas, and each is
read as the formula of its only tree. -/
theorem formula_ok_iff_sentence (source : Source) (ts : List Lexeme) :
    (∃ span, formula source ts = .error (.tooDeep source.limit span)) ∨
      ∀ e, formula source ts = .ok e ↔
        source.failure = none ∧
          ∃ t, Sentence ts t ∧ (∀ u, Sentence ts u → u = t) ∧ t.expr = e := by
  by_cases deep : ∃ span, formula source ts = .error (.tooDeep source.limit span)
  · exact .inl deep
  · refine .inr fun e => ⟨fun success => ?_, ?_⟩
    · obtain ⟨whole, t, sentence, same⟩ := formula_sound success
      exact ⟨whole, t, sentence, fun u other => Sentence.unique other sentence, same⟩
    · rintro ⟨whole, t, sentence, -, rfl⟩
      exact (formula_gives whole sentence).2.resolve_left deep

end Emend.Formula.Parser
