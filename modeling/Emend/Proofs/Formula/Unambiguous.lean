import Emend.Proofs.Formula.Grammar

/-!
The grammar of formulas is not ambiguous. A sentence goes on as far as it can, and what it goes on
with decides its tree.
-/

set_option autoImplicit false

namespace Emend.Formula.Grammar
open Emend.Text (Span)

/-- How tightly a token binds that makes a sentence before it go on. -/
def reach? : Token → Option Nat
  | .symbol .comma => some 0
  | .symbol .power => some 11
  | .symbol .dot => some 12
  | .symbol .leftParen => some 13
  | token => token.joint?.map (·.level.rank)

/-- The tokens that bind at least as tightly make a sentence of the category go on. -/
def Category.reach : Category → Nat
  | items => 0
  | layer n => n
  | unary | power => 11
  | access => 12
  | primary => 13

/-- No sentence of the category goes on with these lexemes. -/
def Ends (c : Category) (ts : List Lexeme) : Prop :=
  ∀ lexeme rest n, ts = lexeme :: rest → reach? lexeme.token = some n → n < c.reach

theorem Ends.mono {c d : Category} {ts : List Lexeme} (ends : Ends c ts)
    (tighter : c.reach ≤ d.reach) : Ends d ts :=
  fun lexeme rest n here reached => Nat.lt_of_lt_of_le (ends lexeme rest n here reached) tighter

theorem ends_nil (c : Category) : Ends c [] := fun _ _ _ here => nomatch here

theorem ends_cons {c : Category} {lexeme : Lexeme} {rest : List Lexeme} {n : Nat}
    (reached : reach? lexeme.token = some n) (loose : n < c.reach) : Ends c (lexeme :: rest) := by
  intro _ _ m here again
  cases here
  rw [reached] at again
  cases again
  exact loose

theorem ends_of_reach?_eq_none {c : Category} {lexeme : Lexeme} {rest : List Lexeme}
    (stranger : reach? lexeme.token = none) : Ends c (lexeme :: rest) := by
  intro _ _ m here again
  cases here
  rw [stranger] at again
  cases again

theorem not_ends_cons {c : Category} {lexeme : Lexeme} {rest : List Lexeme} {n : Nat}
    (reached : reach? lexeme.token = some n) (tight : c.reach ≤ n) : ¬ Ends c (lexeme :: rest) :=
  fun ends => Nat.not_lt.mpr tight (ends lexeme rest n rfl reached)

/-- The first word of an operator tells its precedence, its other words and the operator. -/
theorem words_eq_cons {n : Nat} {words : List Token} {op : BinaryOp}
    (listed : (words, op) ∈ operators n) :
    ∃ token others, words = token :: others ∧ reach? token = some n ∧
      token ≠ .keyword .replace ∧
      ∀ words' op', (token :: words', op') ∈ operators n → words' = others ∧ op' = op := by
  unfold operators at listed
  split at listed <;>
    simp only [List.mem_cons, Prod.mk.injEq, List.not_mem_nil, or_false] at listed
  case h_1 | h_2 | h_3 | h_4 =>
    obtain ⟨rfl, rfl⟩ := listed
    exact ⟨_, _, rfl, rfl, by simp, by simp [operators]⟩
  case h_7 | h_8 =>
    rcases listed with ⟨rfl, rfl⟩ | ⟨rfl, rfl⟩
    all_goals exact ⟨_, _, rfl, rfl, by simp, by simp [operators]⟩
  case h_9 =>
    rcases listed with ⟨rfl, rfl⟩ | ⟨rfl, rfl⟩ | ⟨rfl, rfl⟩
    all_goals exact ⟨_, _, rfl, rfl, by simp, by simp [operators]⟩
  all_goals
    rcases listed with ⟨rfl, rfl⟩ | ⟨rfl, rfl⟩ | ⟨rfl, rfl⟩ | ⟨rfl, rfl⟩
    all_goals exact ⟨_, _, rfl, rfl, by simp, by simp [operators]⟩

/-- One way for a sentence of a left-recursive category to go on: what makes the tree `left`
before `ts` into the tree `t` before `rest`. -/
inductive Step : Category → List Lexeme → Tree → List Lexeme → Tree → Prop
  | binary {n : Nat} {words : List Token} {op : BinaryOp} {ts signs mid rest : List Lexeme}
      {left right : Tree} (listed : (words, op) ∈ operators n) (here : ts = signs ++ mid)
      (spelled : signs.map (·.token) = words) (second : Derives (.layer (n + 1)) mid right rest) :
      Step (.layer n) ts left rest (.binary op left right)
  | replace {before after rest : List Lexeme} {input pattern substitute : Tree} {a b : Span}
      (second : Derives (.layer 7) before pattern (⟨.keyword .with, b⟩ :: after))
      (third : Derives (.layer 7) after substitute rest) :
      Step (.layer 6) (⟨.keyword .replace, a⟩ :: before) input rest
        (.replace input pattern substitute)
  | member {rest : List Lexeme} {target : Tree} {name : String} {a span : Span} :
      Step .access (⟨.symbol .dot, a⟩ :: ⟨.name name, span⟩ :: rest) target rest
        (.member target name span)

inductive Steps (c : Category) : List Lexeme → Tree → List Lexeme → Tree → Prop
  | done {ts : List Lexeme} {t : Tree} : Steps c ts t ts t
  | step {ts mid rest : List Lexeme} {left next t : Tree} (first : Step c ts left mid next)
      (others : Steps c mid next rest t) : Steps c ts left rest t

theorem Steps.snoc {c : Category} {ts mid rest : List Lexeme} {left t next : Tree}
    (steps : Steps c ts left mid t) (last : Step c mid t rest next) :
    Steps c ts left rest next := by
  induction steps with
  | done => exact .step last .done
  | step first _ ih => exact .step first (ih last)

theorem Step.begins {c : Category} {ts rest : List Lexeme} {left t : Tree}
    (step : Step c ts left rest t) :
    ∃ lexeme others, ts = lexeme :: others ∧ reach? lexeme.token = some c.reach := by
  cases step with
  | binary listed here spelled _ =>
      obtain ⟨token, words, rfl, reached, -, -⟩ := words_eq_cons listed
      obtain ⟨lexeme, signs, rfl, rfl, -⟩ := List.map_eq_cons_iff.mp spelled
      exact ⟨lexeme, _, here, reached⟩
  | replace | member => exact ⟨_, _, rfl, rfl⟩

theorem Steps.eq_of_ends {c : Category} {ts rest : List Lexeme} {left t : Tree}
    (steps : Steps c ts left rest t) (ends : Ends c ts) : left = t ∧ ts = rest := by
  cases steps with
  | done => exact ⟨rfl, rfl⟩
  | step first _ =>
      obtain ⟨lexeme, others, rfl, reached⟩ := first.begins
      exact absurd ends (not_ends_cons reached (Nat.le_refl _))

/-- What follows the operand that steps begin at, and what follows any of their operands. -/
theorem Steps.ends {c d : Category} {ts rest : List Lexeme} {left t : Tree}
    (steps : Steps c ts left rest t) (ends : Ends c rest) (tighter : c.reach < d.reach) :
    Ends d ts := by
  cases steps with
  | done => exact ends.mono (Nat.le_of_lt tighter)
  | step first _ =>
      obtain ⟨lexeme, others, rfl, reached⟩ := first.begins
      exact ends_cons reached tighter

theorem Step.of_binary {n : Nat} {words : List Token} {op : BinaryOp}
    {signs mid rest : List Lexeme} {left next : Tree} (listed : (words, op) ∈ operators n)
    (spelled : signs.map (·.token) = words)
    (step : Step (.layer n) (signs ++ mid) left rest next) :
    ∃ right, Derives (.layer (n + 1)) mid right rest ∧ next = .binary op left right := by
  obtain ⟨token, others, rfl, reached, noReplace, only⟩ := words_eq_cons listed
  obtain ⟨lexeme, signs, rfl, rfl, spelled⟩ := List.map_eq_cons_iff.mp spelled
  cases step with
  | binary listed' here spelled' second =>
      obtain ⟨token', others', rfl, -⟩ := words_eq_cons listed'
      obtain ⟨lexeme', signs', rfl, rfl, spelled'⟩ := List.map_eq_cons_iff.mp spelled'
      obtain ⟨rfl, later⟩ := List.cons.inj here
      obtain ⟨rfl, rfl⟩ := only _ _ listed'
      have lengths : signs.length = signs'.length := by
        simpa using congrArg List.length (spelled.trans spelled'.symm)
      obtain ⟨-, rfl⟩ := List.append_inj later lengths
      exact ⟨_, second, rfl⟩
  | replace => exact absurd rfl noReplace

/-- The category of the operand that the chains of a left-recursive category begin with. -/
def Category.inner : Category → Category
  | layer n => if n < 10 then layer (n + 1) else unary
  | access => primary
  | c => c

theorem lt_ten_of_listed {n : Nat} {words : List Token} {op : BinaryOp}
    (listed : (words, op) ∈ operators n) : n < 10 := by
  unfold operators at listed
  split at listed <;> first | decide | cases listed

/-- A derivation is an operand and the steps after it. -/
theorem Derives.spine {c : Category} {ts rest : List Lexeme} {t : Tree}
    (derived : Derives c ts t rest) :
    ∃ mid first, Derives c.inner ts first mid ∧ Steps c mid first rest t := by
  by_cases plain : c.inner = c
  · exact ⟨rest, t, plain.symm ▸ derived, .done⟩
  · induction derived with
    | binary listed _ spelled second first =>
        obtain ⟨mid, operand, start, steps⟩ := first plain
        exact ⟨mid, operand, start, steps.snoc (.binary listed rfl spelled second)⟩
    | replace _ second third first =>
        obtain ⟨mid, operand, start, steps⟩ := first plain
        exact ⟨mid, operand, start, steps.snoc (.replace second third)⟩
    | tighter loose inner =>
        refine ⟨_, _, ?_, .done⟩
        rw [Category.inner, if_pos loose]
        exact inner
    | member _ first =>
        obtain ⟨mid, operand, start, steps⟩ := first plain
        exact ⟨mid, operand, start, steps.snoc .member⟩
    | operand inner | primary inner => exact ⟨_, _, inner, .done⟩
    | _ => exact absurd rfl plain

theorem Ends.inner_layer {n : Nat} {ts : List Lexeme} (ends : Ends (.layer n) ts)
    (proper : n ≤ 10) : Ends (Category.layer n).inner ts := by
  rw [Category.inner]
  split
  · exact ends.mono (Nat.le_succ n)
  · exact ends.mono (Nat.le_succ_of_le proper)

section
variable {n : Nat} {words : List Token} {op : BinaryOp} {signs rest : List Lexeme}
  (listed : (words, op) ∈ operators n) (spelled : signs.map (·.token) = words)
include listed spelled

theorem begins_of_listed (rest : List Lexeme) :
    ∃ lexeme others, signs ++ rest = lexeme :: others ∧ reach? lexeme.token = some n ∧
      lexeme.token ≠ .keyword .replace := by
  obtain ⟨token, others, rfl, reached, other, -⟩ := words_eq_cons listed
  obtain ⟨lexeme, signs, rfl, rfl, -⟩ := List.map_eq_cons_iff.mp spelled
  exact ⟨lexeme, _, rfl, reached, other⟩

theorem ends_of_listed {c : Category} (tighter : n < c.reach) : Ends c (signs ++ rest) := by
  obtain ⟨lexeme, others, here, reached, -⟩ := begins_of_listed listed spelled rest
  rw [here]
  exact ends_cons reached tighter

theorem not_ends_of_listed : ¬ Ends (.layer n) (signs ++ rest) := by
  obtain ⟨lexeme, others, here, reached, -⟩ := begins_of_listed listed spelled rest
  rw [here]
  exact not_ends_cons reached (Nat.le_refl n)

end

theorem not_opens_of_listed {token : Token} {op : UnaryOp} (listed : (token, op) ∈ prefixes) :
    opens token = false := by
  simp only [prefixes, List.mem_cons, Prod.mk.injEq, List.not_mem_nil, or_false] at listed
  rcases listed with ⟨rfl, -⟩ | ⟨rfl, -⟩ | ⟨rfl, -⟩ <;> rfl

theorem prefixes_unique {token : Token} {op op' : UnaryOp} (listed : (token, op) ∈ prefixes)
    (again : (token, op') ∈ prefixes) : op = op' := by
  simp only [prefixes, List.mem_cons, Prod.mk.injEq, List.not_mem_nil, or_false] at listed again
  rcases listed with ⟨rfl, rfl⟩ | ⟨rfl, rfl⟩ | ⟨rfl, rfl⟩ <;> simpa [eq_comm] using again

theorem not_power_of_listed {lexeme : Lexeme} {op : UnaryOp} {ts rest : List Lexeme} {t : Tree}
    (listed : (lexeme.token, op) ∈ prefixes) : ¬ Derives .power (lexeme :: ts) t rest := by
  intro derived
  obtain ⟨_, _, here, first⟩ := derived.begins
  cases here
  have closed := not_opens_of_listed listed
  rw [Category.begins, closed] at first
  cases first

theorem not_items_of_rightParen {a : Span} {ts rest : List Lexeme} {t : Tree} :
    ¬ Derives .items (⟨.symbol .rightParen, a⟩ :: ts) t rest := by
  intro derived
  obtain ⟨_, _, here, first⟩ := derived.begins
  cases here
  rcases first with impossible | ⟨op, listed⟩
  · cases impossible
  · simp [prefixes] at listed

/-- Each longest sentence at the start of the same lexemes begins with this one and goes on from
its end. -/
def Leads (c : Category) (ts : List Lexeme) (t : Tree) (rest : List Lexeme) : Prop :=
  ∀ s u, Derives c ts u s → Ends c s → Steps c rest t s u

theorem Leads.eq {c : Category} {ts rest s : List Lexeme} {t u : Tree} (leads : Leads c ts t rest)
    (stops : Ends c rest) (longest : Derives c ts u s) (ends : Ends c s) : t = u ∧ rest = s :=
  (leads s u longest ends).eq_of_ends stops

section
variable {ts mid after rest : List Lexeme} {left right input pattern substitute base exponent t
  items : Tree}

theorem leads_binary {n : Nat} {words : List Token} {op : BinaryOp} {signs : List Lexeme}
    (listed : (words, op) ∈ operators n) (spelled : signs.map (·.token) = words)
    (stops : Ends (.layer (n + 1)) rest) (first : Leads (.layer n) ts left (signs ++ mid))
    (second : Leads (.layer (n + 1)) mid right rest) :
    Leads (.layer n) ts (.binary op left right) rest := by
  intro s u longest ends
  cases first s u longest ends with
  | done => exact absurd ends (not_ends_of_listed listed spelled)
  | step next others =>
      obtain ⟨right', other, rfl⟩ := next.of_binary listed spelled
      have operandEnds : Ends (.layer (n + 1)) _ := others.ends ends (Nat.lt_succ_self n)
      obtain ⟨rfl, rfl⟩ := second.eq stops other operandEnds
      exact others

theorem leads_replace {a b : Span} (stops : Ends (.layer 7) rest)
    (first : Leads (.layer 6) ts input (⟨.keyword .replace, a⟩ :: mid))
    (second : Leads (.layer 7) mid pattern (⟨.keyword .with, b⟩ :: after))
    (third : Leads (.layer 7) after substitute rest) :
    Leads (.layer 6) ts (.replace input pattern substitute) rest := by
  intro s u longest ends
  cases first s u longest ends with
  | done => exact absurd ends (not_ends_cons rfl (by decide))
  | step next others =>
      cases next with
      | binary listed here spelled _ =>
          obtain ⟨lexeme, rest, start, -, other⟩ := begins_of_listed listed spelled _
          rw [start] at here
          cases here
          exact absurd rfl other
      | replace second' third' =>
          obtain ⟨rfl, same⟩ := second.eq (ends_of_reach?_eq_none rfl) second'
            (ends_of_reach?_eq_none rfl)
          cases same
          obtain ⟨rfl, rfl⟩ := third.eq stops third' (others.ends ends (by decide))
          exact others

theorem leads_tighter {n : Nat} (loose : n < 10) (stops : Ends (.layer (n + 1)) rest)
    (inner : Leads (.layer (n + 1)) ts t rest) : Leads (.layer n) ts t rest := by
  intro s u longest ends
  obtain ⟨mid, operand, start, steps⟩ := longest.spine
  rw [Category.inner, if_pos loose] at start
  obtain ⟨rfl, rfl⟩ := inner.eq stops start (steps.ends ends (Nat.lt_succ_self n))
  exact steps

theorem leads_operand (stops : Ends .unary rest) (inner : Leads .unary ts t rest) :
    Leads (.layer 10) ts t rest := by
  intro s u longest ends
  cases longest with
  | binary listed => cases listed
  | tighter loose => exact absurd loose (by decide)
  | operand other =>
      obtain ⟨rfl, rfl⟩ := inner.eq stops other (ends.mono (by decide))
      exact .done

theorem leads_sign {lexeme : Lexeme} {op : UnaryOp} (listed : (lexeme.token, op) ∈ prefixes)
    (stops : Ends .unary rest) (inner : Leads .unary ts t rest) :
    Leads .unary (lexeme :: ts) (.sign op t) rest := by
  intro s u longest ends
  cases longest with
  | sign listed' other =>
      cases prefixes_unique listed listed'
      obtain ⟨rfl, rfl⟩ := inner.eq stops other ends
      exact .done
  | unsigned other => exact absurd other (not_power_of_listed listed)

theorem leads_unsigned (derived : Derives .power ts t rest) (stops : Ends .unary rest)
    (inner : Leads .power ts t rest) : Leads .unary ts t rest := by
  intro s u longest ends
  cases longest with
  | sign listed _ => exact absurd derived (not_power_of_listed listed)
  | unsigned other =>
      obtain ⟨rfl, rfl⟩ := inner.eq (stops.mono (by decide)) other (ends.mono (by decide))
      exact .done

theorem leads_power {a : Span} (stops : Ends .unary rest)
    (first : Leads .access ts base (⟨.symbol .power, a⟩ :: mid))
    (second : Leads .unary mid exponent rest) : Leads .power ts (.power base exponent) rest := by
  have raised : Ends .access (⟨.symbol .power, a⟩ :: mid) := ends_cons rfl (by decide)
  intro s u longest ends
  cases longest with
  | power first' second' =>
      obtain ⟨rfl, same⟩ := first.eq raised first' (ends_cons rfl (by decide))
      cases same
      obtain ⟨rfl, rfl⟩ := second.eq stops second' (ends.mono (by decide))
      exact .done
  | base other =>
      obtain ⟨-, rfl⟩ := first.eq raised other (ends.mono (by decide))
      exact absurd ends (not_ends_cons rfl (by decide))

theorem leads_base (stops : Ends .power rest) (inner : Leads .access ts t rest) :
    Leads .power ts t rest := by
  intro s u longest ends
  cases longest with
  | power first' _ =>
      obtain ⟨-, rfl⟩ := inner.eq (stops.mono (by decide)) first' (ends_cons rfl (by decide))
      exact absurd stops (not_ends_cons rfl (by decide))
  | base other =>
      obtain ⟨rfl, rfl⟩ := inner.eq (stops.mono (by decide)) other (ends.mono (by decide))
      exact .done

theorem leads_member {name : String} {a span : Span}
    (target : Leads .access ts t (⟨.symbol .dot, a⟩ :: ⟨.name name, span⟩ :: rest)) :
    Leads .access ts (.member t name span) rest := by
  intro s u longest ends
  cases target s u longest ends with
  | done => exact absurd ends (not_ends_cons rfl (by decide))
  | step next others =>
      cases next
      exact others

theorem leads_primary (stops : Ends .primary rest) (inner : Leads .primary ts t rest) :
    Leads .access ts t rest := by
  intro s u longest ends
  obtain ⟨mid, operand, start, steps⟩ := longest.spine
  obtain ⟨rfl, rfl⟩ := inner.eq stops start (steps.ends ends (by decide))
  exact steps

theorem leads_name {spelling : String} {span : Span} (stops : Ends .primary rest) :
    Leads .primary (⟨.name spelling, span⟩ :: rest) (.name spelling span) rest := by
  intro s u longest ends
  cases longest with
  | name => exact .done
  | call | callWith => exact absurd stops (not_ends_cons rfl (by decide))

theorem leads_call {name : String} {start a stop : Span} :
    Leads .primary
      (⟨.name name, start⟩ :: ⟨.symbol .leftParen, a⟩ :: ⟨.symbol .rightParen, stop⟩ :: rest)
      (.call name start stop) rest := by
  intro s u longest ends
  cases longest with
  | name => exact absurd ends (not_ends_cons rfl (by decide))
  | call => exact .done
  | callWith other => exact absurd other not_items_of_rightParen

theorem leads_callWith {name : String} {start a stop : Span}
    (derived : Derives .items ts items (⟨.symbol .rightParen, stop⟩ :: rest))
    (inner : Leads .items ts items (⟨.symbol .rightParen, stop⟩ :: rest)) :
    Leads .primary (⟨.name name, start⟩ :: ⟨.symbol .leftParen, a⟩ :: ts)
      (.callWith name start items stop) rest := by
  intro s u longest ends
  cases longest with
  | name => exact absurd ends (not_ends_cons rfl (by decide))
  | call => exact absurd derived not_items_of_rightParen
  | callWith other =>
      obtain ⟨rfl, same⟩ := inner.eq (ends_of_reach?_eq_none rfl) other
        (ends_of_reach?_eq_none rfl)
      cases same
      exact .done

theorem leads_parens {a b : Span}
    (inner : Leads .items ts items (⟨.symbol .rightParen, b⟩ :: rest)) :
    Leads .primary (⟨.symbol .leftParen, a⟩ :: ts) (.parens items) rest := by
  intro s u longest _
  cases longest with
  | parens other =>
      obtain ⟨rfl, same⟩ := inner.eq (ends_of_reach?_eq_none rfl) other
        (ends_of_reach?_eq_none rfl)
      cases same
      exact .done

theorem leads_last (stops : Ends .items rest) (inner : Leads (.layer 1) ts t rest) :
    Leads .items ts (.last t) rest := by
  intro s u longest ends
  cases longest with
  | last other =>
      obtain ⟨rfl, rfl⟩ := inner.eq (stops.mono (by decide)) other (ends.mono (by decide))
      exact .done
  | more first _ =>
      obtain ⟨-, rfl⟩ := inner.eq (stops.mono (by decide)) first (ends_cons rfl (by decide))
      exact absurd stops (not_ends_cons rfl (by decide))

theorem leads_more {a : Span} (stops : Ends .items rest)
    (first : Leads (.layer 1) ts t (⟨.symbol .comma, a⟩ :: mid))
    (second : Leads .items mid items rest) : Leads .items ts (.more t items) rest := by
  have separated : Ends (.layer 1) (⟨.symbol .comma, a⟩ :: mid) := ends_cons rfl (by decide)
  intro s u longest ends
  cases longest with
  | last other =>
      obtain ⟨-, rfl⟩ := first.eq separated other (ends.mono (by decide))
      exact absurd ends (not_ends_cons rfl (by decide))
  | more first' second' =>
      obtain ⟨rfl, same⟩ := first.eq separated first' (ends_cons rfl (by decide))
      cases same
      obtain ⟨rfl, rfl⟩ := second.eq stops second' ends
      exact .done

end

/-- A sentence leads all longer ones, unless an operand in it could go on. -/
theorem Derives.leads {c : Category} {ts rest : List Lexeme} {t : Tree}
    (derived : Derives c ts t rest) (stops : Ends c.inner rest) : Leads c ts t rest := by
  induction derived with
  | binary listed _ spelled _ first second =>
      have tight := lt_ten_of_listed listed
      rw [Category.inner, if_pos tight] at stops first
      exact leads_binary listed spelled stops
        (first (ends_of_listed listed spelled (Nat.lt_succ_self _)))
        (second (stops.inner_layer tight))
  | replace _ _ _ first second third =>
      exact leads_replace stops (first (ends_cons rfl (by decide)))
        (second (ends_of_reach?_eq_none rfl)) (third (stops.inner_layer (by decide)))
  | tighter loose _ ih =>
      rw [Category.inner, if_pos loose] at stops
      exact leads_tighter loose stops (ih (stops.inner_layer loose))
  | operand _ ih => exact leads_operand stops (ih stops)
  | sign listed _ ih => exact leads_sign listed stops (ih stops)
  | unsigned inner ih => exact leads_unsigned inner stops (ih (stops.mono (by decide)))
  | power _ _ first second =>
      exact leads_power (stops.mono (by decide)) (first (ends_cons rfl (by decide)))
        (second (stops.mono (by decide)))
  | base _ ih => exact leads_base stops (ih (stops.mono (by decide)))
  | member _ ih => exact leads_member (ih (ends_cons rfl (by decide)))
  | primary _ ih => exact leads_primary stops (ih stops)
  | number | text =>
      intro s u longest _
      cases longest
      exact .done
  | name => exact leads_name stops
  | call => exact leads_call
  | callWith inner ih => exact leads_callWith inner (ih (ends_of_reach?_eq_none rfl))
  | parens _ ih => exact leads_parens (ih (ends_of_reach?_eq_none rfl))
  | last _ ih => exact leads_last stops (ih (stops.mono (by decide)))
  | more _ _ first second =>
      exact leads_more stops (first (ends_cons rfl (by decide))) (second stops)

/-- A sentence that cannot go on has one tree, and ends at one place. -/
theorem Derives.unique {c : Category} {ts r s : List Lexeme} {t u : Tree}
    (first : Derives c ts t r) (second : Derives c ts u s) (stops : Ends c r) (ends : Ends c s)
    (inner : Ends c.inner r) : t = u ∧ r = s :=
  (first.leads inner).eq stops second ends

theorem Sentence.unique {ts : List Lexeme} {t u : Tree} (first : Sentence ts t)
    (second : Sentence ts u) : t = u :=
  (Derives.unique first second (ends_nil _) (ends_nil _) (ends_nil _)).1

end Emend.Formula.Grammar
