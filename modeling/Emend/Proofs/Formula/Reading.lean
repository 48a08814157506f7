import Emend.Proofs.Except
import Emend.Proofs.Formula.Grammar

/-!
What the parser reads is a sentence of the grammar, with the formula of its tree.
-/

set_option autoImplicit false

namespace Emend.Formula

namespace Level

theorem rank_tighter {level : Level} (loose : level.rank < 10) :
    level.tighter.rank = level.rank + 1 := by
  cases level <;> first | rfl | exact absurd loose (by decide)

theorem rank_le (level : Level) : level.rank ≤ 10 := by cases level <;> decide

end Level

namespace Token
open Grammar

theorem mem_prefixes_iff {token : Token} {op : UnaryOp} :
    (token, op) ∈ prefixes ↔ token.prefixOp? = some op := by
  constructor
  · intro listed
    simp only [prefixes, List.mem_cons, Prod.mk.injEq, List.not_mem_nil, or_false] at listed
    rcases listed with ⟨rfl, rfl⟩ | ⟨rfl, rfl⟩ | ⟨rfl, rfl⟩ <;> rfl
  · intro found
    unfold prefixOp? at found
    split at found <;> cases found <;> simp [prefixes]

/-- What the parser takes for a joint is an operator of the precedence that it goes by. -/
theorem joint?_eq_some {token : Token} {joint : Joint} (found : token.joint? = some joint) :
    joint.level.rank < 10 ∧
      match joint with
      | .binary op => ([token], op) ∈ operators joint.level.rank
      | .versions => token = .keyword .in
      | .replacement => token = .keyword .replace := by
  cases token with
  | symbol s => cases s <;> cases found <;> simp [Joint.level, Level.rank, operators]
  | keyword k => cases k <;> cases found <;> simp [Joint.level, Level.rank, operators]
  | _ => cases found

end Token

namespace Parser
open Grammar

namespace Source

/-- No failure hides after the lexemes that remain. -/
def Open (source : Source) (ts : List Lexeme) : Prop := ts = [] → source.failure = none

theorem of_moveTo_ok {source : Source} {ts us : List Lexeme} (moved : source.moveTo ts = .ok us) :
    us = ts ∧ source.Open ts := by
  unfold moveTo at moved
  split at moved <;> cases moved
  rename_i apart
  refine ⟨rfl, fun empty => ?_⟩
  cases failed : source.failure with
  | none => rfl
  | some failure => exact (apart failure empty failed).elim

theorem of_expectSymbol_ok {source : Source} {s : Symbol} {expected : String}
    {ts rest : List Lexeme} {span : Text.Span}
    (success : source.expectSymbol s expected ts = .ok (span, rest)) :
    ts = ⟨.symbol s, span⟩ :: rest ∧ source.Open rest := by
  unfold expectSymbol at success
  split at success
  · split at success
    · rename_i lexeme _ same
      obtain ⟨us, moved, same'⟩ := of_map_ok success
      cases same'
      obtain ⟨rfl, closed⟩ := of_moveTo_ok moved
      obtain ⟨token, span⟩ := lexeme
      cases token <;> simp [Token.isSymbol] at same
      exact ⟨by rw [same], closed⟩
    · cases success
  · cases success

theorem of_expectKeyword_ok {source : Source} {k : Keyword} {expected : String}
    {ts rest : List Lexeme} (success : source.expectKeyword k expected ts = .ok rest) :
    ∃ span, ts = ⟨.keyword k, span⟩ :: rest ∧ source.Open rest := by
  unfold expectKeyword at success
  split at success
  · split at success
    · rename_i lexeme _ same
      obtain ⟨rfl, closed⟩ := of_moveTo_ok success
      obtain ⟨token, span⟩ := lexeme
      cases token <;> simp [Token.isKeyword] at same
      exact ⟨span, by rw [same], closed⟩
    · cases success
  · cases success

end Source

/-- Whether an operator of the precedence or a tighter one would come next. -/
def Loose (n : Nat) (ts : List Lexeme) : Prop :=
  ∀ lexeme rest joint, ts = lexeme :: rest → lexeme.token.joint? = some joint →
    joint.level.rank < n

theorem loose_nil (n : Nat) : Loose n [] := by
  intro _ _ _ here
  cases here

theorem loose_cons {n : Nat} {lexeme : Lexeme} {rest : List Lexeme}
    (each : ∀ joint, lexeme.token.joint? = some joint → joint.level.rank < n) :
    Loose n (lexeme :: rest) := by
  intro _ _ joint here found
  cases here
  exact each joint found

theorem loosen {n m : Nat} {ts rest : List Lexeme} {t : Tree}
    (derived : Derives (.layer n) ts t rest) (looser : m ≤ n) (proper : n ≤ 10) :
    Derives (.layer m) ts t rest := by
  obtain ⟨more, rfl⟩ := Nat.exists_eq_add_of_le looser
  induction more with
  | zero => exact derived
  | succ more ih =>
      exact ih (.tighter (by omega) derived) (Nat.le_add_right _ _) (by omega)

theorem expr_of_items {ts rest : List Lexeme} {t : Tree} (derived : Derives .items ts t rest) :
    (∃ first, t.exprs = [first] ∧ t.expr = first) ∨
      ∃ first second others, t.exprs = first :: second :: others ∧ t.expr = .tuple t.exprs := by
  cases derived with
  | last => exact .inl ⟨_, rfl, rfl⟩
  | more _ others => cases others <;> exact .inr ⟨_, _, _, rfl, rfl⟩

section
variable {source : Source}

theorem members_sound {allowance : Nat} {target e : Expr} {start ts rest : List Lexeme} {t : Tree}
    (before : Derives .access start t ts) (same : t.expr = target) (closed : source.Open ts)
    (success : members source allowance target ts = .ok (e, rest)) :
    ∃ u, Derives .access start u rest ∧ u.expr = e ∧ source.Open rest := by
  fun_induction members source allowance target ts generalizing t with
  | case1 allowance target _ name span others path computed =>
      obtain ⟨after, moved, success⟩ := of_bind_ok success
      obtain ⟨rfl, closed⟩ := Source.of_moveTo_ok moved
      have next := Derives.member before
      subst same
      split at success
      · rename_i same _
        refine path _ _ _ next ?_ closed success
        rw [Tree.expr, same]
        rfl
      · cases success
      · rename_i other _
        refine computed _ _ next ?_ closed success
        rw [Tree.expr, withMember]
        exact other
  | case2 =>
      obtain ⟨after, -, success⟩ := of_bind_ok success
      cases success
  | case3 =>
      cases success
      exact ⟨t, before, same, closed⟩

theorem items_sound {item : List Lexeme → Except ParseError (Expr × List Lexeme)}
    (itemSound : ∀ ts e rest, item ts = .ok (e, rest) →
      ∃ t, Derives (.layer 1) ts t rest ∧ t.expr = e ∧ source.Open rest)
    {fuel : Nat} {ts rest : List Lexeme} {es : List Expr} (enough : ts.length < fuel)
    (success : items source item fuel ts = .ok (es, rest)) :
    ∃ t, Derives .items ts t rest ∧ t.exprs = es ∧ source.Open rest := by
  induction fuel generalizing ts es with
  | zero => exact absurd enough (Nat.not_lt_zero _)
  | succ fuel ih =>
      obtain ⟨⟨first, after⟩, read, success⟩ := of_bind_ok success
      obtain ⟨t, derived, rfl, closed⟩ := itemSound ts first after read
      have shorter := derived.length_lt
      dsimp only at success
      split at success
      · obtain ⟨mid, moved, others⟩ := of_bind_ok success
        obtain ⟨rfl, -⟩ := Source.of_moveTo_ok moved
        obtain ⟨⟨others, last⟩, more, done⟩ := of_bind_ok others
        cases done
        rw [List.length_cons] at shorter
        obtain ⟨u, following, rfl, closed⟩ := ih (by omega) more
        exact ⟨.more t u, .more derived following, rfl, closed⟩
      · cases success
        exact ⟨.last t, .last derived, rfl, closed⟩

/-- What a reader answers is a sentence: of the operands, or of the layer of the operators that it
was to chain. The tree before it must bind at least as tightly as the operator that comes next. -/
structure Sound (source : Source) (deeper : Reader) : Prop where
  operand : ∀ ts e rest, deeper .operand ts = .ok (e, rest) →
    ∃ t, Derives .unary ts t rest ∧ t.expr = e ∧ source.Open rest
  chain : ∀ least start left ts e rest n, Derives (.layer n) start left ts → least.rank ≤ n →
    n ≤ 10 → Loose (n + 1) ts → source.Open ts →
    deeper (.chain least left.expr) ts = .ok (e, rest) →
    ∃ t, Derives (.layer least.rank) start t rest ∧ t.expr = e ∧ Loose least.rank rest ∧
      source.Open rest

section
variable {deeper : Reader} (sound : Sound source deeper)
include sound

theorem expression_sound {least : Level} {ts rest : List Lexeme} {e : Expr}
    (success : expression deeper least ts = .ok (e, rest)) :
    ∃ t, Derives (.layer least.rank) ts t rest ∧ t.expr = e ∧ Loose least.rank rest ∧
      source.Open rest := by
  obtain ⟨⟨left, after⟩, first, success⟩ := of_bind_ok success
  obtain ⟨t, derived, rfl, closed⟩ := sound.operand ts left after first
  refine sound.chain least ts t after e rest 10 (.operand derived) least.rank_le (Nat.le_refl _) ?_
    closed success
  intro lexeme others joint here found
  exact Nat.lt_succ_of_lt (Token.joint?_eq_some found).1

theorem list_sound {ts rest : List Lexeme} {es : List Expr}
    (success : items source (expression deeper .or) (ts.length + 1) ts = .ok (es, rest)) :
    ∃ t, Derives .items ts t rest ∧ t.exprs = es ∧ source.Open rest := by
  apply items_sound _ (Nat.lt_succ_self _) success
  intro ts e rest read
  obtain ⟨t, derived, same, -, closed⟩ := expression_sound sound read
  exact ⟨t, derived, same, closed⟩

theorem group_sound {a : Text.Span} {ts rest : List Lexeme} {e : Expr}
    (success : group source deeper ts = .ok (e, rest)) :
    ∃ t, Derives .primary (⟨.symbol .leftParen, a⟩ :: ts) t rest ∧ t.expr = e ∧
      source.Open rest := by
  obtain ⟨⟨es, after⟩, read, success⟩ := of_bind_ok success
  obtain ⟨t, derived, same, -⟩ := list_sound sound read
  have shape := expr_of_items derived
  rw [same] at shape
  split at success
  · rename_i listed
    cases listed
    obtain ⟨⟨b, last⟩, closing, done⟩ := of_bind_ok success
    cases done
    obtain ⟨rfl, closed⟩ := Source.of_expectSymbol_ok closing
    refine ⟨.parens t, .parens derived, ?_, closed⟩
    rcases shape with ⟨first, listed, single⟩ | ⟨first, second, others, listed, -⟩
    · cases listed
      exact single
    · cases listed
  · rename_i several listed
    cases listed
    obtain ⟨⟨b, last⟩, closing, done⟩ := of_bind_ok success
    cases done
    obtain ⟨rfl, closed⟩ := Source.of_expectSymbol_ok closing
    refine ⟨.parens t, .parens derived, ?_, closed⟩
    rcases shape with ⟨first, rfl, -⟩ | ⟨first, second, others, -, tuple⟩
    · exact (several _ rfl).elim
    · exact tuple

theorem arguments_sound {name : String} {start a : Text.Span} {ts rest : List Lexeme} {e : Expr}
    (success : arguments source deeper name start ts = .ok (e, rest)) :
    ∃ t, Derives .primary (⟨.name name, start⟩ :: ⟨.symbol .leftParen, a⟩ :: ts) t rest ∧
      t.expr = e ∧ source.Open rest := by
  unfold arguments at success
  split at success
  · obtain ⟨last, moved, done⟩ := of_bind_ok success
    cases done
    obtain ⟨rfl, closed⟩ := Source.of_moveTo_ok moved
    exact ⟨_, .call, rfl, closed⟩
  · obtain ⟨⟨args, after⟩, read, closing⟩ := of_bind_ok success
    obtain ⟨t, derived, rfl, -⟩ := list_sound sound read
    obtain ⟨⟨stop, last⟩, closing, done⟩ := of_bind_ok closing
    cases done
    obtain ⟨rfl, closed⟩ := Source.of_expectSymbol_ok closing
    exact ⟨_, .callWith derived, rfl, closed⟩

theorem primary_sound {ts rest : List Lexeme} {e : Expr}
    (success : primary source deeper ts = .ok (e, rest)) :
    ∃ t, Derives .primary ts t rest ∧ t.expr = e ∧ source.Open rest := by
  unfold primary at success
  split at success
  · obtain ⟨last, moved, done⟩ := of_bind_ok success
    cases done
    obtain ⟨rfl, closed⟩ := Source.of_moveTo_ok moved
    exact ⟨_, .number, rfl, closed⟩
  · obtain ⟨last, moved, done⟩ := of_bind_ok success
    cases done
    obtain ⟨rfl, closed⟩ := Source.of_moveTo_ok moved
    exact ⟨_, .text, rfl, closed⟩
  · rename_i name span others
    obtain ⟨after, moved, next⟩ := of_bind_ok success
    obtain ⟨rfl, closed⟩ := Source.of_moveTo_ok moved
    split at next
    · obtain ⟨last, moved, called⟩ := of_bind_ok next
      obtain ⟨rfl, -⟩ := Source.of_moveTo_ok moved
      exact arguments_sound sound called
    · cases found : Literal.ofName? name with
      | none =>
          rw [found] at next
          cases next
          exact ⟨.name name span, .name, by rw [Tree.expr, found], closed⟩
      | some constant =>
          rw [found] at next
          cases next
          exact ⟨.name name span, .name, by rw [Tree.expr, found], closed⟩
  · obtain ⟨after, moved, grouped⟩ := of_bind_ok success
    obtain ⟨rfl, -⟩ := Source.of_moveTo_ok moved
    exact group_sound sound grouped
  · cases success

theorem power_sound {allowance : Nat} {ts rest : List Lexeme} {e : Expr}
    (success : power source allowance deeper ts = .ok (e, rest)) :
    ∃ t, Derives .power ts t rest ∧ t.expr = e ∧ source.Open rest := by
  obtain ⟨⟨first, mid⟩, read, named⟩ := of_bind_ok success
  obtain ⟨t, derived, rfl, closed⟩ := primary_sound sound read
  obtain ⟨⟨base, after⟩, read, done⟩ := of_bind_ok named
  obtain ⟨u, access, rfl, closed⟩ := members_sound (.primary derived) rfl closed read
  split at done
  · rename_i raised
    cases raised
    obtain ⟨mid, moved, raised⟩ := of_bind_ok done
    obtain ⟨rfl, -⟩ := Source.of_moveTo_ok moved
    obtain ⟨⟨exponent, last⟩, read, final⟩ := of_bind_ok raised
    cases final
    obtain ⟨v, second, rfl, closed⟩ := sound.operand _ _ _ read
    exact ⟨.power u v, .power access second, rfl, closed⟩
  · cases done
    exact ⟨u, .base access, rfl, closed⟩

theorem join_sound {lexeme : Lexeme} {joint : Joint} {start ts rest : List Lexeme} {left : Tree}
    {e : Expr} (found : lexeme.token.joint? = some joint)
    (first : Derives (.layer joint.level.rank) start left (lexeme :: ts))
    (success : join source deeper joint left.expr ts = .ok (e, rest)) :
    ∃ t, Derives (.layer joint.level.rank) start t rest ∧ t.expr = e ∧
      Loose (joint.level.rank + 1) rest ∧ source.Open rest := by
  obtain ⟨loose, spelled⟩ := Token.joint?_eq_some found
  rw [← Level.rank_tighter loose]
  unfold join at success
  cases joint with
  | binary op =>
      obtain ⟨⟨right, after⟩, read, done⟩ := of_bind_ok success
      cases done
      obtain ⟨t, second, rfl, stops, closed⟩ := expression_sound sound read
      rw [Level.rank_tighter loose] at second
      have chained : Derives _ start left ([lexeme] ++ ts) := first
      exact ⟨.binary op left t, .binary spelled chained rfl second, rfl, stops, closed⟩
  | versions =>
      obtain ⟨after, moved, next⟩ := of_bind_ok success
      obtain ⟨span, rfl, -⟩ := Source.of_expectKeyword_ok moved
      obtain ⟨⟨right, last⟩, read, done⟩ := of_bind_ok next
      cases done
      obtain ⟨t, second, rfl, stops, closed⟩ := expression_sound sound read
      obtain ⟨token, a⟩ := lexeme
      cases spelled
      have chained : Derives (.layer 4) start left
          ([⟨.keyword .in, a⟩, ⟨.keyword .versions, span⟩] ++ after) := first
      exact ⟨.binary .inVersions left t, .binary List.mem_cons_self chained rfl second, rfl, stops,
        closed⟩
  | replacement =>
      obtain ⟨⟨pattern, mid⟩, read, next⟩ := of_bind_ok success
      obtain ⟨t, second, rfl, -, -⟩ := expression_sound sound read
      obtain ⟨after, moved, others⟩ := of_bind_ok next
      obtain ⟨span, rfl, -⟩ := Source.of_expectKeyword_ok moved
      obtain ⟨⟨substitute, last⟩, read, done⟩ := of_bind_ok others
      cases done
      obtain ⟨u, third, rfl, stops, closed⟩ := expression_sound sound read
      obtain ⟨token, a⟩ := lexeme
      cases spelled
      exact ⟨.replace left t u, .replace first second third, rfl, stops, closed⟩

theorem step_operand_sound {allowance : Nat} {ts rest : List Lexeme} {e : Expr}
    (success : step source allowance deeper .operand ts = .ok (e, rest)) :
    ∃ t, Derives .unary ts t rest ∧ t.expr = e ∧ source.Open rest := by
  have ofPower (read : power source allowance deeper ts = .ok (e, rest)) :
      ∃ t, Derives .unary ts t rest ∧ t.expr = e ∧ source.Open rest := by
    obtain ⟨t, derived, same, closed⟩ := power_sound sound read
    exact ⟨t, .unsigned derived, same, closed⟩
  cases ts with
  | nil => exact ofPower success
  | cons lexeme others =>
      dsimp only [step] at success
      split at success
      · rename_i op found
        obtain ⟨after, moved, next⟩ := of_bind_ok success
        obtain ⟨rfl, -⟩ := Source.of_moveTo_ok moved
        obtain ⟨⟨operand, last⟩, read, done⟩ := of_bind_ok next
        cases done
        obtain ⟨t, derived, rfl, closed⟩ := sound.operand _ _ _ read
        exact ⟨.sign op t, .sign (Token.mem_prefixes_iff.mpr found) derived, by cases op <;> rfl,
          closed⟩
      · exact ofPower success

theorem step_chain_sound {allowance : Nat} {least : Level} {start ts rest : List Lexeme}
    {left : Tree} {e : Expr} {n : Nat} (before : Derives (.layer n) start left ts)
    (tight : least.rank ≤ n) (proper : n ≤ 10) (stops : Loose (n + 1) ts) (closed : source.Open ts)
    (success : step source allowance deeper (.chain least left.expr) ts = .ok (e, rest)) :
    ∃ t, Derives (.layer least.rank) start t rest ∧ t.expr = e ∧ Loose least.rank rest ∧
      source.Open rest := by
  cases ts with
  | nil =>
      cases success
      exact ⟨left, loosen before tight proper, rfl, loose_nil _, closed⟩
  | cons lexeme others =>
      dsimp only [step] at success
      split at success
      · rename_i joint found
        split at success
        · rename_i enough
          have reached := stops lexeme others joint rfl found
          obtain ⟨after, moved, next⟩ := of_bind_ok success
          obtain ⟨rfl, -⟩ := Source.of_moveTo_ok moved
          obtain ⟨⟨joined, mid⟩, read, more⟩ := of_bind_ok next
          obtain ⟨t, derived, rfl, stops, closed⟩ :=
            join_sound sound found (loosen before (by omega) proper) read
          exact sound.chain least start t mid e rest _ derived enough (by omega) stops closed more
        · rename_i looser
          cases success
          refine ⟨left, loosen before tight proper, rfl, loose_cons ?_, closed⟩
          intro other again
          rw [found] at again
          cases again
          exact Nat.not_le.mp looser
      · rename_i stranger
        cases success
        refine ⟨left, loosen before tight proper, rfl, loose_cons ?_, closed⟩
        intro other again
        rw [stranger] at again
        cases again

end

theorem reader_sound (allowance : Nat) : Sound source (reader source allowance) := by
  induction allowance with
  | zero =>
      constructor
      · intro _ _ _ success
        cases success
      · intro _ _ _ _ _ _ _ _ _ _ _ _ success
        cases success
  | succ allowance ih =>
      exact ⟨fun _ _ _ => step_operand_sound ih, fun _ _ _ _ _ _ _ => step_chain_sound ih⟩

/-- A formula that is read is a sentence, and its text was read to the end. -/
theorem formula_sound {ts : List Lexeme} {e : Expr} (success : formula source ts = .ok e) :
    source.failure = none ∧ ∃ t, Sentence ts t ∧ t.expr = e := by
  obtain ⟨us, moved, next⟩ := of_bind_ok success
  obtain ⟨rfl, -⟩ := Source.of_moveTo_ok moved
  split at next
  · cases next
  · obtain ⟨⟨expr, rest⟩, read, done⟩ := of_bind_ok next
    obtain ⟨t, derived, rfl, -, closed⟩ := expression_sound (reader_sound _) read
    split at done <;> cases done
    rename_i ended
    cases ended
    exact ⟨closed rfl, t, derived, rfl⟩

end

end Parser

end Emend.Formula
