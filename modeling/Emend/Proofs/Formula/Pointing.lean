import Emend.Proofs.Formula.Parts
import Emend.Proofs.Formula.Sharing
import Emend.Proofs.Formula.Tiling
import Mathlib

/-!
Spans of names. The span of a path goes from its first segment to its last one, and the span of a call
from the name of the function to the closing parenthesis, whatever blanks and parentheses stand between
them. An error about a name has its span from the tree, so it points to that name.
-/

set_option autoImplicit false

namespace Emend.Text

theorem prefix_of_byteLength_le {front back whole : List Char} (first : front <+: whole)
    (second : back <+: whole) (le : byteLength front ≤ byteLength back) : front <+: back := by
  rcases List.prefix_or_prefix_of_prefix first second with done | ⟨more, rfl⟩
  · exact done
  · have size := length_le_byteLength more
    rw [byteLength_append] at le
    obtain rfl : more = [] := List.length_eq_zero_iff.mp (by omega)
    rw [List.append_nil]

theorem between?_append (before piece after : List Char) :
    between? (byteLength before) (byteLength (before ++ piece)) (before ++ piece ++ after) =
      some piece := by
  induction before with
  | nil =>
      simp only [List.nil_append, byteLength]
      induction piece with
      | nil => cases after <;> rfl
      | cons c piece ih =>
          have size := c.utf8Size_pos
          rw [byteLength, List.cons_append, between?, if_pos rfl, if_neg (by omega),
            if_pos (Nat.le_add_right _ _), Nat.add_sub_cancel_left, ih]
          rfl
  | cons c before ih =>
      have size := c.utf8Size_pos
      rw [List.cons_append, List.cons_append, byteLength, byteLength, between?, if_neg (by omega),
        if_pos ⟨Nat.le_add_right _ _, Nat.le_add_right _ _⟩, Nat.add_sub_cancel_left,
        Nat.add_sub_cancel_left, ih]

theorem isValid_byteLength {text : String} {before after : List Char}
    (whole : text.toList = before ++ after) :
    (⟨byteLength before⟩ : String.Pos.Raw).IsValid text := by
  refine String.Pos.Raw.isValid_iff_exists_append.mpr ⟨.ofList before, .ofList after, ?_, ?_⟩
  · rw [← String.ofList_append, ← whole, String.ofList_toList]
  · ext
    rw [String.byteIdx_rawEndPos, utf8ByteSize_eq_byteLength, String.toList_ofList]

namespace Span

/-- The span covers characters of the text, of which the first ones are these. -/
structure PointsTo (span : Span) (text first : String) : Prop where
  filled : span.start < span.stop
  inside : span.stop ≤ text.utf8ByteSize
  cutsBefore : (⟨span.start⟩ : String.Pos.Raw).IsValid text
  cutsAfter : (⟨span.stop⟩ : String.Pos.Raw).IsValid text
  begins : first.toList <+: (span.slice text).toList

theorem PointsTo.of_prefix {span : Span} {text first front : String} (points : span.PointsTo text first)
    (shorter : front.toList <+: first.toList) : span.PointsTo text front :=
  ⟨points.filled, points.inside, points.cutsBefore, points.cutsAfter, shorter.trans points.begins⟩

/-- It also covers these characters as the last ones. -/
structure Frames (span : Span) (text first last : String) : Prop extends span.PointsTo text first where
  ends : last.toList <:+ (span.slice text).toList

theorem slice_append {text : String} {before piece after : List Char}
    (whole : text.toList = before ++ piece ++ after) :
    (⟨byteLength before, byteLength (before ++ piece)⟩ : Span).slice text = String.ofList piece := by
  have size : text.utf8ByteSize = byteLength (before ++ piece) + byteLength after := by
    rw [utf8ByteSize_eq_byteLength, whole, byteLength_append]
  have above : byteLength before ≤ byteLength (before ++ piece) := by
    rw [byteLength_append]
    exact Nat.le_add_right _ _
  have short : byteLength (before ++ piece) ≤ text.utf8ByteSize := by omega
  unfold slice
  dsimp only
  rw [Nat.min_eq_left short, Nat.min_eq_left above, whole, between?_append, Option.getD_some]

/-- A span from one piece of a text to the same or a later one. -/
theorem frames_of_pieces {text first last : String} {front back before after : List Char} {span : Span}
    (opening : text.toList = front ++ first.toList ++ before) (solid : first.toList ≠ [])
    (closing : text.toList = after ++ last.toList ++ back)
    (starts : byteLength front ≤ byteLength after)
    (stops : byteLength (front ++ first.toList) ≤ byteLength (after ++ last.toList))
    (same : span = ⟨byteLength front, byteLength (after ++ last.toList)⟩) :
    span.Frames text first last := by
  have early : front ++ first.toList <+: after ++ last.toList :=
    prefix_of_byteLength_le ⟨before, opening.symm⟩ ⟨back, closing.symm⟩ stops
  rw [List.append_assoc] at opening closing
  have late : front <+: after :=
    prefix_of_byteLength_le ⟨first.toList ++ before, opening.symm⟩ ⟨last.toList ++ back, closing.symm⟩
      starts
  obtain ⟨more, reached⟩ := early
  obtain ⟨less, rfl⟩ := late
  have piece : first.toList ++ more = less ++ last.toList := by simpa using reached
  have whole : text.toList = front ++ (first.toList ++ more) ++ back := by
    rw [closing, ← List.append_assoc, ← reached, List.append_assoc front]
  rw [← reached, List.append_assoc] at same
  subst same
  have covered := slice_append whole
  refine ⟨⟨?_, ?_, ?_, isValid_byteLength whole, ?_⟩, ?_⟩
  · have size := length_le_byteLength (first.toList ++ more)
    have some := List.length_pos_of_ne_nil solid
    rw [List.length_append] at size
    change byteLength front < byteLength (front ++ _)
    rw [byteLength_append]
    omega
  · rw [utf8ByteSize_eq_byteLength, whole, byteLength_append (front ++ _)]
    exact Nat.le_add_right _ _
  · exact isValid_byteLength (by rw [whole, List.append_assoc])
  · rw [covered, String.toList_ofList]
    exact ⟨more, rfl⟩
  · rw [covered, String.toList_ofList]
    exact ⟨less, piece.symm⟩

end Span

end Emend.Text

namespace Emend.Formula
open Emend.Text (Span byteLength)

/-- The characters of a token that is written in one way only. -/
def Token.exact? : Token → Option String
  | .name spelling => some spelling
  | .symbol s => some s.spelling
  | _ => none

namespace Lexer

theorem symbol?_spelling {c : Char} {rest : List Char} {symbol : Symbol} {n : Nat}
    (found : symbol? c rest = some (symbol, n)) : symbol.spelling.toList = c :: rest.take n := by
  unfold symbol? at found
  split at found
  all_goals first
    | (cases found; rfl)
    | (split at found
       · rename_i doubled
         obtain ⟨others, rfl⟩ := List.head?_eq_some_iff.mp doubled
         cases found
         rfl
       · cases found
         rfl)
    | cases found

theorem token_exact {offset n : Nat} {c : Char} {rest : List Char} {t : Token} {spelling : String}
    (read : token offset c rest = .ok (t, n)) (exact : t.exact? = some spelling) :
    spelling.toList = c :: rest.take n := by
  unfold token at read
  split at read
  · rename_i found
    cases read
    cases exact
    exact symbol?_spelling found
  · split at read
    · cases read
      cases exact
    · split at read
      · obtain ⟨_, -, read⟩ := of_bind_ok read
        cases read
        cases exact
      · split at read
        · cases read
          unfold word at exact
          split at exact
          · cases exact
          · cases exact
            rw [String.toList_ofList, ← List.prefix_iff_eq_take.mp (List.takeWhile_prefix _)]
        · cases read

end Lexer

/-- Lexemes one behind the other, none of them empty. -/
structure InOrder (ts : List Lexeme) : Prop where
  filled : ∀ t ∈ ts, t.span.start < t.span.stop
  ordered : ts.Pairwise fun t u => t.span.stop ≤ u.span.start

/-- The span goes from one of the lexemes to the same or a later one, and these are their tokens. -/
def Reaches (ts : List Lexeme) (first last : Token) (span : Span) : Prop :=
  ∃ a ∈ ts, ∃ b ∈ ts, a.token = first ∧ b.token = last ∧ a.span.start ≤ b.span.start ∧
    a.span.stop ≤ b.span.stop ∧ span = ⟨a.span.start, b.span.stop⟩

section
variable {ts us front rest : List Lexeme} {first last : Token} {span : Span}

theorem InOrder.sublist (order : InOrder ts) (part : us.Sublist ts) : InOrder us where
  filled t member := order.filled t (part.subset member)
  ordered := order.ordered.sublist part

theorem InOrder.left (order : InOrder (front ++ rest)) : InOrder front :=
  order.sublist (List.sublist_append_left _ _)

theorem InOrder.right (order : InOrder (front ++ rest)) : InOrder rest :=
  order.sublist (List.sublist_append_right _ _)

theorem InOrder.tail {t : Lexeme} (order : InOrder (t :: ts)) : InOrder ts :=
  order.sublist (List.sublist_cons_self _ _)

theorem Reaches.mono (reaches : Reaches ts first last span) (subset : ts ⊆ us) :
    Reaches us first last span := by
  obtain ⟨a, early, b, late, facts⟩ := reaches
  exact ⟨a, subset early, b, subset late, facts⟩

theorem Reaches.single {t : Lexeme} (member : t ∈ ts) : Reaches ts t.token t.token t.span :=
  ⟨t, member, t, member, rfl, rfl, Nat.le_refl _, Nat.le_refl _, rfl⟩

theorem Reaches.extend {next : Lexeme} (reaches : Reaches front first last span)
    (order : InOrder (front ++ rest)) (member : next ∈ rest) :
    Reaches (front ++ rest) first next.token (span.merge next.span) := by
  obtain ⟨a, early, b, late, rfl, rfl, starts, stops, rfl⟩ := reaches
  have apart := (List.pairwise_append.mp order.ordered).2.2
  have before := apart a early next member
  have behind := apart b late next member
  have filled := order.filled a (List.mem_append_left _ early)
  have solid := order.filled next (List.mem_append_right _ member)
  refine ⟨a, List.mem_append_left _ early, next, List.mem_append_right _ member, rfl, rfl, by omega,
    by omega, ?_⟩
  have start : a.span.start ≤ next.span.start := by omega
  have stop : b.span.stop ≤ next.span.stop := by omega
  simp only [Span.merge, Nat.min_eq_left start, Nat.max_eq_right stop]

end

theorem Tiles.inOrder {offset stop : Nat} {cs : List Char} {lexemes : List Lexeme}
    (tiles : Tiles offset cs lexemes stop) : InOrder lexemes :=
  ⟨tiles.filled, tiles.ordered⟩

theorem Tiles.exact {cs : List Char} {lexemes : List Lexeme} {stop : Nat} {t : Lexeme}
    {spelling : String} (tiles : Tiles 0 cs lexemes stop) (member : t ∈ lexemes)
    (exact : t.token.exact? = some spelling) : ∃ before after,
      cs = before ++ spelling.toList ++ after ∧ spelling.toList ≠ [] ∧
        t.span = ⟨byteLength before, byteLength (before ++ spelling.toList)⟩ := by
  obtain ⟨before, c, following, after, place, start, stop, read⟩ := tiles.spelled t member
  have shown := Lexer.token_exact read exact
  rw [List.take_left] at shown
  rw [Nat.zero_add] at start stop
  refine ⟨before, after, by rw [shown, place], by rw [shown]; exact List.cons_ne_nil _ _, ?_⟩
  rw [shown, ← start, ← stop]

/-- From one lexeme to another one, a span covers the characters of both. -/
theorem Tiles.frames {text first last : String} {lexemes : List Lexeme} {stop : Nat} {a b : Token}
    {span : Span} (tiles : Tiles 0 text.toList lexemes stop) (reaches : Reaches lexemes a b span)
    (opening : a.exact? = some first) (closing : b.exact? = some last) :
    span.Frames text first last := by
  obtain ⟨x, early, y, late, rfl, rfl, starts, stops, rfl⟩ := reaches
  obtain ⟨front, before, one, solid, opens⟩ := tiles.exact early opening
  obtain ⟨after, back, other, -, closes⟩ := tiles.exact late closing
  rw [opens, closes] at starts stops
  exact Span.frames_of_pieces one solid other starts stops (by rw [opens, closes])

namespace Expr

/-- All parts of a tree are so. -/
def Every (P : Expr → Prop) (expr : Expr) : Prop := ∀ part, Part part expr → P part

theorem every_iff {P : Expr → Prop} {expr : Expr} :
    expr.Every P ↔ P expr ∧ ∀ operand ∈ expr.operands, operand.Every P := by
  constructor
  · intro every
    exact ⟨every expr .whole, fun operand member part inner => every part (.inside member inner)⟩
  · rintro ⟨whole, each⟩ part inner
    cases inner with
    | whole => exact whole
    | inside member inner => exact each _ member part inner

theorem Every.mono {P Q : Expr → Prop} {expr : Expr} (every : expr.Every P)
    (weaker : ∀ part, P part → Q part) : expr.Every Q :=
  fun part inner => weaker part (every part inner)

/-- The span of a path goes from its first segment to its last one, and that of a call from its name to
a closing parenthesis. -/
def Spanned (ts : List Lexeme) : Expr → Prop
  | symbol head tail span => Reaches ts (.name head) (.name (tail.getLastD head)) span
  | call name _ span => Reaches ts (.name name) (.symbol .rightParen) span
  | _ => True

/-- The span of a path covers it from its first segment to its last one, and that of a call covers it
from its name to a closing parenthesis. -/
def Framed (text : String) : Expr → Prop
  | symbol head tail span => span.Frames text head (tail.getLastD head)
  | call name _ span => span.Frames text name ")"
  | _ => True

theorem Spanned.mono {ts us : List Lexeme} {expr : Expr} (spanned : expr.Spanned ts)
    (subset : ts ⊆ us) : expr.Spanned us := by
  cases expr with
  | symbol | call => exact Reaches.mono spanned subset
  | _ => trivial

theorem Spanned.framed {text : String} {lexemes : List Lexeme} {stop : Nat} {expr : Expr}
    (tiles : Tiles 0 text.toList lexemes stop) (spanned : expr.Spanned lexemes) :
    expr.Framed text := by
  cases expr with
  | symbol | call => exact tiles.frames spanned rfl rfl
  | _ => trivial

end Expr

namespace Grammar
open Emend.Formula.Expr (Every every_iff)

/-- All spans in what the tree stands for are between the lexemes. -/
structure Tree.Spanned (ts : List Lexeme) (t : Tree) : Prop where
  expr : t.expr.Every (Expr.Spanned ts)
  exprs : ∀ e ∈ t.exprs, e.Every (Expr.Spanned ts)

section
variable {ts us front rest : List Lexeme} {t : Tree} {e : Expr}

theorem Tree.Spanned.mono (spanned : t.Spanned ts) (subset : ts ⊆ us) : t.Spanned us where
  expr := spanned.expr.mono fun _ part => part.mono subset
  exprs e member := (spanned.exprs e member).mono fun _ part => part.mono subset

theorem Tree.Spanned.of_expr (each : t.expr.Every (Expr.Spanned ts)) (alone : t.exprs = []) :
    t.Spanned ts :=
  ⟨each, by simp [alone]⟩

theorem every_of_operands (plain : e.Spanned []) (each : ∀ operand ∈ e.operands,
    operand.Every (Expr.Spanned ts)) : e.Every (Expr.Spanned ts) :=
  every_iff.mpr ⟨plain.mono (List.nil_subset _), each⟩

theorem withSign_spanned (op : UnaryOp) (spanned : e.Every (Expr.Spanned ts)) :
    (withSign op e).Every (Expr.Spanned ts) := by
  unfold withSign
  split
  · exact every_of_operands trivial (List.forall_mem_nil _)
  · exact every_of_operands trivial (List.forall_mem_nil _)
  · exact every_of_operands trivial (List.forall_mem_singleton.mpr spanned)

theorem withMember_spanned {name : String} {span : Span} (order : InOrder (front ++ rest))
    (member : ⟨.name name, span⟩ ∈ rest) (spanned : e.Every (Expr.Spanned front)) :
    (withMember name span e).Every (Expr.Spanned (front ++ rest)) := by
  unfold withMember
  split
  · rename_i head tail start
    have path : Reaches front (.name head) (.name (tail.getLastD head)) start :=
      (every_iff.mp spanned).1
    refine every_iff.mpr ⟨?_, List.forall_mem_nil _⟩
    change Reaches _ _ (.name ((tail ++ [name]).getLastD head)) _
    rw [List.getLastD_concat]
    exact path.extend order member
  · have wider := spanned.mono fun _ part => part.mono (List.subset_append_left front rest)
    exact every_of_operands trivial (List.forall_mem_singleton.mpr wider)

theorem call_spanned {name : String} {start stop : Span} {args : List Expr}
    (order : InOrder (⟨.name name, start⟩ :: ts)) (closing : ⟨.symbol .rightParen, stop⟩ ∈ ts)
    (spanned : ∀ e ∈ args, e.Every (Expr.Spanned ts)) :
    (Expr.call name args (start.merge stop)).Every (Expr.Spanned (⟨.name name, start⟩ :: ts)) := by
  refine every_iff.mpr ⟨?_, fun e member => ?_⟩
  · have opening : Reaches [⟨.name name, start⟩] (.name name) (.name name) start :=
      .single List.mem_cons_self
    exact opening.extend order closing
  · exact (spanned e member).mono fun _ part => part.mono (List.subset_cons_self _ _)

end

/-- The induction is on the derivation. What it consumes stands before the rest, which is why a name
behind it lengthens a span. -/
theorem Derives.spanned {c : Category} {ts rest : List Lexeme} {t : Tree}
    (derived : Derives c ts t rest) (order : InOrder ts) :
    ∃ front, ts = front ++ rest ∧ t.Spanned front := by
  induction derived with
  | tighter _ _ ih | operand _ ih | unsigned _ ih | base _ ih | primary _ ih => exact ih order
  | number | text => exact ⟨[_], rfl, .of_expr (every_of_operands trivial (List.forall_mem_nil _)) rfl⟩
  | @name spelling span rest =>
      refine ⟨[⟨.name spelling, span⟩], rfl, .of_expr ?_ rfl⟩
      rw [Tree.expr]
      split
      · exact every_of_operands trivial (List.forall_mem_nil _)
      · exact every_iff.mpr ⟨Reaches.single List.mem_cons_self, List.forall_mem_nil _⟩
  | @call name start a stop rest =>
      refine ⟨[⟨.name name, start⟩, ⟨.symbol .leftParen, a⟩, ⟨.symbol .rightParen, stop⟩], rfl,
        .of_expr (call_spanned (order.sublist (List.sublist_append_left [_, _, _] rest)) ?_
          (List.forall_mem_nil _)) rfl⟩
      exact List.mem_cons_of_mem _ List.mem_cons_self
  | @callWith name start a stop ts rest args _ ih =>
      obtain ⟨front, rfl, inner⟩ := ih order.tail.tail
      have wider : args.Spanned (⟨.symbol .leftParen, a⟩ :: (front ++ [⟨.symbol .rightParen, stop⟩])) :=
        inner.mono (by simp)
      refine ⟨⟨.name name, start⟩ :: ⟨.symbol .leftParen, a⟩ ::
        (front ++ [⟨.symbol .rightParen, stop⟩]), by simp,
        .of_expr (call_spanned (order.sublist (by simp)) (by simp) wider.exprs) rfl⟩
  | @parens a b ts rest items _ ih =>
      obtain ⟨front, rfl, inner⟩ := ih order.tail
      refine ⟨⟨.symbol .leftParen, a⟩ :: (front ++ [⟨.symbol .rightParen, b⟩]), by simp,
        .of_expr ?_ rfl⟩
      exact (inner.mono (by simp)).expr
  | @member ts rest target name a span _ ih =>
      obtain ⟨front, rfl, inner⟩ := ih order
      refine ⟨front ++ [⟨.symbol .dot, a⟩, ⟨.name name, span⟩], by simp, .of_expr ?_ rfl⟩
      exact withMember_spanned (order.sublist (by simp)) (by simp) inner.expr
  | @sign lexeme op ts rest t listed _ ih =>
      obtain ⟨front, rfl, inner⟩ := ih order.tail
      refine ⟨lexeme :: front, rfl, .of_expr ?_ rfl⟩
      exact withSign_spanned op (inner.mono (List.subset_cons_self _ _)).expr
  | @power ts mid rest base exponent a _ _ first second =>
      obtain ⟨front, rfl, before⟩ := first order
      obtain ⟨back, rfl, after⟩ := second order.right.tail
      refine ⟨front ++ (⟨.symbol .power, a⟩ :: back), by simp, .of_expr ?_ rfl⟩
      refine every_of_operands trivial (List.forall_mem_cons.mpr
        ⟨?_, List.forall_mem_singleton.mpr ?_⟩)
      · exact (before.mono (by simp)).expr
      · exact (after.mono (by simp)).expr
  | @binary n words op signs ts mid rest left right listed _ spelled _ first second =>
      obtain ⟨front, rfl, before⟩ := first order
      obtain ⟨back, rfl, after⟩ := second order.right.right
      refine ⟨front ++ (signs ++ back), by simp, .of_expr ?_ rfl⟩
      refine every_of_operands trivial (List.forall_mem_cons.mpr
        ⟨?_, List.forall_mem_singleton.mpr ?_⟩)
      · exact (before.mono (by simp)).expr
      · exact (after.mono (by simp)).expr
  | @replace ts before after rest input pattern substitute a b _ _ _ first second third =>
      obtain ⟨front, rfl, one⟩ := first order
      obtain ⟨middle, rfl, two⟩ := second order.right.tail
      obtain ⟨back, rfl, three⟩ := third order.right.tail.right.tail
      refine ⟨front ++ (⟨.keyword .replace, a⟩ :: (middle ++ (⟨.keyword .with, b⟩ :: back))), by simp,
        .of_expr ?_ rfl⟩
      refine every_of_operands trivial (List.forall_mem_cons.mpr ⟨?_, List.forall_mem_cons.mpr
        ⟨?_, List.forall_mem_singleton.mpr ?_⟩⟩)
      · exact (one.mono (by simp)).expr
      · exact (two.mono fun _ member => by simp [member]).expr
      · exact (three.mono fun _ member => by simp [member]).expr
  | @last ts rest t _ ih =>
      obtain ⟨front, rfl, inner⟩ := ih order
      exact ⟨front, rfl, inner.expr, List.forall_mem_singleton.mpr inner.expr⟩
  | @more ts mid rest item items a _ _ first second =>
      obtain ⟨front, rfl, before⟩ := first order
      obtain ⟨back, rfl, after⟩ := second order.right.tail
      have each : ∀ e ∈ item.expr :: items.exprs,
          e.Every (Expr.Spanned (front ++ (⟨.symbol .comma, a⟩ :: back))) :=
        List.forall_mem_cons.mpr ⟨(before.mono (by simp)).expr, (after.mono (by simp)).exprs⟩
      exact ⟨_, by simp, every_of_operands trivial each, each⟩

end Grammar

theorem parse_framed {text : String} {limit : Nat} {expr : Expr} (read : parse text limit = .ok expr) :
    expr.Every (Expr.Framed text) := by
  unfold parse at read
  obtain ⟨whole, t, sentence, rfl⟩ := Parser.formula_sound read
  have tiles := Lexer.tiles_lexemesFrom 0 0 text.toList whole
  rw [List.take_zero, List.drop_zero, byteLength] at tiles
  obtain ⟨front, consumed, spanned⟩ := sentence.spanned tiles.inOrder
  rw [List.append_nil] at consumed
  rw [← consumed] at spanned
  exact spanned.expr.mono fun part => Expr.Spanned.framed tiles

/-- The name that an error is about, and where it stands. -/
def FormulaError.named? : FormulaError → Option (String × Span)
  | unresolved name span | unknownFunction name span => some (name, span)
  | _ => none

/-- The name of a path or a call, and where the path or the call stands. -/
def Expr.named? : Expr → Option (String × Span)
  | symbol head tail span => some (".".intercalate (head :: tail), span)
  | call name _ span => some (name, span)
  | _ => none

section
variable {options : Options} {scope : Scope} {allowance : Nat} {e : FormulaError}
  {named : String × Span}

theorem patternOf_named {s : String} (failed : patternOf s = .error e) : e.named? = none := by
  unfold patternOf at failed
  split at failed <;> cases failed
  rfl

theorem rangeOf_named {s : String} (failed : rangeOf s = .error e) : e.named? = none := by
  unfold rangeOf at failed
  split at failed <;> cases failed
  rfl

theorem versionOf_named {v : Value} (failed : versionOf v = .error e) : e.named? = none := by
  unfold versionOf coerced at failed
  split at failed <;> cases failed
  rfl

theorem checkedOperand_names {op : BinaryOp} {expr : Expr} {compiled : Except FormulaError Compiled}
    (failed : checkedOperand op expr compiled = .error e) (names : e.named? = some named) :
    compiled = .error e := by
  unfold checkedOperand at failed
  cases read : expr.literalText?.bind (literalOperand op) with
  | none =>
      rw [read] at failed
      exact failed
  | some checked =>
      rw [read] at failed
      obtain ⟨s, -, read⟩ := Option.bind_eq_some_iff.mp read
      unfold literalOperand at read
      split at read <;> cases read
      · exact absurd names (by simp [patternOf_named (of_map_error failed)])
      · exact absurd names (by simp [rangeOf_named (of_map_error failed)])

theorem Scope.symbol_names {path : List String} {span : Span}
    (failed : scope.symbol path span = .error e) (names : e.named? = some named) :
    named = (".".intercalate path, span) := by
  unfold symbol at failed
  split at failed <;> cases failed
  cases names
  rfl

theorem Scope.function_names {name : String} {span : Span} {count : Nat}
    (failed : Scope.function name span count = .error e) (names : e.named? = some named) :
    named = (name, span) := by
  unfold Scope.function at failed
  split at failed
  · split at failed <;> cases failed <;> cases names <;> rfl
  · split at failed <;> cases failed
    cases names

theorem compileAll_error {exprs : List Expr}
    (failed : compileAll options scope allowance exprs = .error e) :
    ∃ expr ∈ exprs, compile options scope allowance expr = .error e := by
  induction exprs with
  | nil =>
      unfold compileAll at failed
      cases failed
  | cons expr rest ih =>
      unfold compileAll at failed
      rcases of_bind_error failed with first | ⟨x, -, failed⟩
      · exact ⟨expr, List.mem_cons_self, first⟩
      rcases of_bind_error failed with later | ⟨xs, -, impossible⟩
      · obtain ⟨found, member, failed⟩ := ih later
        exact ⟨found, List.mem_cons_of_mem _ member, failed⟩
      · cases impossible

/-- What an error of the compiler names is in the tree. The induction is on the levels that are left. -/
theorem compile_names {expr : Expr} (failed : compile options scope allowance expr = .error e)
    (names : e.named? = some named) :
    ∃ part : Expr, part.Part expr ∧ part.named? = some named := by
  induction allowance generalizing expr with
  | zero =>
      unfold compile at failed
      cases failed
      cases names
  | succ allowance ih =>
      have inside (operand : Expr) (member : operand ∈ expr.operands)
          (failed : compile options scope allowance operand = .error e) :
          ∃ part : Expr, part.Part expr ∧ part.named? = some named := by
        obtain ⟨part, inner, here⟩ := ih failed
        exact ⟨part, .inside member inner, here⟩
      unfold compile at failed
      cases expr with
      | literal l => cases failed
      | symbol head tail span => exact ⟨_, .whole, congrArg some (Scope.symbol_names failed names).symm⟩
      | member target key =>
          rcases of_bind_error failed with first | ⟨_, -, impossible⟩
          · exact inside target List.mem_cons_self first
          · cases impossible
      | unary op x =>
          rcases of_bind_error failed with first | ⟨_, -, impossible⟩
          · exact inside x List.mem_cons_self first
          · cases impossible
      | binary op left right =>
          rcases of_bind_error failed with first | ⟨_, -, failed⟩
          · exact inside left List.mem_cons_self first
          rcases of_bind_error failed with second | ⟨_, -, impossible⟩
          · exact inside right (by simp [Expr.operands]) (checkedOperand_names second names)
          · cases impossible
      | replace input pattern substitute =>
          rcases of_bind_error failed with first | ⟨_, -, failed⟩
          · exact inside input List.mem_cons_self first
          rcases of_bind_error failed with second | ⟨_, -, failed⟩
          · exact inside pattern (by simp [Expr.operands]) (checkedOperand_names second names)
          rcases of_bind_error failed with third | ⟨_, -, impossible⟩
          · exact inside substitute (by simp [Expr.operands]) third
          · cases impossible
      | tuple items =>
          rcases of_bind_error failed with first | ⟨_, -, impossible⟩
          · obtain ⟨item, member, failed⟩ := compileAll_error first
            exact inside item member failed
          · cases impossible
      | call function args span =>
          cases args with
          | nil =>
              dsimp only at failed
              split at failed
              · exact ⟨_, .whole, congrArg some (Scope.symbol_names failed names).symm⟩
              · rcases of_bind_error failed with unknown | ⟨_, -, wrong⟩
                · exact ⟨_, .whole, congrArg some (Scope.function_names unknown names).symm⟩
                · cases wrong
                  cases names
          | cons first others =>
              rcases of_bind_error failed with unknown | ⟨signature, -, failed⟩
              · exact ⟨_, .whole, congrArg some (Scope.function_names unknown names).symm⟩
              split at failed
              · rcases of_bind_error failed with refused | ⟨_, -, impossible⟩
                · exact absurd names (by simp [versionOf_named refused])
                · cases impossible
              · rcases of_bind_error failed with head | ⟨_, -, failed⟩
                · exact inside first List.mem_cons_self head
                rcases of_bind_error failed with tail | ⟨_, -, failed⟩
                · obtain ⟨item, member, failed⟩ := compileAll_error tail
                  exact inside item (List.mem_cons_of_mem _ member) failed
                · split at failed <;> cases failed
                  cases names

end

/-- The name up to its first point. -/
def firstSegment (name : String) : String := .ofList (name.toList.takeWhile (· ≠ '.'))

theorem firstSegment_begins (name : String) : (firstSegment name).toList <+: name.toList := by
  rw [firstSegment, String.toList_ofList]
  exact List.takeWhile_prefix _

theorem firstSegment_intercalate (head : String) (tail : List String) :
    (firstSegment (".".intercalate (head :: tail))).toList <+: head.toList := by
  cases tail with
  | nil =>
      rw [String.intercalate_singleton]
      exact firstSegment_begins head
  | cons next others =>
      rw [String.intercalate_cons_cons, firstSegment, String.toList_ofList, String.append_assoc,
        String.toList_append, List.takeWhile_append]
      split
      · simp
      · exact List.takeWhile_prefix _

/-- An error of the compiler has its span from a path or a call of the tree, so it points to the name
where the tree does. -/
theorem ofExpr_pointsTo {options : Options} {scope : Scope} {text name : String} {span : Span}
    {expr : Expr} {e : FormulaError} (framed : expr.Every (Expr.Framed text))
    (failed : ofExpr options scope text expr = .error e) (names : e.named? = some (name, span)) :
    span.PointsTo text (firstSegment name) := by
  rcases of_bind_error failed with refused | ⟨_, -, impossible⟩
  · obtain ⟨part, inner, here⟩ := compile_names refused names
    have whole := framed part inner
    cases part with
    | symbol head tail found =>
        cases here
        exact whole.toPointsTo.of_prefix (firstSegment_intercalate head tail)
    | call function args found =>
        cases here
        exact whole.toPointsTo.of_prefix (firstSegment_begins _)
    | _ => cases here
  · cases impossible

theorem ofText_pointsTo {options : Options} {scope : Scope} {text name : String} {span : Span}
    {e : FormulaError} (failed : ofText options scope text = .error e)
    (names : e.named? = some (name, span)) : span.PointsTo text (firstSegment name) := by
  unfold ofText at failed
  cases read : parse text options.depthLimit with
  | ok expr =>
      rw [read] at failed
      exact ofExpr_pointsTo (parse_framed read) failed names
  | error refused =>
      rw [read] at failed
      cases refused <;> cases failed <;> cases names

/-- In the tree of a text, the span of every path covers it from its first segment to its last one, and
the span of every call covers it from its name to a closing parenthesis. After any requests, an error
about an unresolved name or an unknown function points to the first segment of that name. -/
theorem spans_cover_names (text : String) :
    (∀ limit expr, parse text limit = .ok expr →
      ∀ part : Expr, part.Part expr → part.Framed text) ∧
    ∀ history options scope e name span,
      ((Request.mk text scope options).serve (Request.cacheAfter history)).1 = .error e →
        e.named? = some (name, span) → span.PointsTo text (firstSegment name) := by
  refine ⟨fun limit expr read => parse_framed read, ?_⟩
  intro history options scope e name span failed names
  rcases Request.serve_eq ⟨text, scope, options⟩ (Request.cacheAfter history) with
    alone | ⟨expr, found, shared⟩
  · rw [alone, Request.serve_unshared] at failed
    exact ofText_pointsTo failed names
  · obtain ⟨earlier, -, left⟩ := Request.find?_cacheAfter found
    rw [shared] at failed
    exact ofExpr_pointsTo (parse_framed left.read) failed names

/-- A path that goes on behind a parenthesis, in a call of an unknown function. -/
theorem spans_cover_names_hull :
    ∃ (expr part : Expr) (e : FormulaError),
      parse "Weigh((hull . plates).size)" 8 = .ok expr ∧ part.Part expr ∧
      part.named? = some ("hull.plates.size", ⟨7, 26⟩) ∧
      part.Framed "Weigh((hull . plates).size)" ∧
      ((Request.mk "Weigh((hull . plates).size)" [] .initial).serve (Request.cacheAfter [])).1 =
        .error e ∧ e.named? = some ("Weigh", ⟨0, 27⟩) ∧
      (⟨0, 27⟩ : Span).PointsTo "Weigh((hull . plates).size)" "Weigh" := by
  have read : (parse "Weigh((hull . plates).size)" 8).toOption.map
      (fun expr => expr.operands.map Expr.named?) = some [some ("hull.plates.size", ⟨7, 26⟩)] := by
    decide +kernel
  have refused : (errorOf? ((Request.mk "Weigh((hull . plates).size)" [] .initial).serve
      (Request.cacheAfter [])).1).map FormulaError.named? = some (some ("Weigh", ⟨0, 27⟩)) := by
    decide +kernel
  obtain ⟨expr, parsed, shape⟩ := of_toOption_map read
  obtain ⟨e, failed, names⟩ := of_errorOf?_map refused
  obtain ⟨part, alone, here⟩ := List.map_eq_singleton_iff.mp shape
  have inner : part.Part expr := .inside (by rw [alone]; exact List.mem_cons_self) .whole
  obtain ⟨trees, errors⟩ := spans_cover_names "Weigh((hull . plates).size)"
  have first : firstSegment "Weigh" = "Weigh" := by decide +kernel
  have points := errors [] .initial [] e "Weigh" ⟨0, 27⟩ failed names
  rw [first] at points
  exact ⟨expr, part, e, parsed, inner, here, trees 8 expr parsed part inner, failed, names, points⟩

end Emend.Formula
