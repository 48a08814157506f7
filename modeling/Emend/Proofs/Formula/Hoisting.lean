import Emend.Proofs.Formula.Demand
import Emend.Proofs.Formula.Names
import Emend.Proofs.Formula.Parts
import Mathlib

/-!
Literals against symbols that stand for them. A literal pattern, range or version is read when a formula
is compiled, and any other operand when it is evaluated. A symbol in the place of such a literal makes
no difference, but that an error of the literal waits until evaluation comes to it.
-/

set_option autoImplicit false

namespace Emend.Formula
open Emend.Text (Span)

/-- The second computation fails with the error, unless the first one fails as well. -/
def FailsWith {α β : Type} (e : FormulaError) (first : Except FormulaError α)
    (second : Except FormulaError β) : Prop :=
  (∃ other, first = .error other) ∨ second = .error e

namespace FailsWith
variable {α β γ : Type} {e : FormulaError}

theorem bind {first : Except FormulaError α} {second : Except FormulaError β}
    (fails : FailsWith e first second) (next : α → Except FormulaError γ)
    (other : β → Except FormulaError γ) : FailsWith e (first >>= next) (second >>= other) := by
  rcases fails with ⟨failure, rfl⟩ | rfl
  · exact .inl ⟨failure, rfl⟩
  · exact .inr rfl

theorem after (before : Except FormulaError α) {next other : α → Except FormulaError β}
    (fails : ∀ a, FailsWith e (next a) (other a)) :
    FailsWith e (before >>= next) (before >>= other) := by
  cases before with
  | error failure => exact .inl ⟨failure, rfl⟩
  | ok a => exact fails a

end FailsWith

/-- A tree around one of its operands. -/
inductive Frame where
  | member (name : String)
  | unary (op : UnaryOp)
  | left (op : BinaryOp) (right : Expr)
  | right (op : BinaryOp) (left : Expr)
  | input (pattern substitute : Expr)
  | pattern (input substitute : Expr)
  | substitute (input pattern : Expr)
  | argument (name : String) (before after : List Expr) (span : Span)
  | item (before after : List Expr)

def Frame.plug : Frame → Expr → Expr
  | member name, x => .member x name
  | unary op, x => .unary op x
  | left op y, x => .binary op x y
  | right op y, x => .binary op y x
  | input y z, x => .replace x y z
  | pattern y z, x => .replace y x z
  | substitute y z, x => .replace y z x
  | argument name before after span, x => .call name (before ++ x :: after) span
  | item before after, x => .tuple (before ++ x :: after)

/-- A tree around an operand at any depth, the outermost frame first. -/
def plug (frames : List Frame) (x : Expr) : Expr := frames.foldr Frame.plug x

/-- An operator around the operand that it reads as a pattern, a range or a version. -/
inductive Slot where
  | pattern (text : Expr)
  | replaced (input substitute : Expr)
  | range (version : Expr)
  | version (name : String) (span : Span)
      (named : (Signature.find? name).map (·.builtin) = some .version)

def Slot.fill : Slot → Expr → Expr
  | pattern x, operand => .binary .fitsPattern x operand
  | replaced x y, operand => .replace x operand y
  | range x, operand => .binary .inVersions x operand
  | version name span _, operand => .call name [operand] span

/-- A tree whose operator does not check it as a literal. -/
def Expr.Plain (x : Expr) : Prop := x.literalText? = none

theorem Frame.plug_plain (frame : Frame) (x : Expr) : (frame.plug x).Plain := by
  unfold Expr.Plain
  cases frame <;> rfl

theorem Slot.fill_plain (slot : Slot) (operand : Expr) : (slot.fill operand).Plain := by
  unfold Expr.Plain
  cases slot <;> rfl

theorem plug_plain {x : Expr} (plain : x.Plain) (frames : List Frame) : (plug frames x).Plain := by
  cases frames with
  | nil => exact plain
  | cons frame frames => exact frame.plug_plain (plug frames x)

theorem checkedOperand_plain {x : Expr} (plain : x.Plain) (op : BinaryOp)
    (compiled : Except FormulaError Compiled) : checkedOperand op x compiled = compiled := by
  unfold checkedOperand
  rw [plain]
  rfl

theorem checkedOperand_pattern (text : String) (compiled : Except FormulaError Compiled) :
    checkedOperand .fitsPattern (.literal (.text text)) compiled =
      (patternOf text).map fun _ => .constant (.text text) := by
  simp only [checkedOperand, Expr.literalText?, literalOperand, Option.bind_some, Option.getD_some]

theorem checkedOperand_range (text : String) (compiled : Except FormulaError Compiled) :
    checkedOperand .inVersions (.literal (.text text)) compiled =
      (rangeOf text).map fun _ => .constant (.text text) := by
  simp only [checkedOperand, Expr.literalText?, literalOperand, Option.bind_some, Option.getD_some]

section
variable {options : Options} {known : Scope} {n : Nat}

def called (signature : Signature) (args : List Compiled) : Except FormulaError Compiled :=
  match Compiled.call signature.builtin args with
  | some compiled => .ok compiled
  | none => .error (.wrongArity signature.name signature.arity args.length)

/-- The text of a version that is read without being compiled. -/
def Signature.literal? (signature : Signature) (first : Expr) : Option String :=
  if signature.builtin = .version then first.literalText? else none

theorem compile_call (name : String) (first : Expr) (others : List Expr) (span : Span) :
    compile options known (n + 1) (.call name (first :: others) span) =
      Scope.function name span (others.length + 1) >>= fun signature =>
        match signature.literal? first with
        | some s => versionOf (.text s) >>= fun v => .ok (.constant (.version v))
        | none => compileAll options known n (first :: others) >>= called signature := by
  unfold compile
  refine bind_congr fun signature => ?_
  unfold Signature.literal?
  split
  · rename_i s version text
    rw [if_pos version, text]
  · rename_i other
    have none : (if signature.builtin = .version then first.literalText? else none) = none := by
      split
      · rename_i version
        cases text : first.literalText? with
        | none => rfl
        | some s => exact (other s version text).elim
      · rfl
    rw [none, compileAll, bind_assoc]
    refine bind_congr fun x => ?_
    rw [bind_assoc]
    exact bind_congr fun xs => rfl

theorem literal?_plain {x : Expr} (plain : x.Plain) (signature : Signature) :
    signature.literal? x = none := by
  unfold Signature.literal?
  rw [plain, ite_self]

end

section
open Compiled (Follows)
variable {options : Options} {known : Scope} {n : Nat} {s t : Scope} {P : Code → Prop}

theorem called_follows (rises : Code.Rises t P) (signature : Signature) {xs ys : List Compiled}
    (follows : List.Forall₂ (Follows s t P) xs ys) :
    Alike (Follows s t P) (called signature xs) (called signature ys) := by
  have alike := Compiled.call_follows rises signature.builtin follows
  unfold called
  rw [follows.length_eq]
  generalize Compiled.call signature.builtin xs = x at alike ⊢
  generalize Compiled.call signature.builtin ys = y at alike ⊢
  cases alike with
  | some follows => exact .ok follows
  | none => exact .error _

theorem compileAll_follows {x y : Expr} (before after : List Expr)
    (alike : Alike (Follows t t P) (compile options known n x) (compile options known n y)) :
    Alike (List.Forall₂ (Follows t t P)) (compileAll options known n (before ++ x :: after))
      (compileAll options known n (before ++ y :: after)) := by
  have same (exprs : List Expr) : Alike (List.Forall₂ (Follows t t P))
      (compileAll options known n exprs) (compileAll options known n exprs) :=
    .same _ fun xs _ => List.forall₂_same.mpr fun x _ => .refl x
  induction before with
  | nil =>
      rw [List.nil_append, List.nil_append, compileAll, compileAll]
      exact alike.bind fun a b first => (same after).bind fun xs ys others => .ok (.cons first others)
  | cons first before ih =>
      rw [List.cons_append, List.cons_append, compileAll, compileAll]
      exact Alike.bind (.same _ fun c _ => Follows.refl c) fun a b first =>
        ih.bind fun xs ys others => .ok (.cons first others)

theorem Frame.plug_follows (rises : Code.Rises t P) (frame : Frame) {x y : Expr} (plain : x.Plain)
    (plain' : y.Plain)
    (alike : Alike (Follows t t P) (compile options known n x) (compile options known n y)) :
    Alike (Follows t t P) (compile options known (n + 1) (frame.plug x))
      (compile options known (n + 1) (frame.plug y)) := by
  have same (result : Except FormulaError Compiled) : Alike (Follows t t P) result result :=
    .same _ fun c _ => .refl c
  cases frame with
  | member name =>
      simp only [plug, compile]
      exact alike.bind fun a b follows => .ok (Compiled.member_follows rises name follows)
  | unary op =>
      simp only [plug, compile]
      exact alike.bind fun a b follows => .ok (Compiled.unary_follows rises op follows)
  | left op right =>
      simp only [plug, compile]
      exact alike.bind fun a b first => (same _).bind fun c d second =>
        .ok (Compiled.binary_follows rises options op first second)
  | right op left =>
      simp only [plug, compile, checkedOperand_plain plain, checkedOperand_plain plain']
      exact (same _).bind fun a b first => alike.bind fun c d second =>
        .ok (Compiled.binary_follows rises options op first second)
  | input pattern substitute =>
      simp only [plug, compile]
      exact alike.bind fun a b first => (same _).bind fun c d second => (same _).bind fun e f third =>
        .ok (Compiled.replace_follows rises first second third)
  | pattern input substitute =>
      simp only [plug, compile, checkedOperand_plain plain, checkedOperand_plain plain']
      exact (same _).bind fun a b first => alike.bind fun c d second => (same _).bind fun e f third =>
        .ok (Compiled.replace_follows rises first second third)
  | substitute input pattern =>
      simp only [plug, compile]
      exact (same _).bind fun a b first => (same _).bind fun c d second => alike.bind fun e f third =>
        .ok (Compiled.replace_follows rises first second third)
  | item before after =>
      simp only [plug, compile]
      exact (compileAll_follows before after alike).bind fun xs ys follows =>
        .ok (Compiled.tuple_follows rises follows)
  | argument name before after span =>
      have args := compileAll_follows before after alike
      cases before with
      | nil =>
          simp only [plug, List.nil_append, compile_call, literal?_plain plain, literal?_plain plain']
          exact Alike.bind (.same _ fun _ _ => rfl) fun signature _ equal =>
            equal ▸ args.bind fun xs ys => called_follows rises signature
      | cons first before =>
          simp only [plug, List.cons_append, compile_call, List.length_append, List.length_cons]
          refine Alike.bind (.same _ fun _ _ => rfl) fun signature _ equal => ?_
          subst equal
          split
          · exact same _
          · exact args.bind fun xs ys => called_follows rises signature

/-- The induction is on the frames, the outermost first. -/
theorem plug_follows (rises : Code.Rises t P) (frames : List Frame) {x y : Expr} (plain : x.Plain)
    (plain' : y.Plain)
    (alike : Alike (Follows t t P) (compile options known n x) (compile options known n y)) :
    Alike (Follows t t P) (compile options known (n + frames.length) (plug frames x))
      (compile options known (n + frames.length) (plug frames y)) := by
  induction frames with
  | nil => exact alike
  | cons frame frames ih =>
      exact frame.plug_follows rises (plug_plain plain frames) (plug_plain plain' frames) ih

theorem compileAll_fails {e : FormulaError} {x y : Expr} (before after : List Expr)
    (fails : FailsWith e (compile options known n x) (compile options known n y)) :
    FailsWith e (compileAll options known n (before ++ x :: after))
      (compileAll options known n (before ++ y :: after)) := by
  induction before with
  | nil =>
      rw [List.nil_append, List.nil_append, compileAll, compileAll]
      exact fails.bind _ _
  | cons first before ih =>
      rw [List.cons_append, List.cons_append, compileAll, compileAll]
      exact .after _ fun _ => ih.bind _ _

/-- A literal version is the only argument, so no other one stands beside it. -/
theorem literal?_beside (first : Expr) {name : String} {span : Span} {count : Nat}
    {signature : Signature} (found : Scope.function name span (count + 1 + 1) = .ok signature) :
    signature.literal? first = none := by
  obtain ⟨listed, accepts⟩ := Scope.function_ok found
  unfold Signature.literal?
  refine if_neg fun version => ?_
  have one := Signature.count_of_version listed version accepts
  omega

/-- One step around the place: a tree fails as its operand does, unless something else in it fails. -/
theorem Frame.plug_fails (frame : Frame) {e : FormulaError} {x y : Expr} (plain : x.Plain)
    (plain' : y.Plain) (fails : FailsWith e (compile options known n x) (compile options known n y)) :
    FailsWith e (compile options known (n + 1) (frame.plug x))
      (compile options known (n + 1) (frame.plug y)) := by
  cases frame with
  | member | unary | left | input =>
      simp only [plug, compile]
      exact fails.bind _ _
  | right | pattern =>
      simp only [plug, compile, checkedOperand_plain plain, checkedOperand_plain plain']
      exact .after _ fun _ => fails.bind _ _
  | substitute =>
      simp only [plug, compile]
      exact .after _ fun _ => .after _ fun _ => fails.bind _ _
  | item before after =>
      simp only [plug, compile]
      exact (compileAll_fails before after fails).bind _ _
  | argument name before after span =>
      have args := compileAll_fails before after fails
      cases before with
      | nil =>
          simp only [plug, List.nil_append, compile_call, literal?_plain plain, literal?_plain plain']
          exact .after _ fun _ => args.bind _ _
      | cons first before =>
          simp only [plug, List.cons_append, compile_call, List.length_append, List.length_cons]
          cases found : Scope.function name span (before.length + (after.length + 1) + 1) with
          | error failure => exact .inl ⟨failure, rfl⟩
          | ok signature =>
              rw [ok_bind, ok_bind, literal?_beside first found]
              exact args.bind _ _

theorem plug_fails (frames : List Frame) {e : FormulaError} {x y : Expr} (plain : x.Plain)
    (plain' : y.Plain) (fails : FailsWith e (compile options known n x) (compile options known n y)) :
    FailsWith e (compile options known (n + frames.length) (plug frames x))
      (compile options known (n + frames.length) (plug frames y)) := by
  induction frames with
  | nil => exact fails
  | cons frame frames ih =>
      exact frame.plug_fails (plug_plain plain frames) (plug_plain plain' frames) ih

theorem compiles_of_plug {frames : List Frame} {x : Expr} (plain : x.Plain) {c : Compiled}
    (done : compile options known (n + frames.length) (plug frames x) = .ok c) :
    ∃ a, compile options known n x = .ok a := by
  cases made : compile options known n x with
  | ok a => exact ⟨a, rfl⟩
  | error e =>
      rcases plug_fails frames plain plain (.inr made) with ⟨other, failed⟩ | failed <;>
        cases done.symm.trans failed

section
variable {frames : List Frame} {x y : Expr} (plain : x.Plain) (plain' : y.Plain) {a whole : Compiled}
  (first : compile options known n x = .ok a)
  (done : compile options known (n + frames.length) (plug frames x) = .ok whole)
include plain plain' first done

theorem plug_ok (rises : Code.Rises t P) {b : Compiled} (second : compile options known n y = .ok b)
    (follows : Follows t t P a b) :
    ∃ c, compile options known (n + frames.length) (plug frames y) = .ok c ∧ Follows t t P whole c := by
  have alike : Alike (Follows t t P) (compile options known n x) (compile options known n y) := by
    rw [first, second]
    exact .ok follows
  have around := plug_follows rises frames plain plain' alike
  rw [done] at around
  generalize compile options known (n + frames.length) (plug frames y) = made at around ⊢
  cases around with
  | ok follows => exact ⟨_, rfl, follows⟩

/-- Where something compiles in the place, only what stands there can fail. -/
theorem error_of_plug {e : FormulaError}
    (kind : ∀ b, compile options known n y = .ok b → a.kind = b.kind)
    (failed : compile options known (n + frames.length) (plug frames y) = .error e) :
    compile options known n y = .error e := by
  cases second : compile options known n y with
  | ok b =>
      have anything : Code.Rises known fun _ => True := fun _ _ _ => id
      obtain ⟨c, made, -⟩ :=
        plug_ok plain plain' first done anything second ⟨kind b second, .inl trivial⟩
      cases made.symm.trans failed
  | error other =>
      rcases plug_fails frames plain plain' (.inr second) with ⟨failure, never⟩ | same
      · cases done.symm.trans never
      · exact same.symm.trans failed

end

end

/-- Evaluation comes to the operand that the operator reads as a pattern, a range or a version. -/
def Code.Consults (scope : Scope) : Code → Prop
  | fitsPattern text _ => ∃ v, text.eval scope = .ok v
  | replace input _ _ => ∃ v, input.eval scope = .ok v
  | inVersions version _ => ∃ v a, version.eval scope = .ok v ∧ versionOf v = .ok a
  | asVersion _ => True
  | _ => False

/-- One operator twice: with a literal operand that could be read beforehand, and with an operand whose
value is a text. -/
structure Deferred (present : Scope) (read text : String) (early late : Compiled) : Prop where
  kind : early.kind = late.kind
  same : text = read → early.code.eval present = late.code.eval present
  unread : ¬ late.code.Consults present → early.code.eval present = late.code.eval present

/-- Where the operator compiles with a literal in the slot, it does so with the symbol, as that operator
with its operand deferred. An error of another literal is then the error of evaluation, once it comes to
the operand. -/
def Slot.Defers (options : Options) (known present : Scope) (n : Nat) (symbol : Expr)
    (read text : String) (slot : Slot) : Prop :=
  ∀ early, compile options known (n + 1) (slot.fill (.literal (.text read))) = .ok early →
    ∃ late, compile options known (n + 1) (slot.fill symbol) = .ok late ∧
      Deferred present read text early late ∧
      ∀ e, compile options known (n + 1) (slot.fill (.literal (.text text))) = .error e →
        late.code.Consults present → late.code.eval present = .error e

section
variable {options : Options} {known present : Scope} {n : Nat} {symbol : Expr} {operand : Code}
  {read text : String}

section
variable (plain : symbol.Plain) (compiled : compile options known n symbol = .ok ⟨.dynamic, operand⟩)
  (bound : operand.eval present = .ok (.text text))
include plain compiled bound

theorem Slot.pattern_defers (x : Expr) :
    (Slot.pattern x).Defers options known present n symbol read text := by
  intro early done
  rw [fill, compile] at done
  obtain ⟨c, first, done⟩ := of_bind_ok done
  obtain ⟨d, checked, done⟩ := of_bind_ok done
  rw [checkedOperand_pattern] at checked
  cases done
  obtain ⟨regex, -, rfl⟩ := of_map_ok checked
  refine ⟨⟨.boolean, .fitsPattern c.code operand⟩, ?_, ⟨rfl, ?_, ?_⟩, ?_⟩
  · rw [fill, compile, first, ok_bind, checkedOperand_plain plain, compiled]
    rfl
  · rintro rfl
    simp only [Compiled.binary, Compiled.constant, Code.eval, bound]
  · intro unread
    cases value : c.code.eval present with
    | ok v => exact absurd ⟨v, value⟩ unread
    | error e => simp only [Compiled.binary, Code.eval, value, error_bind]
  · rintro e failed ⟨v, value⟩
    rw [fill, compile, first, ok_bind, checkedOperand_pattern] at failed
    rcases of_bind_error failed with refused | ⟨_, -, impossible⟩
    · simp only [Code.eval, value, bound, ok_bind, Value.toText, of_map_error refused, error_bind]
    · cases impossible

theorem Slot.replaced_defers (x y : Expr) :
    (Slot.replaced x y).Defers options known present n symbol read text := by
  intro early done
  rw [fill, compile] at done
  obtain ⟨c, first, done⟩ := of_bind_ok done
  obtain ⟨d, checked, done⟩ := of_bind_ok done
  rw [checkedOperand_pattern] at checked
  obtain ⟨substitute, third, done⟩ := of_bind_ok done
  cases done
  obtain ⟨regex, -, rfl⟩ := of_map_ok checked
  refine ⟨⟨.text, .replace c.code operand substitute.code⟩, ?_, ⟨rfl, ?_, ?_⟩, ?_⟩
  · rw [fill, compile, first, ok_bind, checkedOperand_plain plain, compiled, ok_bind, third]
    rfl
  · rintro rfl
    simp only [Compiled.constant, Code.eval, bound]
  · intro unread
    cases value : c.code.eval present with
    | ok v => exact absurd ⟨v, value⟩ unread
    | error e => simp only [Code.eval, value, error_bind]
  · rintro e failed ⟨v, value⟩
    rw [fill, compile, first, ok_bind, checkedOperand_pattern] at failed
    rcases of_bind_error failed with refused | ⟨_, -, later⟩
    · simp only [Code.eval, value, bound, ok_bind, Value.toText, of_map_error refused, error_bind]
    · rw [third] at later
      cases later

theorem Slot.range_defers (x : Expr) :
    (Slot.range x).Defers options known present n symbol read text := by
  intro early done
  rw [fill, compile] at done
  obtain ⟨c, first, done⟩ := of_bind_ok done
  obtain ⟨d, checked, done⟩ := of_bind_ok done
  rw [checkedOperand_range] at checked
  cases done
  obtain ⟨range, -, rfl⟩ := of_map_ok checked
  refine ⟨⟨.boolean, .inVersions c.code operand⟩, ?_, ⟨rfl, ?_, ?_⟩, ?_⟩
  · rw [fill, compile, first, ok_bind, checkedOperand_plain plain, compiled]
    rfl
  · rintro rfl
    simp only [Compiled.binary, Compiled.constant, Code.eval, bound]
  · -- The value is read as a version before the range is, and that can fail as well.
    intro unread
    cases value : c.code.eval present with
    | error e => simp only [Compiled.binary, Code.eval, value, error_bind]
    | ok v =>
        cases version : versionOf v with
        | ok a => exact absurd ⟨v, a, value, version⟩ unread
        | error e => simp only [Compiled.binary, Code.eval, value, ok_bind, version, error_bind]
  · rintro e failed ⟨v, a, value, version⟩
    rw [fill, compile, first, ok_bind, checkedOperand_range] at failed
    rcases of_bind_error failed with refused | ⟨_, -, impossible⟩
    · simp only [Code.eval, value, version, bound, ok_bind, Value.toText, of_map_error refused,
        error_bind]
    · cases impossible

theorem Slot.version_defers {name : String} {span : Span}
    (named : (Signature.find? name).map (·.builtin) = some .version) :
    (Slot.version name span named).Defers options known present n symbol read text := by
  intro early done
  obtain ⟨signature, listed, version⟩ := Option.map_eq_some_iff.mp named
  have literal (s : String) : signature.literal? (.literal (.text s)) = some s := if_pos version
  rw [fill, compile_call] at done
  obtain ⟨found, accepted, done⟩ := of_bind_ok done
  obtain rfl : signature = found :=
    Option.some.inj (listed.symm.trans (Scope.function_ok accepted).1)
  rw [literal] at done
  obtain ⟨v, parsed, done⟩ := of_bind_ok done
  cases done
  -- The one argument is all that the operator evaluates, so that it is always read.
  refine ⟨⟨.version, .asVersion operand⟩, ?_, ⟨rfl, ?_, fun unread => absurd trivial unread⟩, ?_⟩
  · rw [fill, compile_call, accepted, ok_bind, literal?_plain plain]
    simp only [compileAll, compiled, ok_bind, called, version]
    rfl
  · rintro rfl
    simp only [Compiled.constant, Code.eval, bound, ok_bind, parsed]
  · rintro e failed -
    rw [fill, compile_call, accepted, ok_bind, literal] at failed
    rcases of_bind_error failed with refused | ⟨_, -, impossible⟩
    · simp only [Code.eval, bound, ok_bind, refused, error_bind]
    · cases impossible

theorem Slot.defers (slot : Slot) : slot.Defers options known present n symbol read text := by
  cases slot with
  | pattern x => exact pattern_defers plain compiled bound x
  | replaced x y => exact replaced_defers plain compiled bound x y
  | range x => exact range_defers plain compiled bound x
  | version name span named => exact version_defers plain compiled bound named

end

/-- Evaluation comes to the operator, and there to the operand that it reads. -/
def Code.ComesTo (present : Scope) (node whole : Code) : Prop :=
  Code.Reaches present whole node ∧ node.Consults present

/-- The same around a place. Whatever stands around the operator, evaluation that does not come to its
operand has the same result, and otherwise the operator decides. -/
theorem compile_deferred (frames : List Frame) (slot : Slot) (plain : symbol.Plain)
    (compiled : compile options known n symbol = .ok ⟨.dynamic, operand⟩)
    (bound : operand.eval present = .ok (.text text)) {whole : Compiled}
    (done : compile options known (n + 1 + frames.length)
      (plug frames (slot.fill (.literal (.text read)))) = .ok whole) :
    ∃ node late, compile options known (n + 1) (slot.fill symbol) = .ok node ∧
      compile options known (n + 1 + frames.length) (plug frames (slot.fill symbol)) = .ok late ∧
      whole.kind = late.kind ∧
      (text = read → whole.code.eval present = late.code.eval present) ∧
      (¬ node.code.ComesTo present late.code → whole.code.eval present = late.code.eval present) ∧
      ∀ e, compile options known (n + 1 + frames.length)
        (plug frames (slot.fill (.literal (.text text)))) = .error e →
          node.code.ComesTo present late.code → late.code.eval present = .error e := by
  have literal (s : String) : (slot.fill (.literal (.text s))).Plain := slot.fill_plain _
  obtain ⟨early, made⟩ := compiles_of_plug (literal read) done
  obtain ⟨node, atNode, deferred, refuses⟩ := slot.defers plain compiled bound early made
  have follow {P : Code → Prop} (rises : Code.Rises present P)
      (code : Code.Tracks present present P early.code node.code) :=
    plug_ok (literal read) (slot.fill_plain symbol) made done rises atNode ⟨deferred.kind, code⟩
  -- A tree around the operator either comes to the operand or cannot tell the two operators apart.
  have comes : Code.Rises present (node.code.ComesTo present ·) :=
    fun x y asks reached => ⟨.head asks reached.1, reached.2⟩
  have unread : Code.Tracks present present (node.code.ComesTo present ·) early.code node.code := by
    by_cases consults : node.code.Consults present
    · exact .inl ⟨.refl, consults⟩
    · exact .inr (deferred.unread consults)
  obtain ⟨late, atWhole, kind, code⟩ := follow comes unread
  refine ⟨node, late, atNode, atWhole, kind, ?_, code.resolve_left, ?_⟩
  · intro same
    obtain ⟨again, atAgain, -, code⟩ := follow Code.rises_never (.inr (deferred.same same))
    cases atWhole.symm.trans atAgain
    exact code.resolve_left id
  · rintro e failed ⟨reaches, consults⟩
    refine reaches.error (refuses e ?_ consults)
    refine error_of_plug (literal read) (literal text) made done ?_ failed
    intro other atOther
    obtain ⟨again, atAgain, deferredAgain, -⟩ := slot.defers plain compiled bound other atOther
    cases atNode.symm.trans atAgain
    exact deferred.kind.trans deferredAgain.kind.symm

end

section
variable {options : Options} {known present : Scope} {path : List String} {text : String}

/-- The path is known in the one scope, and its value in the other one is the text. -/
def Scope.Binds (known present : Scope) (path : List String) (text : String) : Prop :=
  ∃ found v, known.resolve? path = some found ∧ present.get? found.provider found.name = some v ∧
    membersOf v found.members = .ok (.text text)

theorem Scope.binds_of_value? {scope : Scope} {name : String}
    (known : scope.value? name = some (.text text)) : scope.Binds scope [name] text := by
  cases provider : scope.providerOf? name with
  | none =>
      rw [providerOf?_eq_none, known] at provider
      cases provider
  | some p =>
      refine ⟨⟨p, name, []⟩, .text text, ?_, (get?_of_providerOf? provider).trans known, rfl⟩
      have whole : ".".intercalate ([name].take 1) = name := String.intercalate_singleton
      simp only [resolve?, List.length_singleton, resolvePrefix?, whole, provider]
      rfl

theorem Scope.symbol_of_binds (binds : known.Binds present path text) (span : Span) :
    ∃ operand, known.symbol path span = .ok ⟨.dynamic, operand⟩ ∧
      operand.eval present = .ok (.text text) := by
  obtain ⟨found, v, resolved, value, members⟩ := binds
  refine ⟨.lookup found.provider found.name found.members span, ?_, ?_⟩
  · rw [symbol, resolved]
  · simp only [Code.eval, value, members]

theorem compile_add {n : Nat} {expr : Expr} {x : Compiled} (done : compile options known n expr = .ok x)
    (more : Nat) : compile options known (n + more) expr = .ok x := by
  induction more with
  | zero => exact done
  | succ more ih => exact compile_succ ih

end

/-- A symbol in the place of a literal pattern, range or version to which it is bound. If the formula
compiles with the literal, it does so with the symbol, to the same kind, and has the same result. If
the literal alone is why it does not compile, it compiles with the symbol; it fails with that error of
the literal where evaluation comes to the operand, and where it does not, it has the result that it has
with any literal that compiles. -/
theorem hoist_literal {options : Options} {known present : Scope} {head text source source' : String}
    {tail : List String} {span : Span} (frames : List Frame) (slot : Slot)
    (bound : known.Binds present (head :: tail) text) (depth : frames.length + 2 ≤ options.depthLimit) :
    (∀ f, ofExpr options known source (plug frames (slot.fill (.literal (.text text)))) = .ok f →
      ∃ g, ofExpr options known source' (plug frames (slot.fill (.symbol head tail span))) = .ok g ∧
        g.kind = f.kind ∧ g.evaluate present = f.evaluate present) ∧
    ∀ e other f,
      ofExpr options known source (plug frames (slot.fill (.literal (.text text)))) = .error e →
      ofExpr options known source (plug frames (slot.fill (.literal (.text other)))) = .ok f →
      ∃ g node,
        ofExpr options known source' (plug frames (slot.fill (.symbol head tail span))) = .ok g ∧
        compile options known options.depthLimit (slot.fill (.symbol head tail span)) = .ok node ∧
        (node.code.ComesTo present g.code → g.evaluate present = .error e) ∧
        (¬ node.code.ComesTo present g.code → g.evaluate present = f.evaluate present) := by
  obtain ⟨n, levels⟩ : ∃ n, options.depthLimit = n + 1 + 1 + frames.length :=
    ⟨options.depthLimit - 2 - frames.length, by omega⟩
  obtain ⟨operand, resolved, value⟩ := Scope.symbol_of_binds bound span
  have compiled : compile options known (n + 1) (.symbol head tail span) = .ok ⟨.dynamic, operand⟩ := by
    rw [compile, resolved]
  have plain : (Expr.symbol head tail span).Plain := rfl
  unfold ofExpr
  rw [levels]
  constructor
  · intro f compiles
    obtain ⟨whole, done, made⟩ := of_bind_ok compiles
    cases made
    obtain ⟨node, late, -, atWhole, kind, same, -⟩ :=
      compile_deferred frames slot plain compiled value done
    exact ⟨⟨source', late.kind, late.code⟩, by rw [atWhole, ok_bind], kind.symm, (same rfl).symm⟩
  · intro e other f failed compiles
    obtain ⟨whole, done, made⟩ := of_bind_ok compiles
    cases made
    rcases of_bind_error failed with refused | ⟨_, -, impossible⟩
    · obtain ⟨node, late, atNode, atWhole, -, -, away, refuses⟩ :=
        compile_deferred frames slot plain compiled value done
      exact ⟨⟨source', late.kind, late.code⟩, node, by rw [atWhole, ok_bind], compile_add atNode _,
        refuses e refused, fun unread => (away unread).symm⟩
    · cases impossible

def hull : Slot := .pattern (.literal (.text "hull"))

def tag : Expr := .symbol "Tag" [] ⟨0, 3⟩

def tagged (pattern : String) : Scope := [.bindings [("Tag", .text pattern)]]

/-- A negated test with a pattern that is well-formed, and with one that is not. -/
theorem hoist_literal_tag :
    (∃ g v, ofExpr .initial (tagged "h.*") "" (plug [.unary .not] (hull.fill tag)) = .ok g ∧
      g.evaluate (tagged "h.*") = .ok v ∧ v.toText = "false") ∧
    ∃ g e, ofExpr .initial (tagged "[") "" (plug [.unary .not] (hull.fill tag)) = .ok g ∧
      g.evaluate (tagged "[") = .error e ∧ e.message = "Invalid regular expression '['" := by
  have bound (pattern : String) : (tagged pattern).Binds (tagged pattern) ["Tag"] pattern :=
    Scope.binds_of_value? rfl
  have hoisted (pattern : String) := @hoist_literal .initial (tagged pattern) (tagged pattern) "Tag"
    pattern "" "" [] ⟨0, 3⟩ [.unary .not] hull (bound pattern) (by decide)
  constructor
  · have computed : ((ofExpr .initial (tagged "h.*") "" (plug [.unary .not]
        (hull.fill (.literal (.text "h.*"))))).bind (·.evaluate (tagged "h.*"))).toOption.map
          Value.toText = some "false" := by decide +kernel
    obtain ⟨v, success, shown⟩ := of_toOption_map computed
    obtain ⟨f, made, value⟩ := of_bind_ok success
    obtain ⟨g, compiled, -, same⟩ := (hoisted "h.*").1 f made
    exact ⟨g, v, compiled, same.trans value, shown⟩
  · have refused : (errorOf? (ofExpr .initial (tagged "[") "" (plug [.unary .not]
        (hull.fill (.literal (.text "[")))))).map (·.message) =
          some "Invalid regular expression '['" := by decide +kernel
    have accepted : (ofExpr .initial (tagged "[") "" (plug [.unary .not]
        (hull.fill (.literal (.text "h"))))).isOk := by decide +kernel
    obtain ⟨e, failed, message⟩ := of_errorOf?_map refused
    obtain ⟨f, made⟩ := of_isOk accepted
    obtain ⟨g, node, compiled, alone, comes, -⟩ := (hoisted "[").2 e "h" f failed made
    refine ⟨g, e, compiled, comes ?_, message⟩
    have test : compile .initial (tagged "[") Options.initial.depthLimit (hull.fill tag) =
        .ok ⟨.boolean, .fitsPattern (.constant (.text "hull")) (.lookup 0 "Tag" [] ⟨0, 3⟩)⟩ := rfl
    have negated : ofExpr .initial (tagged "[") "" (plug [.unary .not] (hull.fill tag)) =
        .ok ⟨"", .boolean,
          .not (.fitsPattern (.constant (.text "hull")) (.lookup 0 "Tag" [] ⟨0, 3⟩))⟩ := rfl
    cases alone.symm.trans test
    cases compiled.symm.trans negated
    refine ⟨.single List.mem_cons_self, .text "hull", ?_⟩
    rw [Code.eval]

end Emend.Formula
