import Emend.Formula.Compile
import Emend.Proofs.Formula.Parts
import Emend.Proofs.Formula.Reading

/-!
How high the tree of a formula is. A tree compiles without running out of levels if it is no higher
than the limit. The parser takes a level for every operator of a chain and for every member, but
gives back what the operand before them took, so a tree can be higher than the limit that it was
parsed with: at most as a square is higher than its root.
-/

set_option autoImplicit false

namespace Emend.Formula

namespace Expr

mutual

def height : Expr → Nat
  | literal _ | symbol .. => 1
  | member target _ => height target + 1
  | unary _ x => height x + 1
  | binary _ x y => max (height x) (height y) + 1
  | replace input pattern substitute =>
    max (height input) (max (height pattern) (height substitute)) + 1
  | call _ args _ => heights args + 1
  | tuple items => heights items + 1

def heights : List Expr → Nat
  | [] => 0
  | x :: rest => max (height x) (heights rest)

end

mutual

/-- No operand before an operator is higher than the operands after it, and only names and
constants have members. -/
def leansRight : Expr → Bool
  | literal _ | symbol .. => true
  | member target _ => height target ≤ 1
  | unary _ x => leansRight x
  | binary _ x y => height x ≤ height y && leansRight y
  | replace input pattern substitute =>
    height input ≤ max (height pattern) (height substitute) && leansRight pattern &&
      leansRight substitute
  | call _ args _ => allLeanRight args
  | tuple items => allLeanRight items

def allLeanRight : List Expr → Bool
  | [] => true
  | x :: rest => leansRight x && allLeanRight rest

end

theorem heights_le_iff {exprs : List Expr} {n : Nat} :
    heights exprs ≤ n ↔ ∀ x ∈ exprs, x.height ≤ n := by
  induction exprs with
  | nil => simp [heights]
  | cons x rest ih => rw [heights, Nat.max_le, ih, List.forall_mem_cons]

theorem allLeanRight_iff {exprs : List Expr} :
    allLeanRight exprs ↔ ∀ x ∈ exprs, x.leansRight := by
  induction exprs with
  | nil => simp [allLeanRight]
  | cons x rest ih => rw [allLeanRight, Bool.and_eq_true, ih, List.forall_mem_cons]

theorem height_positive (x : Expr) : 0 < x.height := by
  cases x <;> simp [height]

theorem height_le_succ_iff {x : Expr} {n : Nat} :
    x.height ≤ n + 1 ↔ ∀ operand ∈ x.operands, operand.height ≤ n := by
  cases x with
  | literal | symbol => simp [height, operands]
  | call | tuple => simp only [height, operands, Nat.add_le_add_iff_right, heights_le_iff]
  | member | unary => simp [height, operands]
  | binary | replace =>
      simp only [height, operands, Nat.add_le_add_iff_right, Nat.max_le, List.forall_mem_cons,
        List.not_mem_nil, false_implies, implies_true, and_true]

/-- A sign adds one level at most. -/
theorem height_signed_le (op : UnaryOp) (x : Expr) : (signed op x).height ≤ x.height + 1 := by
  unfold signed
  split <;> simp [height]

theorem leansRight_of_signed {op : UnaryOp} {x : Expr} (leans : (signed op x).leansRight) :
    x.leansRight := by
  unfold signed at leans
  split at leans
  · rfl
  · rfl
  · exact leans

end Expr

/-- The computation does not run out of levels. -/
def Shallow {α : Type} (result : Except FormulaError α) : Prop :=
  ∀ limit, result ≠ .error (.tooDeep limit)

namespace Shallow

variable {α β : Type}

theorem ok (a : α) : Shallow (.ok a : Except FormulaError α) := by
  intro limit failed
  cases failed

theorem bind {first : Except FormulaError α} {next : α → Except FormulaError β}
    (start : Shallow first) (others : ∀ a, Shallow (next a)) : Shallow (first >>= next) := by
  cases first with
  | error e =>
      intro limit failed
      cases failed
      exact start limit rfl
  | ok a => exact others a

theorem map {x : Except FormulaError α} (f : α → β) (shallow : Shallow x) : Shallow (x.map f) := by
  cases x with
  | error e =>
      intro limit failed
      cases failed
      exact shallow limit rfl
  | ok a => exact ok (f a)

end Shallow

theorem shallow_symbol (scope : Scope) (path : List String) (span : Text.Span) :
    Shallow (scope.symbol path span) := by
  intro limit failed
  unfold Scope.symbol at failed
  split at failed <;> cases failed

theorem shallow_function (name : String) (span : Text.Span) (count : Nat) :
    Shallow (Scope.function name span count) := by
  intro limit failed
  unfold Scope.function at failed
  split at failed
  · split at failed <;> cases failed
  · split at failed <;> cases failed

theorem shallow_literalOperand {op : BinaryOp} {s : String} {checked : Except FormulaError Compiled}
    (literal : literalOperand op s = some checked) : Shallow checked := by
  unfold literalOperand at literal
  split at literal <;> cases literal
  · apply Shallow.map
    intro limit failed
    unfold patternOf at failed
    split at failed <;> cases failed
  · apply Shallow.map
    intro limit failed
    unfold rangeOf at failed
    split at failed <;> cases failed

theorem shallow_versionOf (s : String) : Shallow (versionOf (.text s)) := by
  intro limit failed
  unfold versionOf coerced at failed
  split at failed <;> cases failed

section
variable {options : Options} {scope : Scope} {allowance : Nat}

theorem Shallow.checkedOperand {op : BinaryOp} {expr : Expr} {compiled : Except FormulaError Compiled}
    (shallow : Shallow compiled) : Shallow (checkedOperand op expr compiled) := by
  unfold Formula.checkedOperand
  cases literal : expr.literalText?.bind (literalOperand op) with
  | none => exact shallow
  | some checked =>
      obtain ⟨s, -, found⟩ := Option.bind_eq_some_iff.mp literal
      exact shallow_literalOperand found

theorem shallow_compileAll {exprs : List Expr}
    (each : ∀ x ∈ exprs, Shallow (compile options scope allowance x)) :
    Shallow (compileAll options scope allowance exprs) := by
  induction exprs with
  | nil =>
      rw [compileAll]
      exact .ok _
  | cons x rest ih =>
      rw [compileAll]
      refine (each x List.mem_cons_self).bind fun first => ?_
      refine (ih fun y later => each y (List.mem_cons_of_mem _ later)).bind fun others => ?_
      exact .ok _

/-- A tree that is no higher than the allowance does not run out of levels. -/
theorem shallow_compile {expr : Expr} (low : expr.height ≤ allowance) :
    Shallow (compile options scope allowance expr) := by
  induction allowance generalizing expr with
  | zero => exact absurd expr.height_positive (Nat.not_lt.mpr low)
  | succ allowance ih =>
      have inner := Expr.height_le_succ_iff.mp low
      have operand {x : Expr} (member : x ∈ expr.operands) :
          Shallow (compile options scope allowance x) := ih (inner x member)
      unfold compile
      cases expr with
      | literal l => exact .ok _
      | symbol head tail span => exact shallow_symbol _ _ _
      | member target name => exact (operand (by simp [Expr.operands])).bind fun _ => .ok _
      | unary op x => exact (operand (by simp [Expr.operands])).bind fun _ => .ok _
      | binary op x y =>
          refine (operand (by simp [Expr.operands])).bind fun _ => ?_
          exact (operand (by simp [Expr.operands])).checkedOperand.bind fun _ => .ok _
      | replace input pattern substitute =>
          refine (operand (by simp [Expr.operands])).bind fun _ => ?_
          refine (operand (by simp [Expr.operands])).checkedOperand.bind fun _ => ?_
          exact (operand (by simp [Expr.operands])).bind fun _ => .ok _
      | tuple items => exact (shallow_compileAll fun _ member => operand member).bind fun _ => .ok _
      | call name args span =>
          cases args with
          | nil =>
              dsimp only
              split
              · exact shallow_symbol _ _ _
              · refine (shallow_function _ _ _).bind fun signature => ?_
                intro limit failed
                cases failed
          | cons first others =>
              refine (shallow_function _ _ _).bind fun signature => ?_
              split
              · exact (shallow_versionOf _).bind fun _ => .ok _
              · refine (operand List.mem_cons_self).bind fun _ => ?_
                refine (shallow_compileAll fun _ later =>
                  operand (List.mem_cons_of_mem _ later)).bind fun _ => ?_
                split
                · exact .ok _
                · intro limit failed
                  cases failed

theorem shallow_ofExpr {expr : Expr} (scope : Scope) (source : String)
    (low : expr.height ≤ options.depthLimit) : Shallow (ofExpr options scope source expr) :=
  (shallow_compile low).bind fun _ => .ok _

end

namespace Parser

/-- What the parser is in the middle of. -/
inductive Stage where
  | primary
  /-- After this many members of a computed value. -/
  | members (count : Nat)
  | operand
  /-- After this many operators of a chain. -/
  | chain (count : Nat)
  | expression

/-- The trees that the parser may have at a stage, by the allowance that it reads the operands
inside with. Every operator of a chain takes a level of it, and so does every member; both leave
the operand before them as it was read. -/
inductive Nested : Stage → Nat → Expr → Prop
  | literal (allowance : Nat) (l : Literal) : Nested .primary allowance (.literal l)
  | symbol (allowance : Nat) (head : String) (tail : List String) (span : Text.Span) :
      Nested .primary allowance (.symbol head tail span)
  | call {allowance : Nat} {args : List Expr} (name : String) (span : Text.Span)
      (each : ∀ x ∈ args, Nested .expression allowance x) :
      Nested .primary allowance (.call name args span)
  | group {allowance : Nat} {x : Expr} (inner : Nested .expression allowance x) :
      Nested .primary allowance x
  | tuple {allowance : Nat} {items : List Expr} (each : ∀ x ∈ items, Nested .expression allowance x) :
      Nested .primary allowance (.tuple items)
  | start {allowance : Nat} {x : Expr} (first : Nested .primary allowance x) :
      Nested (.members 0) allowance x
  | path {allowance count : Nat} {head : String} {tail : List String} {span : Text.Span}
      (name : String) (stop : Text.Span)
      (before : Nested (.members count) allowance (.symbol head tail span)) :
      Nested (.members count) allowance (.symbol head (tail ++ [name]) stop)
  | member {allowance count : Nat} {target : Expr} (name : String)
      (before : Nested (.members count) allowance target) (room : count < allowance) :
      Nested (.members (count + 1)) allowance (.member target name)
  | plain {allowance count : Nat} {x : Expr} (base : Nested (.members count) allowance x) :
      Nested .operand (allowance + 1) x
  | power {allowance count : Nat} {x y : Expr} (base : Nested (.members count) allowance x)
      (exponent : Nested .operand allowance y) :
      Nested .operand (allowance + 1) (.binary .power x y)
  | sign {allowance : Nat} {x : Expr} (op : UnaryOp) (inner : Nested .operand allowance x) :
      Nested .operand (allowance + 1) (.signed op x)
  | first {allowance : Nat} {x : Expr} (operand : Nested .operand allowance x) :
      Nested (.chain 0) allowance x
  | joined {allowance count inside : Nat} {x y : Expr} (op : BinaryOp)
      (left : Nested (.chain count) allowance x) (right : Nested .expression inside y)
      (room : count + inside < allowance) :
      Nested (.chain (count + 1)) allowance (.binary op x y)
  | replaced {allowance count inside : Nat} {x pattern substitute : Expr}
      (input : Nested (.chain count) allowance x) (first : Nested .expression inside pattern)
      (second : Nested .expression inside substitute) (room : count + inside < allowance) :
      Nested (.chain (count + 1)) allowance (.replace x pattern substitute)
  | whole {allowance count : Nat} {x : Expr} (chain : Nested (.chain count) allowance x) :
      Nested .expression allowance x

/-- No more members and operators were read than there were levels for them. -/
def Stage.Fits : Stage → Nat → Prop
  | members count, allowance => count ≤ allowance
  | operand, allowance | expression, allowance => 0 < allowance
  | chain count, allowance => count < allowance
  | primary, _ => True

theorem Nested.fits {stage : Stage} {allowance : Nat} {x : Expr}
    (nested : Nested stage allowance x) : stage.Fits allowance := by
  induction nested with
  | start | literal | symbol | call | group | tuple => simp [Stage.Fits]
  | path _ _ _ ih => exact ih
  | member _ _ room _ => exact room
  | plain | power | sign => exact Nat.succ_pos _
  | first _ ih => exact ih
  | joined _ _ _ room | replaced _ _ _ room =>
      simp only [Stage.Fits] at *
      omega
  | whole _ ih => exact Nat.lt_of_le_of_lt (Nat.zero_le _) ih

/-- The height that a tree at a stage may have. -/
def Stage.bound : Stage → Nat → Nat
  | primary, allowance => max 1 (allowance * (allowance + 1))
  | members count, allowance => max 1 (allowance * (allowance + 1)) + count
  | operand, allowance => allowance * allowance
  | chain count, allowance => allowance * allowance + count
  | expression, allowance => allowance * (allowance + 1) - 1

theorem Nested.height_le {stage : Stage} {allowance : Nat} {x : Expr}
    (nested : Nested stage allowance x) : x.height ≤ stage.bound allowance := by
  induction nested with
  | literal | symbol => exact Nat.le_max_left _ _
  | call name span each ih =>
      have highest := Expr.heights_le_iff.mpr ih
      simp only [Stage.bound, Expr.height] at highest ⊢
      omega
  | tuple each ih =>
      have highest := Expr.heights_le_iff.mpr ih
      simp only [Stage.bound, Expr.height] at highest ⊢
      omega
  | group _ ih =>
      simp only [Stage.bound] at ih ⊢
      omega
  | start _ ih => exact ih
  | path _ _ _ ih => exact ih
  | member _ _ _ ih => exact Nat.succ_le_succ ih
  | @plain allowance count x base ih =>
      have within : count ≤ allowance := base.fits
      simp only [Stage.bound, Nat.succ_mul] at ih ⊢
      rw [Nat.mul_comm allowance] at ih
      simp only [Nat.succ_mul, Nat.mul_succ] at ih ⊢
      omega
  | @power allowance count x y base exponent left right =>
      have within : count ≤ allowance := base.fits
      have positive : 0 < allowance := exponent.fits
      simp only [Stage.bound, Expr.height, Nat.succ_mul, Nat.mul_succ] at left right ⊢
      omega
  | @sign allowance x op inner ih =>
      have signed := Expr.height_signed_le op x
      simp only [Stage.bound, Nat.succ_mul, Nat.mul_succ] at ih ⊢
      omega
  | first _ ih => exact ih
  | @joined allowance count inside x y op left right room low high =>
      have square : inside * (inside + 1) ≤ allowance * allowance :=
        Nat.mul_le_mul (by omega) (by omega)
      simp only [Stage.bound, Expr.height] at low high ⊢
      omega
  | @replaced allowance count inside x pattern substitute input first second room low high more =>
      have square : inside * (inside + 1) ≤ allowance * allowance :=
        Nat.mul_le_mul (by omega) (by omega)
      simp only [Stage.bound, Expr.height] at low high more ⊢
      omega
  | @whole allowance count x chain ih =>
      have within : count < allowance := chain.fits
      simp only [Stage.bound, Nat.mul_succ] at ih ⊢
      omega

/-- The height that a tree at a stage may have if it leans to the right. -/
def Stage.levels : Stage → Nat → Nat
  | primary, allowance | members _, allowance => allowance + 1
  | _, allowance => allowance

theorem Nested.height_le_of_leansRight {stage : Stage} {allowance : Nat} {x : Expr}
    (nested : Nested stage allowance x) (leans : x.leansRight) :
    x.height ≤ stage.levels allowance := by
  induction nested with
  | literal | symbol => exact Nat.succ_le_succ (Nat.zero_le _)
  | call name span each ih =>
      have highest := Expr.heights_le_iff.mpr fun x member =>
        ih x member (Expr.allLeanRight_iff.mp leans x member)
      exact Nat.succ_le_succ highest
  | tuple each ih =>
      have highest := Expr.heights_le_iff.mpr fun x member =>
        ih x member (Expr.allLeanRight_iff.mp leans x member)
      exact Nat.succ_le_succ highest
  | group _ ih => exact Nat.le_succ_of_le (ih leans)
  | start _ ih => exact ih leans
  | path _ _ _ _ => exact Nat.succ_le_succ (Nat.zero_le _)
  | member name before room ih =>
      have leaf : _ ≤ 1 := of_decide_eq_true leans
      simp only [Stage.levels, Expr.height]
      omega
  | plain _ ih => exact ih leans
  | @power allowance count x y base exponent left right =>
      simp only [Expr.leansRight, Bool.and_eq_true, decide_eq_true_eq] at leans
      have low := right leans.2
      simp only [Stage.levels, Expr.height] at low ⊢
      omega
  | @sign allowance x op inner ih =>
      have signed := Expr.height_signed_le op x
      have low := ih (Expr.leansRight_of_signed leans)
      simp only [Stage.levels] at low ⊢
      omega
  | first _ ih => exact ih leans
  | @joined allowance count inside x y op left right room low high =>
      simp only [Expr.leansRight, Bool.and_eq_true, decide_eq_true_eq] at leans
      have after := high leans.2
      simp only [Stage.levels, Expr.height] at after ⊢
      omega
  | @replaced allowance count inside x pattern substitute input first second room low high more =>
      simp only [Expr.leansRight, Bool.and_eq_true, decide_eq_true_eq] at leans
      have searched := high leans.1.2
      have put := more leans.2
      simp only [Stage.levels, Expr.height] at searched put ⊢
      omega
  | whole _ ih => exact ih leans

section
variable {source : Source}

/-- A reader answers with trees that its allowance admits. -/
structure Admits (deeper : Reader) (allowance : Nat) : Prop where
  operand : ∀ ts x rest, deeper .operand ts = .ok (x, rest) → Nested .operand allowance x
  chain : ∀ least whole count left ts x rest, count + allowance = whole →
    Nested (.chain count) whole left → deeper (.chain least left) ts = .ok (x, rest) →
    Nested .expression whole x

theorem members_nested {allowance spent whole : Nat} {target x : Expr} {ts rest : List Lexeme}
    (before : Nested (.members spent) whole target) (left : spent + allowance = whole)
    (read : members source allowance target ts = .ok (x, rest)) :
    ∃ count, Nested (.members count) whole x := by
  fun_induction members source allowance target ts generalizing spent with
  | case1 allowance target _ name span others path computed =>
      obtain ⟨after, -, read⟩ := of_bind_ok read
      split at read
      · exact path _ _ _ (before.path name _) left read
      · cases read
      · exact computed _ _ (before.member name (by omega)) (by omega) read
  | case2 =>
      obtain ⟨after, -, read⟩ := of_bind_ok read
      cases read
  | case3 =>
      cases read
      exact ⟨spent, before⟩

section
variable {deeper : Reader} {allowance : Nat} (admits : Admits deeper allowance)
include admits

theorem expression_nested {least : Level} {ts rest : List Lexeme} {x : Expr}
    (read : expression deeper least ts = .ok (x, rest)) : Nested .expression allowance x := by
  obtain ⟨⟨left, after⟩, first, read⟩ := of_bind_ok read
  have operand := admits.operand ts left after first
  exact admits.chain least allowance 0 left after x rest (Nat.zero_add _) (.first operand) read

theorem items_nested {fuel : Nat} {least : Level} {ts rest : List Lexeme} {items : List Expr}
    (read : Parser.items source (expression deeper least) fuel ts = .ok (items, rest)) :
    ∀ x ∈ items, Nested .expression allowance x := by
  induction fuel generalizing ts items with
  | zero =>
      cases read
      intro x member
      cases member
  | succ fuel ih =>
      obtain ⟨⟨first, after⟩, head, read⟩ := of_bind_ok read
      have one := expression_nested admits head
      dsimp only at read
      split at read
      · obtain ⟨mid, -, more⟩ := of_bind_ok read
        obtain ⟨⟨others, last⟩, tail, done⟩ := of_bind_ok more
        cases done
        exact List.forall_mem_cons.mpr ⟨one, ih tail⟩
      · cases read
        exact List.forall_mem_singleton.mpr one

theorem arguments_nested {name : String} {start : Text.Span} {ts rest : List Lexeme} {x : Expr}
    (read : arguments source deeper name start ts = .ok (x, rest)) :
    Nested .primary allowance x := by
  unfold arguments at read
  split at read
  · obtain ⟨last, -, done⟩ := of_bind_ok read
    cases done
    exact .call name _ fun _ member => absurd member List.not_mem_nil
  · obtain ⟨⟨args, after⟩, listed, closing⟩ := of_bind_ok read
    obtain ⟨⟨stop, last⟩, -, done⟩ := of_bind_ok closing
    cases done
    exact .call name _ (items_nested admits listed)

theorem group_nested {ts rest : List Lexeme} {x : Expr}
    (read : group source deeper ts = .ok (x, rest)) : Nested .primary allowance x := by
  obtain ⟨⟨items, after⟩, listed, read⟩ := of_bind_ok read
  have each := items_nested admits listed
  split at read
  · rename_i single
    cases single
    obtain ⟨⟨stop, last⟩, -, done⟩ := of_bind_ok read
    cases done
    exact .group (each x List.mem_cons_self)
  · rename_i several
    cases several
    obtain ⟨⟨stop, last⟩, -, done⟩ := of_bind_ok read
    cases done
    exact .tuple each

theorem primary_nested {ts rest : List Lexeme} {x : Expr}
    (read : primary source deeper ts = .ok (x, rest)) : Nested .primary allowance x := by
  unfold primary at read
  split at read
  · obtain ⟨last, -, done⟩ := of_bind_ok read
    cases done
    exact .literal _ _
  · obtain ⟨last, -, done⟩ := of_bind_ok read
    cases done
    exact .literal _ _
  · obtain ⟨after, -, next⟩ := of_bind_ok read
    split at next
    · obtain ⟨last, -, called⟩ := of_bind_ok next
      exact arguments_nested admits called
    · split at next <;> cases next
      · exact .literal _ _
      · exact .symbol _ _ _ _
  · obtain ⟨after, -, grouped⟩ := of_bind_ok read
    exact group_nested admits grouped
  · cases read

theorem power_nested {ts rest : List Lexeme} {x : Expr}
    (read : power source allowance deeper ts = .ok (x, rest)) :
    Nested .operand (allowance + 1) x := by
  obtain ⟨⟨target, mid⟩, head, read⟩ := of_bind_ok read
  obtain ⟨⟨base, after⟩, named, done⟩ := of_bind_ok read
  obtain ⟨count, members⟩ :=
    members_nested (.start (primary_nested admits head)) (Nat.zero_add _) named
  split at done
  · rename_i raised
    cases raised
    obtain ⟨last, -, next⟩ := of_bind_ok done
    obtain ⟨⟨exponent, last⟩, second, final⟩ := of_bind_ok next
    cases final
    exact .power members (admits.operand _ _ _ second)
  · cases done
    exact .plain members

theorem join_nested {count whole : Nat} {joint : Joint} {left x : Expr} {ts rest : List Lexeme}
    (before : Nested (.chain count) whole left) (room : count + allowance < whole)
    (read : join source deeper joint left ts = .ok (x, rest)) :
    Nested (.chain (count + 1)) whole x := by
  unfold join at read
  cases joint with
  | binary op =>
      obtain ⟨⟨right, last⟩, second, done⟩ := of_bind_ok read
      cases done
      exact .joined op before (expression_nested admits second) room
  | versions =>
      obtain ⟨after, -, next⟩ := of_bind_ok read
      obtain ⟨⟨right, last⟩, second, done⟩ := of_bind_ok next
      cases done
      exact .joined .inVersions before (expression_nested admits second) room
  | replacement =>
      obtain ⟨⟨pattern, mid⟩, second, next⟩ := of_bind_ok read
      obtain ⟨after, -, next⟩ := of_bind_ok next
      obtain ⟨⟨substitute, last⟩, third, done⟩ := of_bind_ok next
      cases done
      exact .replaced before (expression_nested admits second) (expression_nested admits third) room

theorem step_admits : Admits (step source allowance deeper) (allowance + 1) where
  operand ts x rest read := by
    cases ts with
    | nil => exact power_nested admits read
    | cons lexeme others =>
        dsimp only [step] at read
        split at read
        · rename_i op _
          obtain ⟨after, -, next⟩ := of_bind_ok read
          obtain ⟨⟨operand, last⟩, inner, done⟩ := of_bind_ok next
          cases done
          exact .sign op (admits.operand _ _ _ inner)
        · exact power_nested admits read
  chain least whole count left ts x rest total before read := by
    cases ts with
    | nil =>
        cases read
        exact .whole before
    | cons lexeme others =>
        dsimp only [step] at read
        split at read
        · split at read
          · obtain ⟨after, -, next⟩ := of_bind_ok read
            obtain ⟨⟨joined, mid⟩, join, more⟩ := of_bind_ok next
            have after := join_nested admits before (by omega) join
            exact admits.chain least whole (count + 1) joined mid x rest (by omega) after more
          · cases read
            exact .whole before
        · cases read
          exact .whole before

end

theorem reader_admits (allowance : Nat) : Admits (reader source allowance) allowance := by
  induction allowance with
  | zero =>
      constructor
      · intro _ _ _ read
        cases read
      · intro _ _ _ _ _ _ _ _ _ read
        cases read
  | succ allowance ih => exact step_admits ih

theorem formula_nested {ts : List Lexeme} {x : Expr} (read : formula source ts = .ok x) :
    Nested .expression source.limit x := by
  obtain ⟨us, -, read⟩ := of_bind_ok read
  split at read
  · cases read
  · obtain ⟨⟨whole, rest⟩, found, done⟩ := of_bind_ok read
    split at done
    · rename_i last
      cases last
      cases done
      exact expression_nested (reader_admits _) found
    · cases done

end

end Parser

/-- A tree that was parsed with a limit is lower than the product of the limit and its successor, and
no higher than the limit if it leans to the right. However high it is, it compiles without running
out of levels wherever that many are allowed. -/
theorem parse_height {text : String} {limit : Nat} {expr : Expr}
    (read : parse text limit = .ok expr) :
    expr.height < limit * (limit + 1) ∧ (expr.leansRight → expr.height ≤ limit) ∧
      ∀ options scope source n, expr.height ≤ options.depthLimit →
        ofExpr options scope source expr ≠ .error (.tooDeep n) := by
  have nested : Parser.Nested .expression limit expr := Parser.formula_nested read
  have positive : 0 < limit := nested.fits
  have high := nested.height_le
  have product : 0 < limit * (limit + 1) := Nat.mul_pos positive (Nat.succ_pos _)
  refine ⟨?_, nested.height_le_of_leansRight, ?_⟩
  · simp only [Parser.Stage.bound] at high
    omega
  · intro options scope source n low
    exact shallow_ofExpr scope source low n

/-- No formula of two levels has a higher tree than this one. -/
theorem parse_height_raised :
    ∃ expr, parse "abs(x).unit ^ y or z" 2 = .ok expr ∧ 2 * (2 + 1) = expr.height + 1 ∧
      ∀ options scope source n, expr.height ≤ options.depthLimit →
        ofExpr options scope source expr ≠ .error (.tooDeep n) := by
  have levels : (parse "abs(x).unit ^ y or z" 2).toOption.map Expr.height = some 5 := by
    decide +kernel
  obtain ⟨expr, read, high⟩ := of_toOption_map levels
  exact ⟨expr, read, by rw [high], (parse_height read).2.2⟩

/-- The level that the sign takes is given back before the operator after its operand takes one. -/
theorem parse_height_signed :
    ∃ expr e, parse "-x + y" 2 = .ok expr ∧ expr.height = 3 ∧
      ofExpr ⟨2048, true, 2⟩ [.bindings [("x", .boolean true), ("y", .boolean true)]] "-x + y" expr =
        .error e ∧ e.message = "Maximum nesting depth of 2 exceeded" := by
  have levels : (parse "-x + y" 2).toOption.map Expr.height = some 3 := by decide +kernel
  obtain ⟨expr, read, high⟩ := of_toOption_map levels
  have refused : (errorOf? (ofText ⟨2048, true, 2⟩
      [.bindings [("x", .boolean true), ("y", .boolean true)]] "-x + y")).map (·.message) =
      some "Maximum nesting depth of 2 exceeded" := by decide +kernel
  obtain ⟨e, failed, message⟩ := of_errorOf?_map refused
  rw [ofText, read] at failed
  exact ⟨expr, e, read, high, failed, message⟩

end Emend.Formula
