import Emend.Proofs.Formula.Escapes

/-!
Formulas that are a quoted text and nothing else. Such a formula has the text for its value, and every
text can be quoted.
-/

set_option autoImplicit false

namespace Emend.Formula
open Emend.Text (Span)

/-- The only token of the formula is this text, however it is quoted and escaped. -/
def Quotes (formula t : String) : Prop := ∃ span, tokenize formula = .ok [⟨.text t, span⟩]

namespace Parser

theorem formula_text {source : Source} (whole : source.failure = none) (allowed : 1 ≤ source.limit)
    (t : String) (span : Span) : formula source [⟨.text t, span⟩] = .ok (.literal (.text t)) := by
  obtain ⟨limit, levels⟩ := Nat.exists_eq_add_of_le' allowed
  have operand : reader source (limit + 1) .operand [⟨.text t, span⟩] =
      .ok (.literal (.text t), []) := by
    change power source limit _ _ = _
    unfold power primary
    dsimp only
    rw [moveTo_whole whole, ok_bind, ok_bind]
    rfl
  exact formula_of_operand whole levels operand

end Parser

/-- A formula that quotes a text has this text for its value. -/
theorem evaluate_quotes {formula t : String} (quotes : Quotes formula t) {options : Options}
    (allowed : 1 ≤ options.depthLimit) (scope : Scope) :
    (Formula.ofText options scope formula).bind (·.evaluate scope) = .ok (.text t) := by
  obtain ⟨span, tokens⟩ := quotes
  obtain ⟨limit, levels⟩ := Nat.exists_eq_add_of_le' allowed
  have parsed : parse formula options.depthLimit = .ok (.literal (.text t)) := by
    unfold tokenize at tokens
    unfold parse
    generalize Lexed.ofText formula = lexed at tokens
    obtain ⟨lexemes, _ | failure⟩ := lexed
    · cases tokens
      exact Parser.formula_text rfl allowed t span
    · cases tokens
  have compiled : compile options scope options.depthLimit (.literal (.text t)) =
      .ok (.constant (.text t)) := by
    rw [levels, compile, Literal.value]
  rw [Formula.ofText, parsed, Formula.ofParsed, Formula.ofExpr, compiled, ok_bind]
  change Code.eval scope (.constant (.text t)) = _
  rw [Code.eval]

def quotedChar (c : Char) : List Char := if c = '"' ∨ c = '\\' then ['\\', c] else [c]

def quotation (t : String) : String := String.ofList ('"' :: (t.toList.flatMap quotedChar ++ ['"']))

/-- The escape of a quoted character, if it needs one. -/
def quotedSpelling (c : Char) : Spelling := if c = '"' ∨ c = '\\' then .simple c else .itself

theorem fits_quotedSpelling (c : Char) : (quotedSpelling c).Fits '"' c := by
  unfold quotedSpelling
  split
  · rename_i special
    rcases special with rfl | rfl <;> simp [Spelling.Fits, simpleEscapes]
  · rename_i plain
    exact not_or.mp plain

theorem flatMap_quotedChar (cs : List Char) :
    cs.flatMap quotedChar = spelledOut (cs.map fun c => (c, quotedSpelling c)) := by
  rw [spelledOut, List.flatMap_map]
  congr 1
  funext c
  unfold quotedChar quotedSpelling
  split <;> rfl

theorem quotes_quotation (t : String) : Quotes (quotation t) t := by
  have fits : ∀ s ∈ t.toList.map fun c => (c, quotedSpelling c), s.2.Fits '"' s.1 := by
    rw [List.forall_mem_map]
    exact fun c _ => fits_quotedSpelling c
  have characters : (t.toList.map fun c => (c, quotedSpelling c)).map Prod.fst = t.toList := by
    rw [List.map_map]
    exact List.map_id _
  have read := Lexer.token_spelledOut (.inl rfl) fits 0
  rw [characters, String.ofList_toList, ← flatMap_quotedChar] at read
  exact ⟨_, tokenize_token (by decide) read⟩

end Emend.Formula
