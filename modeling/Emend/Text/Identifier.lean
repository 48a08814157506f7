import Emend.Text.Category

/-!
Characters of identifiers: the Unicode properties XID_Start and XID_Continue, derived from the
general category. Every character that may start an identifier may also continue one.
-/

set_option autoImplicit false

namespace Emend.Text

/-- Letters that no identifier may start with. The last ten are compatibility forms that
normalisation would split. -/
private def neverFirst (code : Nat) : Bool :=
  [0x37A, 0xE33, 0xEB3, 0x2E2F, 0xFDFA, 0xFDFB, 0xFE70, 0xFE72, 0xFE74, 0xFE76, 0xFE78, 0xFE7A,
    0xFE7C, 0xFE7E, 0xFF9E, 0xFF9F].contains code || (0xFC5E ≤ code && code ≤ 0xFC63)

/-- Symbols and marks that start an identifier although they are no letters. -/
private def alsoFirst (code : Nat) : Bool := [0x1885, 0x1886, 0x2118, 0x212E].contains code

/-- Characters inside an identifier that are no letter, mark, digit or connector. -/
private def alsoInside (code : Nat) : Bool :=
  [0xB7, 0x387, 0xE33, 0xEB3, 0x19DA, 0x200C, 0x200D, 0x30FB, 0xFF65, 0xFF9E, 0xFF9F].contains code ||
    (0x1369 ≤ code && code ≤ 0x1371)

/-- The property XID_Start. -/
def isXidStart (c : Char) : Bool :=
  if c.toNat < 128 then c.isAlpha
  else
    let kind := category c
    ((kind.isLetter || kind == .Nl) && !neverFirst c.toNat) || alsoFirst c.toNat

/-- The property XID_Continue. -/
def isXidContinue (c : Char) : Bool :=
  isXidStart c ||
    if c.toNat < 128 then c.isDigit || c == '_'
    else
      match category c with
      | .Mn | .Mc | .Nd | .Pc => true
      | _ => alsoInside c.toNat

def isIdentifierStart (c : Char) : Bool := c == '_' || isXidStart c

def isIdentifierPart (c : Char) : Bool := isXidContinue c

theorem isAlpha_iff {c : Char} :
    c.isAlpha = true ↔ (65 ≤ c.toNat ∧ c.toNat ≤ 90) ∨ (97 ≤ c.toNat ∧ c.toNat ≤ 122) := by
  change (decide ('A'.val ≤ c.val ∧ c.val ≤ 'Z'.val) ||
    (decide ('a'.val ≤ c.val) && decide (c.val ≤ 'z'.val))) = true ↔ _
  simp [UInt32.le_iff_toNat_le]

theorem isDigit_iff {c : Char} : c.isDigit = true ↔ 48 ≤ c.toNat ∧ c.toNat ≤ 57 :=
  Char.isDigit_iff_toNat

theorem isIdentifierPart_of_start {c : Char} (start : isIdentifierStart c = true) :
    isIdentifierPart c = true := by
  simp only [isIdentifierStart, Bool.or_eq_true, beq_iff_eq] at start
  rcases start with rfl | start
  · rfl
  · simp [isIdentifierPart, isXidContinue, start]

theorem isIdentifierPart_of_isBlank {c : Char} (blank : isBlank c = true) :
    isIdentifierPart c = false := by
  have code := blank
  simp only [isBlank, Bool.or_eq_true, Bool.and_eq_true, decide_eq_true_eq, beq_iff_eq] at code
  have place : c.toNat ≤ 0x20 ∨ 0x80 ≤ c.toNat := by omega
  rcases place with low | high
  · have ascii : c.toNat < 128 := by omega
    have underscore : c ≠ '_' := by
      rintro rfl
      exact absurd low (by decide)
    have letter : c.isAlpha = false := by
      rw [Bool.eq_false_iff, Ne, isAlpha_iff]
      omega
    have digit : c.isDigit = false := by
      rw [Bool.eq_false_iff, Ne, isDigit_iff]
      omega
    simp [isIdentifierPart, isXidContinue, isXidStart, ascii, underscore, letter, digit]
  · have wide : ¬ c.toNat < 128 := by omega
    have first : alsoFirst c.toNat = false := by
      simp [alsoFirst]
      omega
    have inside : alsoInside c.toNat = false := by
      simp [alsoInside]
      omega
    have kind := category_of_isBlank blank high
    simp only [List.mem_cons, List.not_mem_nil, or_false] at kind
    rcases kind with kind | kind | kind | kind <;>
      simp [isIdentifierPart, isXidContinue, isXidStart, wide, kind, first, inside,
        Category.isLetter]

end Emend.Text
