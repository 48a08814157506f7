import Emend.Formula.Lexer
import Emend.Proofs.Except

/-!
Formula text scanned in place. The scanner moves through the bytes of the text: it looks at single
bytes, at and after its position, and takes pieces of the text between two positions. A piece can only
be taken where both positions fall between characters.
-/

set_option autoImplicit false

namespace Emend.Formula
open Emend.Text (byteLength between? isBlank isIdentifierStart isIdentifierPart)

inductive Stop where
  | failure (e : ParseError)
  /-- A piece was to be taken that does not begin and end between characters of the text. -/
  | torn (start stop : Nat)

namespace Scanner

section
variable (text : String)

/-- The byte at a position, as the character with its number. Bytes from 128 on are only a part of a
character, and no other one is compared with them. -/
def peek? (pos : Nat) : Option Char :=
  if inside : pos < text.utf8ByteSize then some (Char.ofUInt8 (text.getUTF8Byte ⟨pos⟩ inside)) else none

def slice (start stop : Nat) : Except Stop (List Char) :=
  match between? start stop text.toList with
  | some cs => .ok cs
  | none => .error (.torn start stop)

def tail (pos : Nat) : Except Stop (List Char) := slice text pos text.utf8ByteSize

variable {text} in
theorem lt_of_peek? {pos : Nat} {c : Char} (here : peek? text pos = some c) :
    pos < text.utf8ByteSize := by
  unfold peek? at here
  split at here
  · assumption
  · cases here

variable {text} in
theorem lt_of_tail {pos : Nat} {c : Char} {cs : List Char} (here : tail text pos = .ok (c :: cs)) :
    pos < text.utf8ByteSize := by
  unfold tail slice at here
  split at here
  · rename_i piece
    cases here
    have whole := Text.byteLength_of_between? piece
    have size := c.utf8Size_pos
    rw [byteLength] at whole
    omega
  · cases here

def skipBlanks (pos : Nat) : Except Stop Nat :=
  match _ : tail text pos with
  | .ok (c :: _) => if isBlank c then skipBlanks (pos + c.utf8Size) else .ok pos
  | .ok [] => .ok pos
  | .error e => .error e
termination_by text.utf8ByteSize - pos
decreasing_by
  have inside := lt_of_tail ‹tail text pos = _›
  have size := c.utf8Size_pos
  omega

def skipDigits (pos : Nat) : Nat :=
  match here : peek? text pos with
  | some c => if c.isDigit then skipDigits (pos + 1) else pos
  | none => pos
termination_by text.utf8ByteSize - pos
decreasing_by
  have inside := lt_of_peek? here
  omega

def skipFraction (pos : Nat) : Nat :=
  if (peek? text pos).any (· == '.') && (peek? text (pos + 1)).any Char.isDigit then
    skipDigits text (pos + 1)
  else pos

def skipExponent (pos : Nat) : Nat :=
  if (peek? text pos).any fun c => c == 'e' || c == 'E' then
    let ahead := if (peek? text (pos + 1)).any fun c => c == '+' || c == '-' then 2 else 1
    if (peek? text (pos + ahead)).any Char.isDigit then skipDigits text (pos + ahead) else pos
  else pos

def number (start : Nat) : Except Stop (Token × Nat) := do
  let stop := skipExponent text (skipFraction text (skipDigits text start))
  let spelling ← slice text start stop
  match Number.readUnsigned? spelling with
  | some x => .ok (.number x, stop)
  | none => .error (.failure (.invalidNumber (String.ofList spelling) ⟨start, stop⟩))

def hexadecimal (opened pos count : Nat) : Except Stop (Nat × Nat) :=
  let stop := pos + count
  if stop ≤ text.utf8ByteSize ∧
      (List.range count).all fun k => (peek? text (pos + k)).any Lexer.isHexDigit then do
    let digits ← slice text pos stop
    .ok (digits.foldl (fun n d => 16 * n + Lexer.hexDigit d) 0, stop)
  else
    let stop := min stop text.utf8ByteSize
    let sequence := match between? opened stop text.toList with
      | some shown => String.ofList shown
      | none => "\\"
    .error (.failure (.invalidEscape sequence ⟨opened, stop⟩))

def octal (pos code : Nat) : (most : Nat) → Nat × Nat
  | 0 => (code, pos)
  | most + 1 =>
    match peek? text pos with
    | some c => if Lexer.isOctalDigit c then octal (pos + 1) (8 * code + (c.toNat - 48)) most else (code, pos)
    | none => (code, pos)

/-- The character with the number that the escape between two positions spells. -/
def character (opened stop code : Nat) : Except Stop (Char × Nat) :=
  if code.isValidChar then .ok (Char.ofNat code, stop)
  else do
    let sequence ← slice text opened stop
    .error (.failure (.invalidEscape (String.ofList sequence) ⟨opened, stop⟩))

/-- Reads the escape whose backslash is at `opened` and just before `pos`. -/
def escape (opened pos : Nat) : Except Stop (Char × Nat) := do
  match ← tail text pos with
  | [] => .error (.failure (.unclosedText ⟨opened, pos⟩))
  | c :: _ =>
    let pos := pos + c.utf8Size
    match Lexer.simpleEscape? c, Lexer.hexEscape? c with
    | some decoded, _ => .ok (decoded, pos)
    | none, some count =>
      let (code, stop) ← hexadecimal text opened pos count
      character text opened stop code
    | none, none =>
      if Lexer.isOctalDigit c then
        let (code, stop) := octal text pos (c.toNat - 48) 2
        character text opened stop code
      else .error (.failure (.invalidEscape (String.ofList ['\\', c]) ⟨opened, pos⟩))

section
variable {text} {opened pos next : Nat}

theorem of_hexadecimal_ok {count code : Nat}
    (read : hexadecimal text opened pos count = .ok (code, next)) : next = pos + count := by
  unfold hexadecimal at read
  dsimp only at read
  split at read
  · obtain ⟨digits, -, read⟩ := of_bind_ok read
    cases read
    rfl
  · cases read

theorem le_octal (text : String) (pos code most : Nat) : pos ≤ (octal text pos code most).2 := by
  induction most generalizing pos code with
  | zero => exact Nat.le_refl _
  | succ most ih =>
      rw [octal]
      split
      · split
        · exact Nat.le_trans (Nat.le_succ pos) (ih _ _)
        · exact Nat.le_refl _
      · exact Nat.le_refl _

theorem of_character_ok {stop code : Nat} {c : Char}
    (made : character text opened stop code = .ok (c, next)) : next = stop := by
  unfold character at made
  split at made
  · cases made
    rfl
  · obtain ⟨sequence, -, made⟩ := of_bind_ok made
    cases made

theorem lt_of_escape {c : Char} (read : escape text opened pos = .ok (c, next)) : pos < next := by
  obtain ⟨following, -, read⟩ := of_bind_ok read
  cases following with
  | nil => cases read
  | cons d _ =>
      have size := d.utf8Size_pos
      dsimp only at read
      split at read
      · cases read
        omega
      · obtain ⟨⟨code, stop⟩, digits, read⟩ := of_bind_ok read
        have last := of_character_ok read
        have after := of_hexadecimal_ok digits
        omega
      · split at read
        · have last := of_character_ok read
          have least := le_octal text (pos + d.utf8Size) (d.toNat - 48) 2
          omega
        · cases read

end

def quoted (quote : Char) (opened pos : Nat) : Except Stop (List Char × Nat) :=
  match _ : tail text pos with
  | .ok (c :: _) =>
    if c = quote then .ok ([], pos + 1)
    else if c = '\\' then
      match _ : escape text pos (pos + 1) with
      | .ok (decoded, next) => do
        let (cs, stop) ← quoted quote opened next
        .ok (decoded :: cs, stop)
      | .error e => .error e
    else do
      let (cs, stop) ← quoted quote opened (pos + c.utf8Size)
      .ok (c :: cs, stop)
  | .ok [] => .error (.failure (.unclosedText ⟨opened, pos⟩))
  | .error e => .error e
termination_by text.utf8ByteSize - pos
decreasing_by
  · have inside := lt_of_tail ‹tail text pos = _›
    have later := lt_of_escape ‹escape text pos (pos + 1) = _›
    omega
  · have inside := lt_of_tail ‹tail text pos = _›
    have size := c.utf8Size_pos
    omega

def name (start : Nat) : Except Stop (Token × Nat) := do
  let following ← tail text start
  let stop := start + byteLength (following.takeWhile isIdentifierPart)
  let spelling ← slice text start stop
  .ok (Lexer.word (String.ofList spelling), stop)

/-- The token that begins with the byte `first` at `start`, and where it ends. -/
def token (start : Nat) (first : Char) : Except Stop (Token × Nat) :=
  match Lexer.symbol? first (peek? text (start + 1)).toList with
  | some (symbol, more) => .ok (.symbol symbol, start + 1 + more)
  | none =>
    if first.isDigit then number text start
    else if first = '"' ∨ first = '\x27' then do
      let (cs, stop) ← quoted text first start (start + 1)
      .ok (.text (String.ofList cs), stop)
    else do
      let following ← tail text start
      let c := following.head?.getD '\x00'
      if isIdentifierStart c then name text start
      else .error (.failure (.unexpectedToken (String.singleton c) ⟨start, start + c.utf8Size⟩))

/-- The next lexeme, if there is one, and where it ends. -/
def next (pos : Nat) : Except Stop (Option Lexeme × Nat) := do
  let start ← skipBlanks text pos
  match peek? text start with
  | none => .ok (none, start)
  | some first =>
    let (token, stop) ← token text start first
    .ok (some ⟨token, start, stop⟩, stop)

section
variable {text} {pos stop : Nat}

theorem le_skipBlanks (skipped : skipBlanks text pos = .ok stop) : pos ≤ stop := by
  fun_induction skipBlanks text pos with
  | case1 pos c _ _ _ ih =>
      have later := ih skipped
      omega
  | case2 | case3 =>
      cases skipped
      exact Nat.le_refl _
  | case4 => cases skipped

theorem le_skipDigits (text : String) (pos : Nat) : pos ≤ skipDigits text pos := by
  fun_induction skipDigits text pos with
  | case1 pos c _ _ ih => omega
  | case2 | case3 => exact Nat.le_refl _

theorem le_skipFraction (text : String) (pos : Nat) : pos ≤ skipFraction text pos := by
  unfold skipFraction
  split
  · exact Nat.le_trans (Nat.le_succ pos) (le_skipDigits ..)
  · exact Nat.le_refl _

theorem le_skipExponent (text : String) (pos : Nat) : pos ≤ skipExponent text pos := by
  unfold skipExponent
  split
  · extract_lets ahead
    split
    · exact Nat.le_trans (Nat.le_add_right pos ahead) (le_skipDigits ..)
    · exact Nat.le_refl _
  · exact Nat.le_refl _

theorem lt_of_number {t : Token} {first : Char} (here : peek? text pos = some first)
    (digit : first.isDigit) (read : number text pos = .ok (t, stop)) : pos < stop := by
  obtain ⟨spelling, -, read⟩ := of_bind_ok read
  have begun : pos < skipDigits text pos := by
    rw [skipDigits, here]
    dsimp only
    rw [if_pos digit]
    exact le_skipDigits ..
  have part := le_skipFraction text (skipDigits text pos)
  have exponent := le_skipExponent text (skipFraction text (skipDigits text pos))
  split at read <;> cases read
  omega

theorem lt_of_quoted {quote : Char} {opened : Nat} {cs : List Char}
    (read : quoted text quote opened pos = .ok (cs, stop)) : pos < stop := by
  fun_induction quoted text quote opened pos generalizing cs with
  | case1 =>
      cases read
      exact Nat.lt_succ_self _
  | case2 pos _ _ _ escaped _ _ ih =>
      obtain ⟨⟨others, last⟩, later, read⟩ := of_bind_ok read
      cases read
      have := ih later
      have := lt_of_escape escaped
      omega
  | case3 | case5 | case6 => cases read
  | case4 pos c _ _ _ _ ih =>
      obtain ⟨⟨others, last⟩, later, read⟩ := of_bind_ok read
      cases read
      have := ih later
      omega

theorem lt_of_name {t : Token} {c : Char} {cs : List Char} (here : tail text pos = .ok (c :: cs))
    (begins : isIdentifierStart c) (read : name text pos = .ok (t, stop)) : pos < stop := by
  unfold name at read
  rw [here, ok_bind] at read
  obtain ⟨spelling, -, read⟩ := of_bind_ok read
  cases read
  -- Here a name would never end if it could begin with a character that no name goes on with.
  rw [List.takeWhile_cons_of_pos (Text.isIdentifierPart_of_start begins), byteLength]
  have size := c.utf8Size_pos
  omega

theorem lt_of_token {t : Token} {first : Char} (here : peek? text pos = some first)
    (read : token text pos first = .ok (t, stop)) : pos < stop := by
  unfold token at read
  split at read
  · cases read
    omega
  · split at read
    · exact lt_of_number here ‹_› read
    · split at read
      · obtain ⟨⟨cs, last⟩, later, read⟩ := of_bind_ok read
        cases read
        have := lt_of_quoted later
        omega
      · obtain ⟨following, there, read⟩ := of_bind_ok read
        dsimp only at read
        split at read
        · rename_i begins
          cases following with
          | nil => cases begins
          | cons c cs => exact lt_of_name there begins read
        · cases read

theorem lt_of_next {lexeme : Lexeme} (read : next text pos = .ok (some lexeme, stop)) :
    pos < text.utf8ByteSize ∧ pos < stop := by
  obtain ⟨start, skipped, read⟩ := of_bind_ok read
  have before := le_skipBlanks skipped
  split at read
  · cases read
  · rename_i first here
    obtain ⟨⟨t, last⟩, made, read⟩ := of_bind_ok read
    cases read
    have inside := lt_of_peek? here
    have after := lt_of_token here made
    omega

end

/-- The lexemes from a position on, and where the text ends. -/
def lexemes (pos : Nat) : Except Stop (List Lexeme × Nat) :=
  match _ : next text pos with
  | .ok (some lexeme, stop) => do
    let (others, last) ← lexemes stop
    .ok (lexeme :: others, last)
  | .ok (none, stop) => .ok ([], stop)
  | .error e => .error e
termination_by text.utf8ByteSize - pos
decreasing_by
  have progress := lt_of_next ‹next text pos = _›
  omega

end

end Scanner

/-- All lexemes of a text, and the position at which the scanner ends. -/
def scan (text : String) : Except Stop (List Lexeme × Nat) := Scanner.lexemes text 0

end Emend.Formula
