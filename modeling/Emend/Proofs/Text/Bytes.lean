import Emend.Text.Identifier
import Emend.Text.Span

/-!
Texts as bytes. A text that is cut between two characters is cut at the byte where the characters
before end, and what the first byte after is tells the first character after apart from those below 128.
-/

set_option autoImplicit false

namespace Emend.Text

theorem byteLength_append (front back : List Char) :
    byteLength (front ++ back) = byteLength front + byteLength back := by
  induction front with
  | nil => exact (Nat.zero_add _).symm
  | cons c front ih => rw [List.cons_append, byteLength, ih, byteLength, Nat.add_assoc]

theorem length_le_byteLength (cs : List Char) : cs.length ≤ byteLength cs := by
  induction cs with
  | nil => exact Nat.le_refl _
  | cons c cs ih =>
      have := c.utf8Size_pos
      rw [List.length_cons, byteLength]
      omega

theorem length_flatMap_utf8EncodeChar (cs : List Char) :
    (cs.flatMap String.utf8EncodeChar).length = byteLength cs := by
  induction cs with
  | nil => rfl
  | cons c cs ih => rw [List.flatMap_cons, List.length_append, ih, String.length_utf8EncodeChar, byteLength]

theorem toByteArray_eq (text : String) :
    text.toByteArray = (text.toList.flatMap String.utf8EncodeChar).toByteArray :=
  String.utf8Encode_toList.symm

theorem utf8ByteSize_eq_byteLength (text : String) : text.utf8ByteSize = byteLength text.toList := by
  rw [← String.size_toByteArray, toByteArray_eq, List.size_toByteArray, length_flatMap_utf8EncodeChar]

theorem getElem?_bytes {text : String} {pos : Nat} (inside : pos < text.utf8ByteSize) :
    (text.toList.flatMap String.utf8EncodeChar)[pos]? = some (text.getUTF8Byte ⟨pos⟩ inside) := by
  have whole := toByteArray_eq text
  have first : pos < text.toByteArray.size := inside
  have second : pos < (text.toList.flatMap String.utf8EncodeChar).toByteArray.size := whole ▸ inside
  have byte : text.toByteArray[pos] =
      (text.toList.flatMap String.utf8EncodeChar).toByteArray[pos] := by
    congr 1
  rw [List.getElem_toByteArray] at byte
  exact (List.getElem?_eq_getElem _).trans (congrArg some byte.symm)

theorem between?_skip (front rest : List Char) (start stop : Nat) :
    between? (byteLength front + start) (byteLength front + stop) (front ++ rest) =
      between? start stop rest := by
  induction front with
  | nil => rw [byteLength, Nat.zero_add, Nat.zero_add, List.nil_append]
  | cons c front ih =>
      have size := c.utf8Size_pos
      rw [List.cons_append, byteLength, between?, if_neg (by omega), if_pos (by omega), ← ih]
      congr 1 <;> omega

theorem between?_take (piece rest : List Char) (stop : Nat) :
    between? 0 (byteLength piece + stop) (piece ++ rest) = (between? 0 stop rest).map (piece ++ ·) := by
  induction piece with
  | nil =>
      rw [byteLength, Nat.zero_add, List.nil_append]
      exact Option.map_id'.symm
  | cons c piece ih =>
      have size := c.utf8Size_pos
      rw [List.cons_append, byteLength, between?, if_pos rfl, if_neg (by omega), if_pos (by omega),
        Nat.add_assoc, Nat.add_sub_cancel_left, ih, Option.map_map]
      rfl

theorem between?_self (rest : List Char) : between? 0 0 rest = some [] := by
  cases rest <;> rfl

theorem between?_cut (front piece rest : List Char) :
    between? (byteLength front) (byteLength (front ++ piece)) (front ++ (piece ++ rest)) = some piece := by
  have skipped := between?_skip front (piece ++ rest) 0 (byteLength piece)
  have taken := between?_take piece rest 0
  rw [Nat.add_zero] at skipped taken
  rw [byteLength_append, skipped, taken, between?_self, Option.map_some, List.append_nil]

/-- The first byte of a character, as the character with its number. -/
def leading (c : Char) : Char := .ofUInt8 ((String.utf8EncodeChar c).head String.utf8EncodeChar_ne_nil)

theorem toNat_leading (c : Char) :
    (leading c).toNat = ((String.utf8EncodeChar c).head String.utf8EncodeChar_ne_nil).toNat :=
  UInt8.toNat_toUInt32 _

theorem leading_eq {c : Char} (narrow : c.toNat < 128) : leading c = c := by
  have single : String.utf8EncodeChar c = [.ofNat c.toNat] :=
    if_pos (show c.toNat ≤ 127 by omega)
  have same : (leading c).toNat = c.toNat := by
    simp only [toNat_leading, single, List.head_cons, UInt8.toNat_ofNat']
    omega
  rw [← Char.ofNat_toNat (leading c), same, Char.ofNat_toNat]

theorem le_leading {c : Char} (wide : 128 ≤ c.toNat) : 128 ≤ (leading c).toNat := by
  have several : ∃ n others, String.utf8EncodeChar c = .ofNat n :: others ∧ 128 ≤ n ∧ n < 256 := by
    unfold String.utf8EncodeChar
    dsimp only
    rw [if_neg (show ¬ c.val.toNat ≤ 127 from Nat.not_le_of_lt wide)]
    split
    · exact ⟨_, _, rfl, by omega, by omega⟩
    · split <;> exact ⟨_, _, rfl, by omega, by omega⟩
  obtain ⟨n, others, encoded, least, most⟩ := several
  simp only [toNat_leading, encoded, List.head_cons, UInt8.toNat_ofNat']
  omega

/-- Whether a character is one of those below 128 can be told from its first byte. -/
theorem leading_decides {p : Char → Bool} (narrow : ∀ c, p c → c.toNat < 128) (c : Char) :
    p (leading c) = p c := by
  rcases Nat.lt_or_ge c.toNat 128 with low | high
  · rw [leading_eq low]
  · have outside {d : Char} (wide : 128 ≤ d.toNat) : p d = false :=
      Bool.eq_false_iff.mpr fun holds => absurd (narrow d holds) (Nat.not_lt.mpr wide)
    rw [outside high, outside (le_leading high)]

theorem byteLength_narrow {cs : List Char} (narrow : ∀ c ∈ cs, c.toNat < 128) :
    byteLength cs = cs.length := by
  induction cs with
  | nil => rfl
  | cons c cs ih =>
      obtain ⟨first, later⟩ := List.forall_mem_cons.mp narrow
      have single : c.utf8Size = 1 :=
        Char.utf8Size_eq_one_iff.mpr (UInt32.le_iff_toNat_le.mpr (Nat.le_of_lt_succ first))
      rw [byteLength, single, ih later, List.length_cons, Nat.add_comm]

theorem byteLength_append_narrow (front : List Char) {cs : List Char} (narrow : ∀ c ∈ cs, c.toNat < 128) :
    byteLength (front ++ cs) = byteLength front + cs.length := by
  rw [byteLength_append, byteLength_narrow narrow]

theorem byteLength_push {c : Char} (narrow : c.toNat < 128) (front : List Char) :
    byteLength (front ++ [c]) = byteLength front + 1 :=
  byteLength_append_narrow front fun _ member => List.mem_singleton.mp member ▸ narrow

theorem narrow_of_isDigit {c : Char} (digit : c.isDigit = true) : c.toNat < 128 := by
  have code := isDigit_iff.mp digit
  omega

end Emend.Text
