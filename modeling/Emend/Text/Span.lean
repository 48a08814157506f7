/-!
Byte ranges of a text. Offsets count the bytes of its UTF-8 form.
-/

set_option autoImplicit false

namespace Emend.Text

/-- The number of UTF-8 bytes of a list of characters. -/
def byteLength : List Char → Nat
  | [] => 0
  | c :: rest => c.utf8Size + byteLength rest

/-- The characters from byte `start` up to byte `stop`, if both are character boundaries inside
the text. -/
def between? (start stop : Nat) : List Char → Option (List Char)
  | [] => if start = 0 ∧ stop = 0 then some [] else none
  | c :: rest =>
    if start = 0 then
      if stop = 0 then some []
      else if c.utf8Size ≤ stop then (between? 0 (stop - c.utf8Size) rest).map (c :: ·)
      else none
    else if c.utf8Size ≤ start ∧ c.utf8Size ≤ stop then
      between? (start - c.utf8Size) (stop - c.utf8Size) rest
    else none

theorem byteLength_of_between? {start stop : Nat} {cs piece : List Char}
    (found : between? start stop cs = some piece) : start + byteLength piece = stop := by
  induction cs generalizing start stop piece with
  | nil =>
      rw [between?, Option.ite_none_right_eq_some] at found
      obtain ⟨⟨rfl, rfl⟩, same⟩ := found
      cases same
      rfl
  | cons c cs ih =>
      rw [between?] at found
      split at found
      · split at found
        · cases found
          simp only [byteLength]
          omega
        · split at found
          · obtain ⟨others, later, rfl⟩ := Option.map_eq_some_iff.mp found
            have rest := ih later
            rw [byteLength]
            omega
          · cases found
      · split at found
        · have rest := ih found
          omega
        · cases found

/-- The bytes from `start` on, without those from `stop` on. -/
structure Span where
  start : Nat
  stop : Nat
  deriving Repr, DecidableEq, Inhabited

namespace Span

def empty (position : Nat) : Span := ⟨position, position⟩

def merge (a b : Span) : Span := ⟨min a.start b.start, max a.stop b.stop⟩

def length (s : Span) : Nat := s.stop - s.start

def isEmpty (s : Span) : Bool := s.start == s.stop

/-- The covered characters, with the span cut to the text's length. A span that splits a
character covers none. -/
def slice (s : Span) (text : String) : String :=
  let stop := min s.stop text.utf8ByteSize
  let start := min s.start stop
  String.ofList ((between? start stop text.toList).getD [])

def toText (s : Span) : String := toString s.start ++ ".." ++ toString s.stop

end Span

end Emend.Text
