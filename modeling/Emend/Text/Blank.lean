/-!
Blank characters, the Unicode property White_Space, and the trimming of text by it.
-/

set_option autoImplicit false

namespace Emend.Text

def isBlank (c : Char) : Bool :=
  let code := c.toNat
  (9 ≤ code && code ≤ 13) || code == 0x20 || code == 0x85 || code == 0xA0 || code == 0x1680 ||
    (0x2000 ≤ code && code ≤ 0x200A) || code == 0x2028 || code == 0x2029 || code == 0x202F ||
    code == 0x205F || code == 0x3000

def trimStart (cs : List Char) : List Char := cs.dropWhile isBlank

def trimEnd (cs : List Char) : List Char := (cs.reverse.dropWhile isBlank).reverse

/-- The text without the blanks at either end. -/
def trim (s : String) : String := String.ofList (trimEnd (trimStart s.toList))

theorem dropWhile_isBlank {cs : List Char} (solid : ∀ c ∈ cs, isBlank c = false) :
    cs.dropWhile isBlank = cs := by
  cases cs with
  | nil => rfl
  | cons c rest => exact List.dropWhile_cons_of_neg (by simp [solid c List.mem_cons_self])

theorem trim_of_solid {s : String} (solid : ∀ c ∈ s.toList, isBlank c = false) : trim s = s := by
  unfold trim trimEnd trimStart
  rw [dropWhile_isBlank solid, dropWhile_isBlank fun c member => solid c (List.mem_reverse.mp member),
    List.reverse_reverse, String.ofList_toList]

end Emend.Text
