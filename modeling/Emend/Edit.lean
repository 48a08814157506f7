/-!
Work that is done in place. It may fail, and what it wrote before that stays written.
-/

set_option autoImplicit false

namespace Emend

abbrev Edit (ε σ α : Type) := ExceptT ε (StateM σ) α

namespace Edit
variable {ε σ α : Type}

/-- How the work ends, and what it leaves. -/
def on (work : Edit ε σ α) (s : σ) : Except ε α × σ := (ExceptT.run work).run s

/-- What the work gives and leaves, unless it fails. -/
def outcome (work : Edit ε σ α) (s : σ) : Except ε (α × σ) :=
  match work.on s with
  | (.ok a, left) => .ok (a, left)
  | (.error e, _) => .error e

end Edit

end Emend
