/-!
Text cut at separators.
-/

set_option autoImplicit false

namespace Emend.Text

/-- The pieces between separators; one more piece than separators. -/
def pieces (isSeparator : Char → Bool) : List Char → List (List Char)
  | [] => [[]]
  | c :: rest =>
    if isSeparator c then [] :: pieces isSeparator rest
    else match pieces isSeparator rest with
      | first :: others => (c :: first) :: others
      | [] => [[c]]

/-- What stands before and after the first `mark`. -/
def cut? (mark : Char) : List Char → Option (List Char × List Char)
  | [] => none
  | c :: rest =>
    if c = mark then some ([], rest)
    else (cut? mark rest).map fun (before, after) => (c :: before, after)

/-- Equality of names up to the case of ASCII letters. -/
def sameName (a b : String) : Bool := a.toLower == b.toLower

end Emend.Text
