import Emend.Store

/-!
Where the names in a formula come from.
-/

set_option autoImplicit false

namespace Emend.Formula

inductive Provider where
  /-- Names bound for one formula, found in any case. -/
  | bindings (entries : List (String × Value))
  /-- Shared variables, found by their exact name. -/
  | shared (store : Store)

def Provider.get? : Provider → String → Option Value
  | bindings entries, name => Fields.findAnyCase? name entries
  | shared store, name => store.get? name

/-- Providers, the most important first. -/
abbrev Scope := List Provider

/-- A name found in a scope: the number of its provider, and the path after it. -/
structure Resolved where
  provider : Nat
  name : String
  members : List String
  deriving Repr, DecidableEq

namespace Scope

def providerOf? (scope : Scope) (name : String) : Option Nat :=
  scope.findIdx? fun provider => (provider.get? name).isSome

/-- The first `length` segments of a path as a name of the scope, or fewer. -/
def resolvePrefix? (scope : Scope) (path : List String) : (length : Nat) → Option Resolved
  | 0 => none
  | length + 1 =>
    let name := ".".intercalate (path.take (length + 1))
    match scope.providerOf? name with
    | some provider => some ⟨provider, name, path.drop (length + 1)⟩
    | none => resolvePrefix? scope path length

/-- The longest dotted beginning of the path that a provider knows. -/
def resolve? (scope : Scope) (path : List String) : Option Resolved :=
  scope.resolvePrefix? path path.length

def get? (scope : Scope) (provider : Nat) (name : String) : Option Value :=
  (scope[provider]?).bind (·.get? name)

end Scope

end Emend.Formula
