import Emend.Patch.Error

/-!
Patch documents: for each type the instructions to carry out, in their order.
-/

set_option autoImplicit false

namespace Emend.Patch

inductive Verb where
  /-- Sets and removes shared variables. -/
  | state
  | add
  /-- Names entries for later additions. -/
  | template
  | update
  /-- Updates every record for which a formula is true. -/
  | updateAll
  | remove
  /-- Removes every record for which a formula is true. -/
  | removeAll
  /-- Ends the document unless its formulas are true. -/
  | test
  deriving Repr, DecidableEq

namespace Verb

def name : Verb → String
  | state => "state"
  | add => "add"
  | template => "template"
  | update => "update"
  | updateAll => "update-all"
  | remove => "remove"
  | removeAll => "remove-all"
  | test => "test"

def all : List Verb := [state, add, template, update, updateAll, remove, removeAll, test]

/-- What tells a verb: its letters in lower case, without hyphens and underscores. -/
def key (s : String) : List Char :=
  (s.toList.filter fun c => c != '-' && c != '_').map Char.toLower

def parse? (s : String) : Option Verb := all.find? fun verb => key verb.name == key s

end Verb

structure Instruction where
  verb : Verb
  payload : Node
  position : Position

namespace Instruction

def ofPayload (verb : Verb) (payload : Node) : Instruction := ⟨verb, payload, payload.position⟩

/-- An instruction from a mapping with the verb as its only key. -/
def ofNode : Node → Except PatchError Instruction
  | .mapping [(name, payload)] position =>
    match Verb.parse? name with
    | some verb => .ok ⟨verb, payload, position.or payload.position⟩
    | none => .error (.structural ("unknown instruction " ++ quoted name) position)
  | .mapping entries position =>
    .error (.structural ("instruction mapping must have exactly one key, found " ++
      toString entries.length) position)
  | node =>
    .error (.structural ("expected an instruction mapping, found a " ++ node.describe)
      node.position)

end Instruction

/-- The instructions for one type; what could not be read is kept as its error. -/
structure Section where
  typeName : String
  position : Position
  entries : List (Except PatchError Instruction)

namespace Section

/-- One instruction, or a sequence of them. -/
def ofNode (typeName : String) (body : Node) : Section :=
  let entries := match body with
    | .sequence items _ => items.map Instruction.ofNode
    | .mapping .. => [Instruction.ofNode body]
    | .scalar _ position =>
      [.error (.structural ("instructions for " ++ quoted typeName ++ " must be a sequence") position)]
  ⟨typeName, body.position, entries⟩

def instructions (s : Section) : List Instruction := s.entries.filterMap Except.toOption

def malformed (s : Section) : List PatchError :=
  s.entries.filterMap fun
    | .ok _ => none
    | .error e => some e

end Section

/-- The sections of a mapping from types to their instructions. -/
def sectionsOf : Node → Except PatchError (List Section)
  | .mapping entries _ => .ok (entries.map fun (name, body) => .ofNode name body)
  | node =>
    .error (.structural ("expected a type-keyed mapping, found a " ++ node.describe)
      node.position)

/-- The sections of a document: one mapping, or a sequence of mappings. -/
def sections : Node → Except PatchError (List Section)
  | .sequence items _ => (items.mapM sectionsOf).map List.flatten
  | .mapping entries position => sectionsOf (.mapping entries position)
  | .scalar _ position =>
    .error (.structural "patch document must be a sequence or mapping" position)

end Emend.Patch
