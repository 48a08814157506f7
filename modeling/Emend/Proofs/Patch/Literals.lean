import Emend.Patch.Identity
import Emend.Proofs.Except
import Emend.Proofs.Fields
import Emend.Proofs.Patch.Conforms

/-!
Nodes without formulas. What such a node makes of a field or an element does not depend on the record
around it, and where it is text it does not even depend on what is there.
-/

set_option autoImplicit false

namespace Emend.Patch

/-- Whether text for a field of the type is not evaluated: it is a literal, or refused anyway. -/
def readsText : Descriptor → String → Bool
  | .scalar kind, text =>
    match kind with
    | .bool | .integer .. | .single | .double => (kind.read text).isOk
    | .text | .char | .decimal | .dateTime => true
  | .enumeration _ variants, text => (variant? variants text).isSome
  | .record .., _ | .list .., _ => true

/-- A place in some record. -/
abbrev inRecord : Place := .field default

/-- The entries that patch a record: an element may be wrapped in a mapping with the name of its
type. -/
def unwrapped (place : Place) (typeName : String) (entries : Entries) : Entries :=
  match place, entries with
  | .element, [(key, .mapping inner _)] => if Text.sameName key typeName then inner else entries
  | _, _ => entries

section
variable (c : Context)

mutual

/-- Whether no formula is evaluated when a field or an element of the type is patched by the node. A
node of the wrong form and a field that is not declared are refused without that. -/
def isLiteral (place : Place) (type : Descriptor) : Node → Bool
  | .scalar text _ => deletes c place type text || readsText type text
  | .sequence nodes _ =>
    match type with
    | .list element _ => literalItems element nodes
    | _ => true
  | .mapping entries _ =>
    match type with
    | .list element _ => literalKeys element entries
    | .record typeName fields identity byValue =>
      let type := Descriptor.record typeName fields identity byValue
      let plain (_ : Unit) := literalFields type entries
      match place, entries with
      | .element, [(key, .mapping inner _)] =>
        if Text.sameName key typeName then literalFields type inner else plain ()
      | _, _ => plain ()
    | _ => true

def literalItems (element : Descriptor) : List Node → Bool
  | [] => true
  | node :: rest => isLiteral .element element node && literalItems element rest

/-- Elements are patched at an index. -/
def literalKeys (element : Descriptor) : List (String × Node) → Bool
  | [] => true
  | (key, node) :: rest =>
    (match ItemKey.parse? key with
      | some (.index _) => isLiteral .element element node
      | some .addition | some (.choice _) => false
      | none => true) && literalKeys element rest

def literalFields (type : Descriptor) : List (String × Node) → Bool
  | [] => true
  | (key, node) :: rest =>
    (match type.field? (fieldKey key).1 with
      | some (_, fieldType) => !(fieldKey key).2 && isLiteral inRecord fieldType node
      | none => true) && literalFields type rest

end

end

variable {c : Context}

theorem isLiteral_record {place : Place} {typeName : String} {fields : List (String × Descriptor)}
    {identity : Option String} {byValue : Bool} (entries : Entries) (position : Position) :
    isLiteral c place (.record typeName fields identity byValue) (.mapping entries position) =
      literalFields c (.record typeName fields identity byValue)
        (unwrapped place typeName entries) := by
  unfold unwrapped
  split
  · unfold isLiteral
    dsimp only
    split <;> rfl
  · rename_i whole
    unfold isLiteral
    dsimp only
    split
    · exact absurd rfl (whole _ _ _ rfl)
    · rfl

theorem patchDatum_record {place : Place} {name typeName : String}
    {fields : List (String × Descriptor)} {identity : Option String} {byValue : Bool}
    (current : Datum) (entries : Entries) (position : Position) :
    patchDatum c place name (.record typeName fields identity byValue) current
        (.mapping entries position) =
      wholeRecord (patchFields c (.record typeName fields identity byValue)
        (recordToPatch (.record typeName fields identity byValue) current)
        (unwrapped place typeName entries)) := by
  unfold unwrapped
  split
  · unfold patchDatum
    dsimp only
    split <;> rfl
  · rename_i whole
    unfold patchDatum
    dsimp only
    split
    · exact absurd rfl (whole _ _ _ rfl)
    · rfl

theorem patchDatum_scalar {place other : Place} {type : Descriptor} {text : String}
    {position : Position} (literal : isLiteral c place type (.scalar text position))
    (alike : deletes c other type text = deletes c place type text) (name : String) (d e : Datum) :
    patchDatum c place name type d (.scalar text position) =
      patchDatum c other name type e (.scalar text position) := by
  unfold isLiteral at literal
  unfold patchDatum
  rw [alike]
  cases deleted : deletes c place type text with
  | true => rfl
  | false =>
      rw [deleted, Bool.false_or] at literal
      cases type with
      | scalar kind =>
          cases kind with
          | bool | integer | single | double =>
              obtain ⟨read, made⟩ := of_isOk literal
              simp only [scalarOfText, made]
          | text | char | decimal | dateTime => rfl
      | enumeration typeName variants =>
          obtain ⟨variant, named⟩ := Option.isSome_iff_exists.mp literal
          simp only [variantOfText, named]
      | record | list => rfl

/-- Whether the node is literal text, or no text at all. Formulas inside of lists and records do not see
the record around them. -/
def isLiteralText (c : Context) (type : Descriptor) : Node → Bool
  | .scalar text position => isLiteral c inRecord type (.scalar text position)
  | _ => true

/-- What such a node gives to a field depends on no other field. -/
theorem patchDatum_inRecord_of_text {type : Descriptor} {node : Node}
    (literal : isLiteralText c type node) (owner : Record) (name : String) (d : Datum) :
    patchDatum c (.field owner) name type d node = patchDatum c inRecord name type d node := by
  cases node with
  | scalar text position =>
      have alike : deletes c (.field owner) type text = deletes c inRecord type text := by
        cases type <;> rfl
      exact (patchDatum_scalar literal alike name d d).symm
  | sequence nodes position =>
      unfold patchDatum
      rfl
  | mapping entries position =>
      cases type with
      | record => rw [patchDatum_record, patchDatum_record]; rfl
      | scalar | enumeration | list =>
          unfold patchDatum
          rfl

theorem isLiteralText_of_isLiteral {type : Descriptor} {node : Node}
    (literal : isLiteral c inRecord type node) : isLiteralText c type node := by
  cases node with
  | scalar text position => exact literal
  | sequence | mapping => rfl

theorem patchDatum_inRecord {type : Descriptor} {node : Node}
    (literal : isLiteral c inRecord type node) (owner : Record) (name : String) (d : Datum) :
    patchDatum c (.field owner) name type d node = patchDatum c inRecord name type d node :=
  patchDatum_inRecord_of_text (isLiteralText_of_isLiteral literal) owner name d

/-- Patches a datum by several nodes. -/
def patchAll (c : Context) (place : Place) (name : String) (type : Descriptor) (d : Datum)
    (nodes : List Node) : Except PatchError Datum :=
  nodes.foldlM (patchDatum c place name type) d

/-- The node gives the same whatever was there. -/
def IsConstant (c : Context) (place : Place) (type : Descriptor) (node : Node) : Prop :=
  ∀ (name : String) (d e : Datum),
    patchDatum c place name type d node = patchDatum c place name type e node

section
variable {place : Place} {name : String} {type : Descriptor}

theorem isConstant_scalar {text : String} {position : Position}
    (literal : isLiteral c place type (.scalar text position)) :
    IsConstant c place type (.scalar text position) :=
  fun name d e => patchDatum_scalar literal rfl name d e

theorem patchAll_cons (d : Datum) (node : Node) (rest : List Node) :
    patchAll c place name type d (node :: rest) =
      patchDatum c place name type d node >>= (patchAll c place name type · rest) :=
  List.foldlM_cons

theorem of_patchAll_ok {nodes : List Node} {d next : Datum} (some : nodes ≠ [])
    (success : patchAll c place name type d nodes = .ok next) :
    ∃ e, ∃ node ∈ nodes, patchDatum c place name type e node = .ok next := by
  induction nodes generalizing d with
  | nil => cases some rfl
  | cons node rest ih =>
      rw [patchAll_cons] at success
      obtain ⟨e, first, success⟩ := of_bind_ok success
      cases rest with
      | nil =>
          cases success
          exact ⟨d, node, List.mem_cons_self, first⟩
      | cons =>
          obtain ⟨e, last, member, made⟩ := ih (List.cons_ne_nil _ _) success
          exact ⟨e, last, List.mem_cons_of_mem _ member, made⟩

/-- What a constant node gives is all that later nodes see. -/
theorem eq_of_isConstant {nodes : List Node} {node : Node} {d e next other : Datum}
    (member : node ∈ nodes) (constant : IsConstant c place type node)
    (success : patchAll c place name type d nodes = .ok next)
    (also : patchAll c place name type e nodes = .ok other) : other = next := by
  induction nodes generalizing d e with
  | nil => cases member
  | cons first rest ih =>
      rw [patchAll_cons] at success also
      obtain ⟨x, here, further⟩ := of_bind_ok success
      obtain ⟨y, there, also⟩ := of_bind_ok also
      rcases List.mem_cons.mp member with rfl | later
      · rw [constant name e d, here] at there
        cases there
        exact Except.ok.inj (also.symm.trans further)
      · exact ih later further also

end

end Emend.Patch
