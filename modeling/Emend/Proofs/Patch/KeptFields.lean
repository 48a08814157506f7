import Emend.Patch.Identity
import Emend.Proofs.Except
import Emend.Proofs.Fields

/-!
Fields that stay as they are. Patching a record changes no field but those that the entries name,
so entries without the identity keep the identity.
-/

set_option autoImplicit false

namespace Emend

theorem Descriptor.sameName_of_field? {type fieldType : Descriptor} {key name : String}
    (found : type.field? key = some (name, fieldType)) : Text.sameName name key := by
  unfold field? at found
  split at found
  · cases found
    exact beq_self_eq_true _
  · have named := List.find?_some found
    exact named

theorem Record.getAnyCase?_set {name other : String} (r : Record) (x : Datum)
    (differ : Text.sameName name other = false) :
    (r.set name x).getAnyCase? other = r.getAnyCase? other :=
  Fields.findAnyCase?_put x r.fields differ

namespace Patch

/-- The field that the key names is another one. -/
def Spares (name key : String) : Prop := Text.sameName (fieldKey key).1 name = false

theorem spares_of_identityForm? {field key : String} (other : identityForm? field key = none) :
    Spares field key := by
  unfold identityForm? at other
  split at other
  · cases other
  · rename_i literal
    split at other
    · cases other
    · rename_i indirect
      unfold Spares fieldKey
      split
      · rename_i dollar
        simpa [dollar] using indirect
      · simpa using literal

theorem spares_withoutIdentity {field : String} {entries : Entries} {entry : String × Node}
    (member : entry ∈ entries.withoutIdentity field) : Spares field entry.1 := by
  apply spares_of_identityForm?
  simpa using (List.mem_filter.mp member).2

section
variable {c : Context} {type : Descriptor} {name : String}

theorem patchField_keeps {r next : Record} {key : String} {node : Node}
    {patch : String → Descriptor → Datum → Except PatchError Datum} (spares : Spares name key)
    (success : patchField c type r key node patch = .ok next) :
    next.getAnyCase? name = r.getAnyCase? name := by
  unfold patchField at success
  dsimp only at success
  split at success
  · cases success
  · rename_i declared fieldType found
    have differ : Text.sameName declared name = false := by
      have same := Descriptor.sameName_of_field? found
      unfold Spares at spares
      unfold Text.sameName at same spares ⊢
      rwa [eq_of_beq same]
    split at success
    all_goals
      obtain ⟨x, -, success⟩ := of_bind_ok success
      cases success
      exact Record.getAnyCase?_set r x differ

/-- The induction is on the entries; the fields set before a failure are named as well. -/
theorem patchFields_keeps {r : Record} {entries : Entries}
    (spares : ∀ entry ∈ entries, Spares name entry.1) :
    (patchFields c type r entries).2.getAnyCase? name = r.getAnyCase? name := by
  induction entries generalizing r with
  | nil => rfl
  | cons entry rest ih =>
      obtain ⟨key, node⟩ := entry
      unfold patchFields
      dsimp only
      split
      · rename_i next patched
        rw [ih fun later member => spares later (List.mem_cons_of_mem _ member)]
        exact patchField_keeps (spares _ List.mem_cons_self) patched
      · rfl

theorem patchRecord_keeps {r next : Record} {entries : Entries}
    (spares : ∀ entry ∈ entries, Spares name entry.1)
    (success : patchRecord c type r entries = .ok next) :
    next.getAnyCase? name = r.getAnyCase? name := by
  have kept : (patchFields c type r entries).2.getAnyCase? name = r.getAnyCase? name :=
    patchFields_keeps spares
  unfold patchRecord at success
  split at success
  · rename_i final patched
    cases success
    rwa [patched] at kept
  · cases success

end

end Patch

end Emend
