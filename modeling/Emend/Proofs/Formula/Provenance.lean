import Emend.Proofs.Fields
import Emend.Proofs.Formula.Kinds

/-!
Where the records in the value of a formula come from. Formulas make texts, numbers, truth values,
versions and tuples, but no records: each record inside a result was inside a value that the scope
gave.
-/

set_option autoImplicit false

namespace Emend

/-- The record is the datum itself, or part of a field or an item of it. -/
inductive Datum.Inside (r : Record) : Datum → Prop
  | here : Inside r (.ofRecord r)
  | field {typeName name : String} {fields : List (String × Datum)} {x : Datum}
      (member : (name, x) ∈ fields) (inner : Inside r x) : Inside r (.record typeName fields)
  | item {items : List Datum} {x : Datum} (member : x ∈ items) (inner : Inside r x) :
      Inside r (.list items)

namespace Value

inductive Inside (r : Record) : Value → Prop
  | record {whole : Record} (inner : Datum.Inside r (.ofRecord whole)) : Inside r (.record whole)
  | item {items : List Value} {v : Value} (member : v ∈ items) (inner : Inside r v) :
      Inside r (.tuple items)

theorem not_inside_of_isFlat {v : Value} (flat : v.isFlat) (r : Record) : ¬ v.Inside r := by
  intro inside
  cases inside <;> cases flat

theorem inside_ofDatum {r : Record} : (x : Datum) → (ofDatum x).Inside r → x.Inside r
  | .null, inside | .bool _, inside | .int _, inside | .float _, inside | .text _, inside
  | .variant _, inside => absurd inside (not_inside_of_isFlat rfl r)
  | .record _ _, .record inner => inner
  | .list items, inside => by
      rw [ofDatum, ofItems_eq_map] at inside
      cases inside with
      | item member inner =>
          obtain ⟨x, listed, rfl⟩ := List.mem_map.mp member
          exact .item listed (inside_ofDatum x inner)
termination_by x => sizeOf x
decreasing_by
  have smaller := List.sizeOf_lt_of_mem listed
  simp only [Datum.list.sizeOf_spec]
  omega

theorem mem_of_findAnyCase? {α : Type} {name : String} {entries : List (String × α)} {value : α}
    (found : Fields.findAnyCase? name entries = some value) :
    ∃ key, (key, value) ∈ entries := by
  unfold Fields.findAnyCase? at found
  rcases Option.or_eq_some_iff.mp found with exact | ⟨-, inexact⟩
  · exact ⟨name, Fields.mem_of_find? exact⟩
  · obtain ⟨entry, present, rfl⟩ := Option.map_eq_some_iff.mp inexact
    exact ⟨entry.1, List.mem_of_find?_eq_some present⟩

theorem inside_member? {r : Record} {v w : Value} {name : String}
    (found : v.member? name = some w) (inside : w.Inside r) : v.Inside r := by
  unfold member? at found
  split at found
  · obtain ⟨x, got, rfl⟩ := Option.map_eq_some_iff.mp found
    obtain ⟨key, member⟩ := mem_of_findAnyCase? got
    exact .record (.field member (inside_ofDatum x inside))
  all_goals
    cases found
  all_goals
    exact absurd inside (not_inside_of_isFlat rfl r)

end Value

namespace Formula

theorem inside_memberOf {r : Record} {v w : Value} {name : String}
    (found : memberOf v name = .ok w) (inside : w.Inside r) : v.Inside r := by
  unfold memberOf at found
  split at found
  · rename_i member
    cases found
    exact Value.inside_member? member inside
  · cases found

theorem inside_membersOf {r : Record} {v w : Value} {names : List String}
    (found : membersOf v names = .ok w) (inside : w.Inside r) : v.Inside r := by
  induction names generalizing v with
  | nil =>
      cases found
      exact inside
  | cons name rest ih =>
      obtain ⟨next, first, others⟩ := of_bind_ok found
      exact inside_memberOf first (ih others)

theorem elementAt_eq_some {v w : Value} {index : Float} (found : elementAt v index = .ok w) :
    (∃ items, v = .tuple items ∧ w ∈ items) ∨ w.isFlat := by
  unfold elementAt at found
  cases v with
  | tuple items =>
      dsimp only at found
      split at found
      · rename_i present
        cases found
        obtain ⟨i, -, present⟩ := Option.bind_eq_some_iff.mp present
        exact .inl ⟨items, rfl, List.mem_of_getElem? present⟩
      · cases found
  | text s =>
      dsimp only at found
      split at found
      · rename_i present
        cases found
        obtain ⟨i, -, present⟩ := Option.bind_eq_some_iff.mp present
        obtain ⟨c, -, rfl⟩ := Option.map_eq_some_iff.mp present
        exact .inr rfl
      · cases found
  | _ =>
      dsimp only at found
      split at found
      · rename_i present
        obtain ⟨i, -, absent⟩ := Option.bind_eq_some_iff.mp present
        cases absent
      · cases found

theorem inside_elementAt {r : Record} {v w : Value} {index : Float}
    (found : elementAt v index = .ok w) (inside : w.Inside r) : v.Inside r := by
  rcases elementAt_eq_some found with ⟨items, rfl, member⟩ | flat
  · exact .item member inside
  · exact absurd inside (Value.not_inside_of_isFlat flat r)

namespace Code

/-- Every record inside a result is inside a value that the scope gives. -/
def FromScope (code : Code) : Prop :=
  ∀ scope v r, code.eval scope = .ok v → v.Inside r →
    ∃ provider name w, Scope.get? scope provider name = some w ∧ w.Inside r

/-- All results are flat. -/
def Flat (code : Code) : Prop := ∀ scope v, code.eval scope = .ok v → v.isFlat

theorem Flat.fromScope {code : Code} (flat : code.Flat) : code.FromScope :=
  fun scope v r done inside => absurd inside (Value.not_inside_of_isFlat (flat scope v done) r)

theorem constant_flat {v : Value} (flat : v.isFlat) : (constant v).Flat := by
  intro scope w done
  cases done
  exact flat

theorem lookup_fromScope (provider : Nat) (name : String) (members : List String)
    (span : Text.Span) : (lookup provider name members span).FromScope := by
  intro scope v r done inside
  unfold eval at done
  split at done
  · rename_i w given
    exact ⟨provider, name, w, given, inside_membersOf done inside⟩
  · cases done

theorem FromScope.member {target : Code} (fromScope : target.FromScope) (name : String) :
    (member target name).FromScope := by
  intro scope v r done inside
  unfold eval at done
  obtain ⟨whole, made, done⟩ := of_bind_ok done
  exact fromScope scope whole r made (inside_memberOf done inside)

theorem FromScope.element {target : Code} (fromScope : target.FromScope) (index : Code) :
    (element target index).FromScope := by
  intro scope v r done inside
  unfold eval at done
  obtain ⟨whole, made, done⟩ := of_bind_ok done
  obtain ⟨second, -, done⟩ := of_bind_ok done
  obtain ⟨i, -, done⟩ := of_bind_ok done
  exact fromScope scope whole r made (inside_elementAt done inside)

theorem of_evalAll_ok {scope : Scope} {codes : List Code} {values : List Value}
    (done : evalAll scope codes = .ok values) :
    ∀ v ∈ values, ∃ code ∈ codes, code.eval scope = .ok v := by
  induction codes generalizing values with
  | nil =>
      cases done
      intro v member
      cases member
  | cons code rest ih =>
      unfold evalAll at done
      obtain ⟨first, head, done⟩ := of_bind_ok done
      obtain ⟨others, tail, done⟩ := of_bind_ok done
      cases done
      intro v member
      rcases List.mem_cons.mp member with rfl | later
      · exact ⟨code, List.mem_cons_self, head⟩
      · obtain ⟨found, listed, made⟩ := ih tail v later
        exact ⟨found, List.mem_cons_of_mem _ listed, made⟩

theorem tuple_fromScope {items : List Code} (fromScope : ∀ code ∈ items, code.FromScope) :
    (tuple items).FromScope := by
  intro scope v r done inside
  unfold eval at done
  obtain ⟨values, made, done⟩ := of_bind_ok done
  cases done
  cases inside with
  | item member inner =>
      obtain ⟨code, listed, evaluated⟩ := of_evalAll_ok made _ member
      exact fromScope code listed scope _ r evaluated inner

/-- The operations that compute a new value, of a kind of their own. -/
def makesFlat : Code → Bool
  | constant _ | lookup .. | member .. | tuple _ | element .. => false
  | _ => true

theorem flat_of_makesFlat (code : Code) (makes : code.makesFlat) : code.Flat := by
  intro scope v done
  have known : code.kind ≠ .dynamic ∧ code.kind ≠ .tuple := by
    cases code with
    | constant _ | lookup _ _ _ _ | member _ _ | tuple _ | element _ _ => cases makes
    | _ => exact ⟨nofun, nofun⟩
  rw [← eval_kind done known.1] at known
  exact isFlat_of_kind known.1 known.2

end Code

namespace Compiled

theorem unary_fromScope (op : UnaryOp) {x : Compiled} (fromScope : x.code.FromScope) :
    (unary op x).code.FromScope := by
  cases op with
  | plus =>
      unfold unary
      dsimp only
      split
      · exact fromScope
      · exact (Code.flat_of_makesFlat _ rfl).fromScope
  | _ => exact (Code.flat_of_makesFlat _ rfl).fromScope

theorem comparison_flat (test : OrderTest) (x y : Compiled) : (comparison test x y).code.Flat := by
  unfold comparison
  split <;> exact Code.flat_of_makesFlat _ rfl

theorem binary_flat (options : Options) (op : BinaryOp) (x y : Compiled) :
    (binary options op x y).code.Flat := by
  cases op with
  | less | lessEqual | greater | greaterEqual => exact comparison_flat _ x y
  | _ => exact Code.flat_of_makesFlat _ rfl

/-- A conversion that is left out passes on the code of its argument. -/
theorem converted_fromScope {known : Prop} [Decidable known] {x other : Compiled}
    (fromScope : x.code.FromScope) (flat : other.code.Flat) :
    (if known then x else other).code.FromScope := by
  split
  · exact fromScope
  · exact flat.fromScope

theorem call_fromScope {builtin : Builtin} {args : List Compiled} {compiled : Compiled}
    (fromScope : ∀ x ∈ args, x.code.FromScope) (called : call builtin args = some compiled) :
    compiled.code.FromScope := by
  unfold call at called
  split at called
  case h_5 =>
    split at called <;> cases called
    · exact (Code.constant_flat rfl).fromScope
    · exact (Code.flat_of_makesFlat _ rfl).fromScope
  case h_6 =>
    cases called
    exact (fromScope _ (by simp)).element _
  case h_7 =>
    cases called
    exact (Code.flat_of_makesFlat _ rfl).fromScope
  case h_8 =>
    split at called <;> cases called
    all_goals exact (Code.flat_of_makesFlat _ rfl).fromScope
  all_goals
    cases called
    exact converted_fromScope (fromScope _ (by simp)) (Code.flat_of_makesFlat _ rfl)

theorem fromScope_closed (options : Options) {scope : Scope} :
    Closed options scope fun x => x.code.FromScope where
  constant _ flat := (Code.constant_flat flat).fromScope
  lookup provider name members span _ := Code.lookup_fromScope provider name members span
  member _ name fromScope := fromScope.member name
  unary op _ fromScope := unary_fromScope op fromScope
  binary op x y _ _ := (binary_flat options op x y).fromScope
  replace _ _ _ _ _ _ := (Code.flat_of_makesFlat _ rfl).fromScope
  tuple items fromScope := by
    apply Code.tuple_fromScope
    intro code member
    obtain ⟨part, listed, rfl⟩ := List.mem_map.mp member
    exact fromScope part listed
  call _ _ _ fromScope called := call_fromScope fromScope called

end Compiled

/-- Each record inside the value of a formula was inside a value of the scope that the formula was
evaluated in, whatever scope it was compiled in. -/
theorem evaluate_inside {options : Options} {known present : Scope} {text : String}
    {formula : Formula} {v : Value} {r : Record}
    (compiled : ofText options known text = .ok formula)
    (done : formula.evaluate present = .ok v) (inside : v.Inside r) :
    ∃ provider name w, Scope.get? present provider name = some w ∧ w.Inside r := by
  unfold ofText ofParsed at compiled
  split at compiled
  · obtain ⟨x, made, compiled⟩ := of_bind_ok compiled
    cases compiled
    have fromScope : x.code.FromScope := of_compile_ok (Compiled.fromScope_closed options) made
    exact fromScope present v r done inside
  · cases compiled
  · cases compiled

end Formula

end Emend
