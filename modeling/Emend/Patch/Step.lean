import Emend.Patch.Identity
import Emend.Patch.Template
import Emend.Patch.Variables

/-!
Single instructions: what each does to the records, the shared variables and the templates of a
pass. Records are patched as copies, which are put in place once nothing can fail any more.
-/

set_option autoImplicit false

namespace Emend.Patch

/-- Why the document ends, unless every formula is true. The first that is not decides. -/
def firstFailure (c : Context) (typeName : String) (position : Position) :
    List Node → Except PatchError (Option Diagnostic)
  | [] => .ok none
  | node :: rest =>
    let place := node.position.or position
    match (scalarText "test formula" place node).bind (c.evaluateBool [] · place) with
    | .ok true => firstFailure c typeName position rest
    | .ok false =>
      .ok (some (.info typeName "test is false, skipping the rest of the document" place))
    | .error e =>
      if e.interruption?.isSome then .error e
      else .ok (some ((Diagnostic.ofError typeName .warning e).at place))

/-- The formulas of a test: one, or a sequence of them. -/
def Instruction.formulas (i : Instruction) : List Node :=
  match i.payload with
  | .sequence items _ => items
  | node => [node]

def test (c : Context) (typeName : String) (i : Instruction) :
    Except PatchError (Option Diagnostic) :=
  firstFailure c typeName i.position i.formulas

section
variable (c : Context) (type : Descriptor) (field : String) (records : Collection)

def select (choose : Record → Except PatchError Bool) :
    List (Nat × Record) → Except PatchError (List (Nat × Record))
  | [] => .ok []
  | entry :: rest => do
    let chosen ← choose entry.2
    let others ← select choose rest
    .ok (if chosen then entry :: others else others)

/-- The names of a formula that chooses records: the record, its identity as a number, and all
records. -/
def choiceBindings (r : Record) : Bindings :=
  let identity := match (records.identityOf? r).bind Datum.toFloat? with
    | some x => Value.number x
    | none => .null
  Bindings.ofRecord r identity ++ [("collection", .tuple (records.records.map .record))]

def matching (formula : String) (position : Position) : Except PatchError (List (Nat × Record)) :=
  select (fun r => c.evaluateBool (choiceBindings records r) formula position) records.live

/-- The entries of a new record, made of templates and its own. -/
def Instruction.newEntries (i : Instruction) (templates : Templates) :
    Except PatchError Entries := do
  expandTemplate templates (← i.entries) i.position

def addRecord (entries : Entries) (identity : Datum) (position : Position) :
    Edit PatchError Collection Unit := do
  let start := type.newFilledRecord.set field identity
  let record ← patchRecord c type start (entries.withoutIdentity field)
  discard (ExceptT.adapt (fun e => .identityConflict e.message position) (Collection.insertion record))

/-- Adds a record. A shared variable that gives its identity is set before the fields are, and
stays set if they fail. -/
def add (templates : Templates) (i : Instruction) (records : Collection) :
    Except PatchError Unit × Collection × Store :=
  match i.newEntries templates with
  | .error e => (.error e, records, c.store)
  | .ok entries =>
    match newIdentities type field records i.position none c.store entries with
    | (.error e, s) => (.error e, records, s)
    | (.ok none, s) =>
      (.error (.structural ("add requires " ++ quoted field ++ " or " ++ quoted ("$" ++ field))
        i.position), records, s)
    | (.ok (some identity), s) =>
      let (done, records) :=
        (addRecord ⟨c.settings, s⟩ type field entries identity i.position).on records
      (done, records, s)

def update (i : Instruction) : Edit PatchError Collection Unit := do
  let entries ← i.entries
  let identity ← targetIdentity type field c entries i.position
  let (slot, record) ← locate type (← get) identity i.position
  let record ← patchRecord c type record (entries.withoutIdentity field)
  modify (·.replace slot record)

def predicateKey : String := "$where"

def Instruction.predicate (i : Instruction) (entries : Entries) (missing : String) :
    Except PatchError String :=
  match entries.find? predicateKey with
  | none => .error (.structural missing i.position)
  | some node => scalarText predicateKey i.position node

/-- Patches every chosen record. All are chosen before any is patched, and all are patched before any
is put back. -/
def updateAll (i : Instruction) : Edit PatchError Collection Unit := do
  let entries ← i.entries
  let formula ← i.predicate entries ("update-all requires a " ++ predicateKey ++ " predicate")
  let chosen ← matching c (← get) formula i.position
  let patched ← chosen.mapM (m := Except PatchError) fun (slot, record) =>
    (patchRecord c type record (entries.without predicateKey)).map (slot, ·)
  patched.forM fun (slot, record) => modify (·.replace slot record)

/-- The identity of the record to be removed: the payload itself, or one of its entries. -/
def identityToRemove (i : Instruction) : Except PatchError Datum :=
  match i.payload with
  | .scalar text _ => literalIdentity type field text i.position
  | _ => do targetIdentity type field c (← i.entries) i.position

def remove (i : Instruction) : Edit PatchError Collection Unit := do
  let identity ← identityToRemove c type field i
  let slot ← slotOf type (← get) identity i.position
  modify (·.remove slot)

/-- The formula that chooses the records to be removed: the payload itself, or one of its
entries. -/
def Instruction.formulaToRemove (i : Instruction) : Except PatchError String :=
  match i.payload with
  | .scalar text _ => .ok text
  | _ => do i.predicate (← i.entries) "remove-all requires a predicate"

/-- Removes every chosen record, the last one first. -/
def removeAll (i : Instruction) : Edit PatchError Collection Unit := do
  let formula ← i.formulaToRemove
  let chosen ← matching c (← get) formula i.position
  chosen.reverse.forM fun (slot, _) => modify (·.remove slot)

def updateSingle (i : Instruction) : Edit PatchError Record Unit := do
  let entries ← i.entries
  let record ← patchRecord c type (← get) entries
  set record

end

inductive Target where
  /-- Records that are told apart by the identity in a field. -/
  | collection (field : String) (records : Collection)
  | single (record : Record)

structure Workspace where
  target : Target
  store : Store
  templates : Templates

inductive Outcome where
  | applied
  /-- The rest of the document is not to be carried out. -/
  | stopped (reason : Diagnostic)

namespace Workspace

/-- Work on one part of a workspace, which `put` puts back as the work left it. -/
def carry {σ : Type} (work : Edit PatchError σ Unit) (part : σ) (put : σ → Workspace) :
    Except PatchError Outcome × Workspace :=
  let (done, left) := work.on part
  (done.map fun _ => .applied, put left)

/-- Carries out an instruction on the records of a collection. Verbs that need no records do
nothing here. -/
def stepCollection (w : Workspace) (c : Context) (type : Descriptor) (field : String)
    (records : Collection) (i : Instruction) : Except PatchError Outcome × Workspace :=
  let put (records : Collection) : Workspace := { w with target := .collection field records }
  match i.verb with
  | .add =>
    let (done, records, store) := add c type field w.templates i records
    (done.map fun _ => .applied, { put records with store := store })
  | .update => carry (update c type field i) records put
  | .updateAll => carry (updateAll c type i) records put
  | .remove => carry (remove c type field i) records put
  | .removeAll => carry (removeAll c i) records put
  | .state | .template | .test => (.ok .applied, w)

/-- A single record can only be updated. -/
def stepSingle (w : Workspace) (c : Context) (type : Descriptor) (record : Record)
    (i : Instruction) : Except PatchError Outcome × Workspace :=
  match i.verb with
  | .update =>
    carry (updateSingle c type i) record fun record => { w with target := .single record }
  | verb =>
    (.error (.structural (verb.name ++ " needs a collection but " ++ type.name ++
      " is a single record") i.position), w)

def step (settings : Settings) (type : Descriptor) (w : Workspace) (i : Instruction) :
    Except PatchError Outcome × Workspace :=
  let c : Context := ⟨settings, w.store⟩
  match i.verb, w.target with
  | .state, _ =>
    match setState c i with
    | .ok store => (.ok .applied, { w with store := store })
    | .error e => (.error e, w)
  | .template, _ =>
    carry (defineTemplate i) w.templates fun templates => { w with templates := templates }
  | .test, _ =>
    match test c type.name i with
    | .ok none => (.ok .applied, w)
    | .ok (some reason) => (.ok (.stopped reason), w)
    | .error e => (.error e, w)
  | _, .collection field records => w.stepCollection c type field records i
  | _, .single record => w.stepSingle c type record i

end Workspace

end Emend.Patch
