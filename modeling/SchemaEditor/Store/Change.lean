import SchemaEditor.Store.ForeignKeys

/-!
# Changing rows

Inserting, changing and deleting single rows, with all that follows from it: rows that are in the way are replaced
where that is asked for, triggers run before and after, and references are settled. How the statements of triggers
run is a parameter here.
-/

namespace SchemaEditor.Store

/-! ## The progress of a statement -/

structure Work where
  content : Content
  counts : Counts := {}
  /-- The rows that the statement has changed so far. -/
  tally : Nat := 0

/-- The counts after the statement has come to its end. -/
def Work.closed (w : Work) : Counts :=
  { w.counts with changes := w.tally, totalChanges := w.counts.totalChanges + w.tally }

/-- Why a statement does not go on, and what becomes of what it has done. -/
structure Refusal where
  failure : Failure
  action : Conflict := .abort

abbrev Change := EStateM Refusal Work

/-- The trigger that a statement belongs to. -/
structure Firing where
  /-- Whether the trigger is temporary. -/
  temporary : Bool
  scope : Scope
  frame : Frame

/-- The conditions that a statement runs under. -/
structure Stage where
  /-- Whether foreign keys are enforced. -/
  enforce : Bool := false
  /-- Whether the conditions on rows are looked at. -/
  checks : Bool := true
  /-- Whether a trigger can fire while it is running. -/
  recursive : Bool := false
  /-- The triggers that are running, by schema and name. -/
  active : List (Bool × String) := []
  firing : Option Firing := none
  /-- What the outermost statement does when a row breaks a rule, if it says so. -/
  onConflict : Option Conflict := none

/-- Runs the statements of triggers. -/
abbrev Runner := Stage → RowStatement → Change Unit

namespace Change

def refusalOf (e : Failure) : Refusal :=
  match e with
  | .raised action _ => ⟨e, action⟩
  | e => ⟨e, .abort⟩

def ofExcept {α : Type} : Except Failure α → Change α
  | .ok a => fun w => .ok a w
  | .error e => fun w => .error (refusalOf e) w

def content : Change Content := fun w => .ok w.content w

def counts : Change Counts := fun w => .ok w.counts w

def setContent (c : Content) : Change Unit := fun w => .ok () { w with content := c }

def modifyCounts (f : Counts → Counts) : Change Unit := fun w => .ok () { w with counts := f w.counts }

/-- A table as it is now. -/
def current (t : StoredTable) : Change StoredTable := fun w =>
  .ok ((w.content.tableIn? t.temporary t.name).getD t) w

def putTable (t : StoredTable) : Change Unit := fun w => .ok () { w with content := w.content.putTable t }

/-- Counts a row that was changed. -/
def countRow : Change Unit := fun w => .ok () { w with tally := w.tally + 1 }

/-- Runs the statement of a trigger, whose changes count once it has come to its end. -/
def stepped (change : Change Unit) : Change Unit := do
  change
  fun w => .ok () { w with counts := w.closed, tally := 0 }

/-- Whether a change was carried through, and not ignored half-way. -/
def unlessIgnored (change : Change Unit) : Change Bool := fun w =>
  match change w with
  | .ok () w => .ok true w
  | .error e w => if e.action = .ignore then .ok false w else .error e w

/-- Runs the steps of a trigger. Their counts end with it, but for the total. -/
def apart (change : Change Unit) : Change Unit := fun w =>
  let restored (w' : Work) : Work :=
    { w' with tally := w.tally, counts := { w.counts with totalChanges := w'.counts.totalChanges } }
  match change { w with tally := 0 } with
  | .ok () w' => .ok () (restored w')
  | .error e w' => .error e (restored w')

end Change

namespace Stage

/-- What expressions of a statement refer to. -/
def context (s : Stage) (c : Content) (counts : Counts) : Context :=
  match s.firing with
  | none => c.context counts
  | some f =>
    { find := fun n => c.relation (Content.nameWithin f.temporary n), counts, scopes := [f.scope], inTrigger := true }

def env (s : Stage) : Env := s.firing.toList.map Firing.frame

/-- What the name of a table that is changed means. -/
def target (s : Stage) (n : ObjectName) : ObjectName :=
  match s.firing with
  | none => n
  | some f => Content.nameWithin f.temporary n

end Stage

/-! ## Triggers -/

/-- What happens to a row of a table or view. -/
structure RowEvent where
  table : String
  temporary : Bool
  /-- The table as the source of its triggers. -/
  source : ScopeSource
  event : TriggerEvent
  old : Option Row := none
  new : Option Row := none

namespace RowEvent

/-- The rows before and after, as far as there are any, as triggers name them. -/
def named (e : RowEvent) : List (String × Row) :=
  e.old.toList.map (fun r => ("old", r)) ++ e.new.toList.map fun r => ("new", r)

def scope (e : RowEvent) : Scope where
  sources := e.named.map fun (name, _) => { e.source with name := some name, isLabelled := true, isGuarded := true }

def frame (e : RowEvent) : Frame := { rows := e.named.map fun (_, r) => some r }

/-- Whether a trigger is for such an event. -/
def concerns (e : RowEvent) (g : StoredTrigger) : Bool :=
  match e.event, g.body.event with
  | .insert, .insert | .delete, .delete => true
  | .update changed, .update columns =>
    columns.isEmpty || columns.any fun n => changed.any fun m => sameName n.name m.name
  | _, _ => false

/-- The triggers for such an event. -/
def listeners (e : RowEvent) (c : Content) : List StoredTrigger := (c.triggersOf e.temporary e.table).filter e.concerns

/-- The triggers that run at a time. -/
def triggers (e : RowEvent) (c : Content) (stage : Stage) (time : TriggerTime) : List StoredTrigger :=
  (e.listeners c).filter fun g =>
    g.body.time == time && (stage.recursive || !stage.active.contains (g.temporary, g.name))

/-- The stage of the steps of a trigger. -/
def stageOf (e : RowEvent) (stage : Stage) (temporary : Bool) : Stage :=
  { stage with firing := some ⟨temporary, e.scope, e.frame⟩ }

/-- Runs a trigger, if its condition is met. -/
def fire (e : RowEvent) (run : Runner) (stage : Stage) (g : StoredTrigger) : Change Unit := do
  let inner := { e.stageOf stage g.temporary with active := (g.temporary, g.name) :: stage.active }
  let ctx := inner.context (← Change.content) (← Change.counts)
  let condition ← Change.ofExcept (g.body.condition.mapM fun e => e.meaning ctx)
  if ← Change.ofExcept (Meaning.isTrue condition inner.env) then
    Change.apart (g.body.steps.forM fun s => Change.stepped (run inner s))

/-- Runs the triggers of an event. Tells whether the change of the row goes on. -/
def fireAll (e : RowEvent) (run : Runner) (stage : Stage) (time : TriggerTime) : Change Bool := do
  let triggers := e.triggers (← Change.content) stage time
  Change.unlessIgnored (triggers.forM (e.fire run stage))

/-- Does what references to the table ask for. -/
def settle (e : RowEvent) (run : Runner) (stage : Stage) (t : StoredTable) : Change Unit := do
  if stage.enforce then
    if let some old := e.old then
      let stage := { e.stageOf stage t.temporary with onConflict := some .abort }
      ((← Change.content).actions t old e.new).forM fun s => Change.apart (Change.stepped (run stage s))

end RowEvent

def StoredTable.event (t : StoredTable) (event : TriggerEvent) (old new : Option Row) : RowEvent :=
  { table := t.name, temporary := t.temporary, source := t.scopeSource, event, old, new }

/-! ## Deleting -/

namespace Change

/-- Deletes a row that is in the way of another. -/
def replaceRow (run : Runner) (stage : Stage) (t : StoredTable) (r : Row) : Change Unit := do
  let event := t.event .delete (some r) none
  if !stage.recursive || (← event.fireAll run stage .before) then
    putTable ((← current t).remove r)
    event.settle run stage t
    if stage.recursive then
      let _ ← event.fireAll run stage .after

/-- Deletes a row, if it is still there. Tells whether it was. -/
def deleteRow (run : Runner) (stage : Stage) (t : StoredTable) (r : Row) : Change Bool := do
  let some r := (← current t).find? r | return false
  let event := t.event .delete (some r) none
  if !(← event.fireAll run stage .before) then return false
  if ((← current t).find? r).isNone then return false
  putTable ((← current t).remove r)
  countRow
  event.settle run stage t
  let _ ← event.fireAll run stage .after
  return true

/-! ## Rules -/

/-- Changes a row that is there already, given a new row with the same key. -/
abbrev Merge := Row → Row → Change (Option Row)

/-- What becomes of a new row after the rules of its table have been looked at. -/
inductive Verdict where
  | keep (r : Row)
  | ignore
  | merge (existing : Row) (m : Merge)

/-- The way out for a row that breaks a rule. -/
inductive WayOut where
  | ignore
  | replace

/-- Decides what happens to a row that breaks a rule. -/
def wayOut (action : Option Conflict) (failure : Failure) : Change WayOut :=
  match action.getD .abort with
  | .ignore => return .ignore
  | .replace => return .replace
  | action => throw ⟨failure, action⟩

/-- Replaces NULL by the default of its column where that is asked for. -/
def fillMissing (override : Option Conflict) : List (Nat × Column) → String → List Value → Change (Option (List Value))
  | [], _, values => return some values
  | (i, c) :: missing, table, values => do
    let failure : Failure := .notNull table c.name
    match ← wayOut (override.orElse fun _ => c.onNull) failure with
    | .ignore => return none
    | _ =>
      let v ← ofExcept (StoredTable.defaultValue c)
      if v == .null then throw ⟨failure, .abort⟩
      fillMissing override missing table (values.set i v)

/-- Deals with rows that have a key of the new row. -/
def clearKeys (run : Runner) (stage : Stage) (t : StoredTable) (override : Option Conflict)
    (merge? : UniqueKey → Option Merge) (isOld : Row → Bool) (r : Row) : List UniqueKey → Change Verdict
  | [] => return .keep r
  | k :: keys => do
    let rows := (← current t).rows.filter fun o => !isOld o
    match ← ofExcept (k.conflict? rows r) with
    | none => clearKeys run stage t override merge? isOld r keys
    | some existing =>
      if let some m := merge? k then return .merge existing m
      match ← wayOut (override.orElse fun _ => k.onConflict) k.failure with
      | .ignore => return .ignore
      | _ =>
        replaceRow run stage t existing
        clearKeys run stage t override merge? isOld r keys

/-- The key that the number of a row is. -/
def rowidKey (t : StoredTable) : UniqueKey where
  terms := [Meaning.ofRowid 0 0]
  filter := none
  onConflict := t.definition.onRowConflict
  failure := .notUnique t.name [((t.definition.rowColumn).map t.columnName).getD "rowid"]
  exprs := t.definition.rowColumn.toList.map fun i => { expr := .column { name := t.columnName i } }

def allKeys (t : StoredTable) (rules : Rules) : List UniqueKey :=
  if t.definition.withoutRowid then rules.keys else rowidKey t :: rules.keys

/-- Looks at all rules of a table for a row that is to come into it. -/
def examine (run : Runner) (stage : Stage) (t : StoredTable) (rules : Rules) (override : Option Conflict)
    (merge? : UniqueKey → Option Merge) (isOld : Row → Bool) (r : Row) : Change Verdict := do
  match ← fillMissing override (t.missing r.values) t.name r.values with
  | none => return .ignore
  | some values =>
    let r := { r with values := t.convert values }
    ofExcept (t.checkTypes r.values)
    match ← ofExcept (rules.broken? r) with
    | some failure =>
      match ← wayOut (if override = some .replace then some .abort else override) failure with
      | .ignore => return .ignore
      | _ => throw ⟨failure, .abort⟩
    | none => clearKeys run stage t override merge? isOld r (allKeys t rules)

/-! ## Changing -/

/-- How a row is changed: the columns that are assigned to, and their new values in a row. -/
structure Assigner where
  columns : List ColumnName
  places : List Nat
  /-- The new values for the places, and for the row number if it is assigned to. -/
  values : Row → Except Failure (List Value × Option Value)

def assigned (a : Assigner) (new : List Value) (values : List Value) : List Value :=
  (a.places.zip new).foldl (fun values (i, v) => values.set i v) values

/-- The row with its new values; a new number has to be one. -/
def changedRow (t : StoredTable) (a : Assigner) (new : List Value) (rowid : Option Value) (r : Row) :
    Except Failure Row := do
  let values := t.convert (assigned a new r.values)
  if t.definition.withoutRowid then return ⟨0, values⟩
  match t.definition.rowColumn with
  | some i =>
    let v := rowid.getD (values.getD i .null)
    return t.withRowid (← StoredTable.rowidOf v) values
  | none =>
    match rowid with
    | some v => return t.withRowid (← StoredTable.rowidOf v) values
    | none => return t.withRowid r.rowid values

/-- Changes a row, if it is still there. Gives the row as it is then. -/
def updateRow (run : Runner) (stage : Stage) (t : StoredTable) (rules : Rules) (override : Option Conflict)
    (a : Assigner) (r : Row) : Change (Option Row) := do
  let some old := (← current t).find? r | return none
  let (new, rowid) ← ofExcept (a.values old)
  let planned ← ofExcept do rules.generate t (← changedRow t a new rowid old)
  let event := t.event (.update a.columns) (some old) (some planned)
  if !(← event.fireAll run stage .before) then return none
  let some now := (← current t).find? r | return none
  let changed ← ofExcept do rules.generate t (← changedRow t a new rowid now)
  match ← examine run stage t rules override (fun _ => none) (t.isSame r) changed with
  | .keep changed =>
    putTable (((← current t).remove r).put changed)
    countRow
    let event := { event with old := some now, new := some changed }
    event.settle run stage t
    let _ ← event.fireAll run stage .after
    return some changed
  | _ => return none

/-! ## Inserting -/

/-- A new row as triggers see it that run before it is there. -/
def announced (t : StoredTable) (rowid : Value) (values : List Value) : Except Failure Row := do
  if t.definition.withoutRowid then return ⟨0, values⟩
  match t.rowidValue rowid values with
  | .null => return t.withRowid (-1) values
  | v => return t.withRowid (← StoredTable.rowidOf v) values

/-- Inserts a row. Gives the row as it is then, unless nothing was changed. -/
def insertRow (run : Runner) (stage : Stage) (t : StoredTable) (rules : Rules) (override : Option Conflict)
    (merge? : UniqueKey → Option Merge) (rowid : Value) (values : List Value) : Change (Option Row) := do
  let values := t.convert values
  let event := t.event .insert none none
  if !(event.triggers (← content) stage .before).isEmpty then
    let planned ← ofExcept do rules.generate t (← announced t rowid values)
    if !(← { event with new := some planned }.fireAll run stage .before) then return none
  let counter := ((← content).counter? t).getD 0
  let now ← current t
  let r ← ofExcept do rules.generate t (← now.numbered counter rowid values)
  match ← examine run stage t rules override merge? (fun _ => false) r with
  | .keep r =>
    putTable ((← current t).put r)
    if t.definition.autoIncrement then
      setContent ((← content).setCounter t (max r.rowid (((← content).counter? t).getD 0)))
    countRow
    if !t.definition.withoutRowid then modifyCounts fun n => { n with lastRowid := r.rowid }
    let _ ← { event with new := some r }.fireAll run stage .after
    return some r
  | .ignore => return none
  | .merge existing m => m existing r

end Change

end SchemaEditor.Store
