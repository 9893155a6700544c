import SchemaEditor.Store.Change

/-!
# Statements on rows

INSERT, UPDATE, DELETE and SELECT. A statement is worked out before it runs, and so are the statements of the
triggers that it may fire: if a name in them means nothing, no row is touched.
-/

namespace SchemaEditor.Store

/-- What a statement on rows changes. -/
inductive Target where
  | table (t : StoredTable)
  | view (v : StoredView) (rel : Relation)

namespace Target

def name : Target → String
  | table t => t.name
  | view v _ => v.name

def temporary : Target → Bool
  | table t => t.temporary
  | view v _ => v.temporary

def columns : Target → List Column
  | table t => t.definition.columns
  | view _ rel => rel.columns

/-- The target as a source of expressions. -/
def source (target : Target) (label : Option String) : ScopeSource :=
  match target with
  | table t => t.scopeSource (some (label.getD t.name))
  | view v rel => { name := some (label.getD v.name), schema := some (Content.schemaOf v.temporary), columns := rel.columns }

def event (target : Target) (event : TriggerEvent) (old new : Option Row) : RowEvent :=
  { table := target.name, temporary := target.temporary, source := target.source none, event, old, new }

/-- Finds a table or view. -/
def lookUp (c : Content) (n : ObjectName) : Except Failure Target := do
  match c.source? n with
  | some (.inl t) => return table t
  | some (.inr v) =>
    let (_, rel) ← c.relation { schema := some (Content.schemaOf v.temporary), name := v.name }
    return view v rel
  | none => if (Content.listed? n).isSome then throw (.protectedTable n.name) else throw (.noSuchTable n)

/-- Finds what a statement changes. A view can be changed only if triggers do it. -/
def find (c : Content) (stage : Stage) (n : ObjectName) (event : TriggerEvent) : Except Failure Target := do
  match ← lookUp c (stage.target n) with
  | table t => return table t
  | view v rel =>
    let target := view v rel
    if ((target.event event none none).listeners c).isEmpty then throw (.notModifiable v.name)
    return target

/-- A row of the target before triggers take over. -/
def relation (c : Content) : Target → Relation
  | table t => c.tableRelation t
  | view _ rel => rel

end Target

/-! ## Columns -/

/-- A column that values are given for: one of the target, or the number of the row. -/
inductive Slot where
  | column (i : Nat)
  | rowid

def slot? (target : Target) (name : String) : Option Slot :=
  match Definition.find? target.columns name with
  | some i => some (.column i)
  | none =>
    match target with
    | .table t =>
      if t.definition.withoutRowid || !Definition.isRowNumber name then none
      else some ((t.definition.rowColumn.map .column).getD .rowid)
    | .view .. => none

/-- A column that follows from others cannot be given a value. -/
def checkGiven (target : Target) (verb name : String) : Slot → Except Failure Unit
  | .column i =>
    if (target.columns[i]?.bind Column.generation).isSome then
      .error (.invalid ("cannot " ++ verb ++ " generated column \"" ++ name ++ "\""))
    else .ok ()
  | .rowid => .ok ()

def slotPlaces (slots : List Slot) : List Nat :=
  slots.map fun
    | .column i => i
    | .rowid => maxColumns
where
  /-- A place that no column has. -/
  maxColumns : Nat := Definition.maxColumns + 1

/-- The value that is given for the row number, if one is. -/
def slotRowid (slots : List Slot) (values : List Value) : Option Value :=
  (slots.zip values).findSome? fun (s, v) =>
    match s with
    | .rowid => some v
    | .column _ => none

/-! ## Assignments -/

def assignedSlots (target : Target) (columns : List ColumnName) : Except Failure (List Slot) :=
  columns.mapM fun n => do
    match slot? target n.name with
    | some s =>
      checkGiven target "UPDATE" n.name s
      return s
    | none => throw (.noSuchColumn n.name)

def assignedMeanings (ctx : Context) (a : Assignment) : Except Failure (List Meaning) := do
  let ms ← (← a.expr.meanings ctx).mapM Meaning.ungrouped
  match a.columns with
  | [_] => return [a.expr.only ms]
  | columns =>
    if ms.length ≠ columns.length then
      throw (.invalid (toString columns.length ++ " columns assigned " ++ toString ms.length ++ " values"))
    return ms

/-- Assignments worked out. The new values depend on the row and, beside it, on rows of other sources. -/
structure Assignments where
  columns : List ColumnName
  slots : List Slot
  meanings : List Meaning

def assignments (target : Target) (ctx : Context) (as : List Assignment) : Except Failure Assignments := do
  let columns := as.flatMap Assignment.columns
  let slots ← assignedSlots target columns
  let meanings ← as.flatMapM (assignedMeanings ctx)
  Meaning.checkSound meanings
  return { columns, slots, meanings }

/-- The change that assignments make, beside rows of other sources. -/
def Assignments.assigner (a : Assignments) (others : Sources) (env : Env) : Change.Assigner where
  columns := a.columns
  places := slotPlaces a.slots
  values r := do
    let values ← Meaning.values a.meanings ({ rows := some r :: others } :: env)
    return (values, slotRowid a.slots values)

/-- The columns that assignments change, with the one that stands for the row number. -/
def Assignments.changed (a : Assignments) : ChangedColumns := some (slotPlaces a.slots)

namespace Change

/-! ## Results -/

def returningOf (ctx : Context) (source : ScopeSource) (items : List SelectItem) : Except Failure (List Output) := do
  let outputs ← itemOutputs items ((ctx.enter { sources := [source] }).allowing false) [source]
  Meaning.checkSound (outputs.map Output.meaning)
  return outputs

def resultRow (outputs : List Output) (env : Env) (r : Row) : Except Failure (List Value) :=
  Meaning.values (outputs.map Output.meaning) ({ rows := [some r] } :: env)

/-- The results for some rows. -/
def results (outputs : List Output) (env : Env) (rows : List Row) : Except Failure (List (List Value)) :=
  if outputs.isEmpty then .ok [] else rows.mapM (resultRow outputs env)

/-! ## Inserting -/

/-- The column that a term of a key is, if it is one. -/
def termPlace (columns : List Column) (t : IndexTerm) : Option Nat :=
  (Definition.termColumn? t.expr).bind fun (n, _) => Definition.find? columns n.name

/-- Whether a clause on conflicts is about a key. -/
def isAbout (columns : List Column) (u : Upsert) (k : UniqueKey) : Bool :=
  let keys := k.exprs.map (termPlace columns)
  let targets := u.target.map (termPlace columns)
  u.target.isEmpty || (k.filter.isNone || u.targetFilter.isSome) && keys.length == targets.length &&
    targets.all (fun p => p.isSome && keys.contains p) && keys.all targets.contains

/-- A clause on conflicts worked out. -/
structure UpsertPlan where
  clause : Upsert
  update : Option (Assignments × Option Meaning)

structure InsertPlan where
  target : Target
  slots : List Slot
  /-- The rows of values; one of defaults if there is no source. -/
  source : Option Relation
  override : Option Conflict
  rules : Rules := ⟨[], [], []⟩
  upserts : List UpsertPlan := []
  outputs : List Output

def excluded (t : StoredTable) : ScopeSource := { t.scopeSource (some "excluded") with isGuarded := true }

/-- Whether a change of columns may give a row the key of another that it then replaces. -/
def mayReplace (t : StoredTable) (override : Option Conflict) (changed : ChangedColumns) (k : UniqueKey) : Bool :=
  let columns := k.exprs.filterMap (termPlace t.definition.columns)
    ++ (k.terms ++ k.filter.toList).flatMap fun m => m.uses.map Use.place
  (override.orElse fun _ => k.onConflict) == some .replace && changed.concerns columns

/-- The keys that a new row can share with another. `isNumbered` tells whether new rows are given row numbers. -/
def reachedKeys (t : StoredTable) (rules : Rules) (isNumbered : Bool) : List UniqueKey :=
  if isNumbered then allKeys t rules else rules.keys

/-- Where the expressions of a clause on conflicts stand. -/
def upsertContext (ctx : Context) (t : StoredTable) (name : String) : Context :=
  (ctx.enter { sources := [t.scopeSource (some name), excluded t] }).allowing false

/-- Works out a clause on conflicts, if a new row can share a key with another that it is about. -/
def upsertPlan (ctx : Context) (t : StoredTable) (label : Option String) (rules : Rules) (isNumbered : Bool)
    (u : Upsert) : Except Failure UpsertPlan := do
  if !(allKeys t rules).any (isAbout t.definition.columns u) && !u.target.isEmpty then
    throw (.invalid "ON CONFLICT clause does not match any PRIMARY KEY or UNIQUE constraint")
  if !(reachedKeys t rules isNumbered).any (isAbout t.definition.columns u) then return ⟨u, none⟩
  let inner := upsertContext ctx t (label.getD t.name)
  match u.update with
  | none => return ⟨u, none⟩
  | some (as, condition) =>
    let a ← assignments (.table t) inner as
    let condition ← condition.mapM fun e => e.meaning inner
    Meaning.checkSound condition.toList
    return ⟨u, some (a, condition)⟩

def insertSlots (target : Target) (columns : List ColumnName) : Except Failure (List Slot) :=
  if columns.isEmpty then
    .ok ((List.range target.columns.length).filterMap fun i =>
      if (target.columns[i]?.bind Column.generation).isSome then none else some (.column i))
  else columns.mapM fun n => do
    match slot? target n.name with
    | some s =>
      checkGiven target "INSERT into" n.name s
      return s
    | none => throw (.unknownInsertColumn target.name n.name)

/-- Whether a source is a single row of values. -/
def isSingleRow : Option Select → Bool
  | none => true
  | some (.mk [] (.values [_]) [] [] none none) => true
  | some _ => false

/-- The rules for new rows of a table. -/
def rulesOf (c : Content) (stage : Stage) (t : StoredTable) : Except Failure Rules := do
  let rules ← c.rules t
  Rules.checkOrder t rules.generations
  Meaning.checkSound (rules.checks.map Prod.snd)
  return if stage.checks then rules else { rules with checks := [] }

def insertPlan (c : Content) (counts : Counts) (stage : Stage) (i : Insertion) : Except Failure InsertPlan := do
  let target ← Target.find c stage i.target .insert
  let ctx := commonContext i.tables (stage.context c counts)
  let slots ← insertSlots target i.columns
  let source ← i.source.mapM fun s => s.relationOrFault ctx
  source.forM Relation.checkSound
  let width := (source.map fun rel => rel.columns.length).getD slots.length
  if width ≠ slots.length then
    throw (if i.columns.isEmpty then .valueCount target.name slots.length width else .listCount width slots.length)
  let override := stage.onConflict.orElse fun _ => i.onConflict
  let outputs ← returningOf ctx (target.source i.label) i.returning
  match target with
  | .table t =>
    let rules ← rulesOf c stage t
    let isNumbered := slots.any fun
      | .column i => t.definition.rowColumn == some i
      | .rowid => true
    let upserts ← i.upserts.mapM (upsertPlan ctx t i.label rules isNumbered)
    if stage.enforce then
      let isReplacing := (reachedKeys t rules isNumbered).any (mayReplace t override none)
      let isQuiet := ((t.event .insert none none).listeners c).isEmpty && !isReplacing
      c.checkReferences t none (isSingleRow i.source && stage.firing.isNone && isQuiet)
    return { target, slots, source, override, rules, upserts, outputs }
  | .view .. =>
    if !i.upserts.isEmpty then throw (.invalid "cannot UPSERT a view")
    return { target, slots, source, override, outputs }

/-- Changes the row that is there already, as a clause on conflicts asks for. -/
def mergeRow (run : Runner) (stage : Stage) (t : StoredTable) (rules : Rules) (u : UpsertPlan) : Merge :=
  fun existing new => do
    match u.update with
    | none => return none
    | some (a, condition) =>
      if ← ofExcept (Meaning.isTrue condition ({ rows := [some existing, some new] } :: stage.env)) then
        updateRow run { stage with onConflict := some .abort } t rules none (a.assigner [some new] stage.env) existing
      else return none

/-- What becomes of a row that has the key of another, if a clause on conflicts says so. -/
def merge? (run : Runner) (stage : Stage) (t : StoredTable) (p : InsertPlan) (k : UniqueKey) : Option Merge :=
  (p.upserts.find? fun u => isAbout t.definition.columns u.clause k).map (mergeRow run stage t p.rules)

/-- Inserts one row of values into a table. -/
def insertValues (run : Runner) (stage : Stage) (t : StoredTable) (p : InsertPlan) (given : List Value) :
    Change (Option Row) := do
  let values ← ofExcept (t.fullRow (slotPlaces p.slots) given)
  let rowid := (slotRowid p.slots given).getD .null
  insertRow run { stage with onConflict := p.override } t p.rules p.override (merge? run stage t p) rowid values

/-- Hands a row of values over to the triggers of a view. -/
def insertIntoView (run : Runner) (stage : Stage) (target : Target) (p : InsertPlan) (given : List Value) :
    Change (Option Row) := do
  let value (i : Nat) : Value := (((slotPlaces p.slots).idxOf? i).bind (given[·]?)).getD .null
  let new : Row := ⟨-1, (List.range target.columns.length).map value⟩
  let _ ← (target.event .insert none (some new)).fireAll run stage .insteadOf
  return some new

def insert (run : Runner) (stage : Stage) (i : Insertion) : Change (List (List Value)) := do
  let p ← ofExcept (insertPlan (← content) (← counts) stage i)
  let rows ← ofExcept ((p.source.map fun rel => return (← rel.rows stage.env).map Row.values).getD (.ok [[]]))
  let slots := if p.source.isNone then [] else p.slots
  let p := { p with slots }
  let inserted ← match p.target with
    | .table t =>
      if t.definition.autoIncrement then
        setContent ((← content).setCounter t (((← content).counter? t).getD 0))
      rows.mapM (insertValues run stage t p)
    | .view .. => rows.mapM (insertIntoView run stage p.target p)
  ofExcept (results p.outputs stage.env (inserted.filterMap id))

/-! ## Updating and deleting -/

/-- Which rows a statement changes, each with rows of other sources. -/
structure RowPlan where
  target : Target
  join : Join
  context : Context
  condition : Option Meaning
  outputs : List Output

def rowPlan (c : Content) (target : Target) (label : Option String) (ctx : Context) (source : Option Source)
    (condition : Option Expr) (returning : List SelectItem) : Except Failure RowPlan := do
  let own := { Join.ofRelation none false none (target.relation c) with sources := [target.source label] }
  let join ← match source with
    | none => pure own
    | some s => pure (Join.combine {} own (← (← s.pendingJoin ctx).join) none)
  let context := (ctx.enter { sources := join.sources }).allowing false
  let condition ← (← optionalMeaning condition context).mapM Meaning.ungrouped
  let condition := Join.allOf (condition.toList ++ join.later)
  return { target, join, context, condition, outputs := ← returningOf ctx (target.source label) returning }

/-- Fails if the rows that are meant cannot be worked out. -/
def RowPlan.checkSound (p : RowPlan) : Except Failure Unit := do
  if let some f := p.join.defect then throw f
  Meaning.checkSound p.condition.toList

/-- Of pairs for one row the last. -/
def lastPairs (pairs : List (Row × Sources)) : List (Row × Sources) :=
  pairs.foldr (fun p kept => if kept.any fun q => q.1 == p.1 then kept else p :: kept) []

/-- The rows that are meant, each once. -/
def RowPlan.rows (p : RowPlan) (env : Env) : Except Failure (List (Row × Sources)) := do
  let bounds := (p.condition.map Meaning.bounds).getD []
  let demand (k : Nat) : Demand :=
    let columns := (p.join.sources[k]?.map ScopeSource.columns).getD []
    { Selection.Demand.forSource [] none bounds k with used := List.range columns.length }
  let rows ← ((p.join.read demand env).filterM fun rows => Meaning.isTrue p.condition ({ rows } :: env)).whole
  let pairs := rows.filterMap fun
    | some r :: others => some (r, others)
    | _ => none
  return if p.join.sources.length = 1 then pairs else lastPairs pairs

structure UpdatePlan where
  rows : RowPlan
  assignments : Assignments
  override : Option Conflict
  rules : Rules

def updatePlan (c : Content) (counts : Counts) (stage : Stage) (u : Update) : Except Failure UpdatePlan := do
  let target ← Target.find c stage u.target (.update (u.assignments.flatMap Assignment.columns))
  let ctx := commonContext u.tables (stage.context c counts)
  let rows ← rowPlan c target u.label ctx u.source u.condition u.returning
  rows.checkSound
  let assignments ← assignments target rows.context u.assignments
  let override := stage.onConflict.orElse fun _ => u.onConflict
  match target with
  | .table t =>
    let rules ← rulesOf c stage t
    let isReplacing := (allKeys t rules).any (mayReplace t override assignments.changed)
    if stage.enforce then c.checkReferences t (if isReplacing then none else assignments.changed) false
    return { rows, assignments, override, rules }
  | .view .. => return { rows, assignments, override, rules := ⟨[], [], []⟩ }

/-- Hands the change of a row over to the triggers of a view. -/
def updateView (run : Runner) (stage : Stage) (target : Target) (a : Assigner) (r : Row) : Change (Option Row) := do
  let (new, _) ← ofExcept (a.values r)
  let changed := { r with values := assigned a new r.values }
  let _ ← (target.event (.update a.columns) (some r) (some changed)).fireAll run stage .insteadOf
  return some changed

def update (run : Runner) (stage : Stage) (u : Update) : Change (List (List Value)) := do
  let p ← ofExcept (updatePlan (← content) (← counts) stage u)
  let rows ← ofExcept (p.rows.rows stage.env)
  let inner := { stage with onConflict := p.override }
  let changed ← rows.mapM fun (r, others) =>
    let a := p.assignments.assigner others stage.env
    match p.rows.target with
    | .table t => updateRow run inner t p.rules p.override a r
    | .view .. => updateView run inner p.rows.target a r
  ofExcept (results p.rows.outputs stage.env (changed.filterMap id))

def deletePlan (c : Content) (counts : Counts) (stage : Stage) (d : Deletion) : Except Failure RowPlan := do
  let target ← Target.find c stage d.target .delete
  let ctx := commonContext d.tables (stage.context c counts)
  let p ← rowPlan c target d.label ctx none d.condition d.returning
  p.checkSound
  if let .table t := target then
    if stage.enforce then c.checkReferences t none false
  return p

def deleteFromView (run : Runner) (stage : Stage) (target : Target) (r : Row) : Change Bool := do
  let _ ← (target.event .delete (some r) none).fireAll run stage .insteadOf
  return true

def delete (run : Runner) (stage : Stage) (d : Deletion) : Change (List (List Value)) := do
  let p ← ofExcept (deletePlan (← content) (← counts) stage d)
  let rows ← ofExcept (p.rows stage.env)
  let inner := { stage with onConflict := none }
  let deleted ← rows.filterM fun (r, _) =>
    match p.target with
    | .table t => deleteRow run inner t r
    | .view .. => deleteFromView run inner p.target r
  ofExcept (results p.outputs stage.env (deleted.map Prod.fst))

/-! ## Statements -/

/-- Runs a statement; `run` runs those of triggers. Gives the rows that the statement gives. -/
def perform (run : Runner) (stage : Stage) : RowStatement → Change (List (List Value))
  | .insert i => insert run stage i
  | .update u => update run stage u
  | .delete d => delete run stage d
  | .select s => do
    let rel ← ofExcept (s.relation (stage.context (← content) (← counts)))
    return (← ofExcept (rel.rows stage.env)).map Row.values

/-- Runs the statements of triggers, which fire others in turn, at most this deep. -/
def runUpTo : Nat → Runner
  | 0, _, _ => throw ⟨.triggerDepth, .abort⟩
  | depth + 1, stage, s => do
    let _ ← perform (runUpTo depth) stage s

def maxDepth : Nat := 1000

/-! ## Statements worked out -/

/-- Works a statement out without running it. Gives the names of the columns that it gives, and what it does to its
target. -/
def planOf (c : Content) (stage : Stage) (s : RowStatement) : Except Failure (List String × Option RowEvent) := do
  let counts : Counts := {}
  match s with
  | .insert i =>
    let p ← insertPlan c counts stage i
    return (p.outputs.map Output.heading, some (p.target.event .insert none none))
  | .update u =>
    let p ← updatePlan c counts stage u
    return (p.rows.outputs.map Output.heading, some (p.rows.target.event (.update p.assignments.columns) none none))
  | .delete d =>
    let p ← deletePlan c counts stage d
    return (p.outputs.map Output.heading, some (p.target.event .delete none none))
  | .select s =>
    let rel ← s.relationOrFault (stage.context c counts)
    rel.checkSound
    return (rel.headings, none)

/-- A row of nothing, for triggers that are worked out before there is a row. -/
def noRow : Row := ⟨0, []⟩

/-- An event with rows of nothing where there will be rows. -/
def blank (e : RowEvent) : RowEvent :=
  match e.event with
  | .insert => { e with new := some noRow }
  | .delete => { e with old := some noRow }
  | .update _ => { e with old := some noRow, new := some noRow }

/-- Works out a statement and those of the triggers that it may fire, each trigger once on the way to it. -/
def checkUpTo : Nat → Content → Stage → RowStatement → Except Failure Unit
  | 0, _, _, _ => .ok ()
  | depth + 1, c, stage, s => do
    let (_, event) ← planOf c stage s
    match event with
    | none => return ()
    | some e =>
      let isNew (g : StoredTrigger) : Bool := !stage.active.contains (g.temporary, g.name)
      ((e.listeners c).filter isNew).forM fun g => do
        let inner := { (blank e).stageOf stage g.temporary with active := (g.temporary, g.name) :: stage.active }
        let condition ← g.body.condition.mapM fun e => e.meaning (inner.context c {})
        Meaning.checkSound condition.toList
        g.body.steps.forM (checkUpTo depth c inner)

/-- Works out a statement and all that it may fire. -/
def check (c : Content) (stage : Stage) (s : RowStatement) : Except Failure Unit :=
  checkUpTo (c.triggers.length + 1) c stage s

end Change

end SchemaEditor.Store
