import SchemaEditor.Store.Parser.Statement
import SchemaEditor.Store.Creation

/-!
# Stored statements

The store keeps the statement that each object was created with. An object follows from its statement, so a changed
statement is read again.
-/

namespace SchemaEditor.Store

/-- Reads a statement that was stored. -/
def readStored (sql : String) : Except Failure Statement := do
  match ← Reader.statement.run (tokens sql) with
  | (some s, _) => return s
  | (none, _) => throw (.syntaxError "")

def readTable (sql : String) : Except Failure (Creation × TableBody) := do
  match ← readStored sql with
  | .createTable c body => return (c, body)
  | _ => throw (.syntaxError sql)

def readIndex (sql : String) : Except Failure (Creation × IndexBody) := do
  match ← readStored sql with
  | .createIndex c body => return (c, body)
  | _ => throw (.syntaxError sql)

def readTrigger (sql : String) : Except Failure (Creation × TriggerBody) := do
  match ← readStored sql with
  | .createTrigger c body => return (c, body)
  | _ => throw (.syntaxError sql)

def readView (sql : String) : Except Failure (Creation × ViewBody) := do
  match ← readStored sql with
  | .createView c body => return (c, body)
  | _ => throw (.syntaxError sql)

def definitionOf (name sql : String) : Except Failure Definition := do Definition.ofBody name (← readTable sql).2

namespace StoredTable

/-- The table with another statement. -/
def reread (t : StoredTable) (name sql : String) : Except Failure StoredTable :=
  return { t with name, sql, definition := ← definitionOf name sql }

end StoredTable

namespace StoredIndex

def reread (i : StoredIndex) (table sql : String) : Except Failure StoredIndex := do
  let (c, body) ← readIndex sql
  return { i with name := c.target.name, table, sql, body }

end StoredIndex

namespace StoredTrigger

def reread (g : StoredTrigger) (table sql : String) : Except Failure StoredTrigger := do
  let (c, body) ← readTrigger sql
  return { g with name := c.target.name, table, sql, body }

end StoredTrigger

namespace StoredView

def reread (v : StoredView) (sql : String) : Except Failure StoredView := do
  let (c, body) ← readView sql
  return { v with name := c.target.name, sql, body }

end StoredView

/-! ## Soundness -/

namespace Content

/-- The event that a trigger is for, with rows of nothing. -/
def eventOf (c : Content) (g : StoredTrigger) : Except Failure RowEvent := do
  let n : ObjectName := { schema := some (schemaOf g.onTemporary), name := g.table }
  match c.source? n with
  | some (.inl t) => return Change.blank ((Target.table t).event g.body.event none none)
  | some (.inr v) =>
    let (_, rel) ← c.relation n
    return Change.blank ((Target.view v rel).event g.body.event none none)
  | none => throw (.noSuchTable n)

/-- Fails if something is gone that a clause on conflicts names. -/
def checkUpsert (ctx : Context) (target : Target) (u : Upsert) : Except Failure Unit := do
  let .table t := target | return ()
  let inner := Change.upsertContext ctx t t.name
  let assigned := (u.update.map fun (as, condition) => as.map Assignment.expr ++ condition.toList).getD []
  (u.target.map IndexTerm.expr ++ u.targetFilter.toList ++ assigned).forM fun e => do
    let _ ← e.meanings inner

/-- Fails if something is gone that a statement of a trigger names, apart from the columns that it gives values to. Of
several clauses on conflicts only the first counts. -/
def checkStep (c : Content) (stage : Stage) : RowStatement → Except Failure Unit
  | .insert i => do
    let target ← Target.lookUp c (stage.target i.target)
    let ctx := commonContext i.tables (stage.context c {})
    let _ ← i.source.mapM fun s => s.relation ctx
    i.upserts.head?.forM (checkUpsert ctx target)
  | .update u => do
    let target ← Target.lookUp c (stage.target u.target)
    let ctx := commonContext u.tables (stage.context c {})
    let p ← Change.rowPlan c target u.label ctx u.source u.condition []
    u.assignments.forM fun a => do
      let _ ← a.expr.meanings p.context
  | .delete d => do
    let target ← Target.lookUp c (stage.target d.target)
    let _ ← Change.rowPlan c target d.label (commonContext d.tables (stage.context c {})) none d.condition []
  | .select s => do
    let _ ← s.relation (stage.context c {})

/-- The stage on which a trigger is read. -/
def stageOf (c : Content) (g : StoredTrigger) : Except Failure Stage := do
  return (← c.eventOf g).stageOf {} g.temporary

/-- Fails if something that a trigger names is gone. -/
def checkTriggerBody (c : Content) (g : StoredTrigger) : Except Failure Unit := do
  let stage ← c.stageOf g
  let _ ← g.body.condition.mapM fun e => e.meaning (stage.context c {})
  g.body.steps.forM (c.checkStep stage)

/-- Tells in which object a failure is, and after which change. -/
def within {α : Type} (kind : ObjectKind) (name change : String) : Except Failure α → Except Failure α :=
  Except.mapError (.inObject kind name change)

/-- Fails if a table or index of a schema makes no sense. -/
def checkTables (c : Content) (temporary : Bool) (change : String) : Except Failure Unit := do
  (c.tables.filter fun t => t.temporary == temporary).forM fun t =>
    within .table t.name change do
      let _ ← c.rules { t with rows := [] }
  (c.indexes.filter fun i => i.temporary == temporary).forM fun i =>
    match c.tableIn? temporary i.table with
    | some t => within .index i.name change (checkIndex t i)
    | none => .ok ()

/-- Fails if a view or trigger names something that is gone. One of the main schema sees no temporary tables. -/
def checkReaders (c : Content) (temporary : Bool) (change : String) : Except Failure Unit := do
  (c.views.filter fun v => v.temporary || !temporary).forM fun v =>
    within .view v.name change do
      let _ ← c.viewColumns v
  (c.triggers.filter fun g => g.temporary || !temporary).forM fun g =>
    within .trigger g.name change (c.checkTriggerBody g)

end Content

end SchemaEditor.Store
