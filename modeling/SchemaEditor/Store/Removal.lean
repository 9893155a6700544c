import SchemaEditor.Store.Creation

/-!
# Dropping objects

Dropping a table deletes its rows first, which does to the rows that refer to them what their references ask for.
Then its indexes and triggers go with it.
-/

namespace SchemaEditor.Store

namespace Content

/-! ## Finding -/

/-- The schema in which a name is found first. -/
def firstSchema? (n : ObjectName) (isThere : Bool → Bool) : Option Bool := (schemas n).find? isThere

def missing {α : Type} (ifExists : Bool) (kind : ObjectKind) (n : ObjectName) (content : α) : Except Failure α :=
  if ifExists then .ok content else .error (.noSuchObject kind n)

/-! ## Tables -/

/-- Whether the rows of a table are deleted one by one before it is dropped: if other tables refer to it, or if
references of its own wait for the end of the transaction and some are violated. -/
def isCleared (c : Content) (hasViolations : Bool) (t : StoredTable) : Bool :=
  !(c.referencesTo t).isEmpty || (t.definition.references.any Reference.deferred && hasViolations)

/-- Deletes all rows of a table. Triggers do not fire, and references that lead nowhere do not matter. -/
def clearTable (c : Content) (stage : Stage) (t : StoredTable) : Change Unit := do
  let silent := c.triggers
  Change.setContent { c with triggers := [] }
  t.rows.forM fun r => do
    let _ ← Change.deleteRow (Change.runUpTo Change.maxDepth) stage t r
  Change.setContent { (← Change.content) with triggers := silent }

def dropTable (c : Content) (t : StoredTable) : Content := (c.removeTable t).removeCounter t

def checkDroppable (t : StoredTable) : Except Failure Unit :=
  if isReserved t.name then .error (.invalid ("table " ++ t.name ++ " may not be dropped")) else .ok ()

/-! ## Other objects -/

def dropView (c : Content) (v : StoredView) : Content :=
  let isOn (g : StoredTrigger) : Bool := g.onTemporary == v.temporary && sameName g.table v.name
  { c with
    views := c.views.filter fun u => !(u.temporary == v.temporary && sameName u.name v.name)
    triggers := c.triggers.filter fun g => !isOn g }

/-- Whether an index comes with a table. -/
def isAutoIndex (c : Content) (n : ObjectName) : Bool :=
  (schemas n).any fun temporary => (c.listing temporary).any fun r =>
    r.kind == "index" && r.sql.isNone && sameName r.name n.name

def dropIndex (c : Content) (ifExists : Bool) (n : ObjectName) : Except Failure Content :=
  match firstSchema? n fun temporary => (c.indexIn? temporary n.name).isSome with
  | some temporary =>
    .ok { c with indexes := c.indexes.filter fun i => !(i.temporary == temporary && sameName i.name n.name) }
  | none =>
    if c.isAutoIndex n then
      .error (.invalid "index associated with UNIQUE or PRIMARY KEY constraint cannot be dropped")
    else missing ifExists .index n c

def dropTrigger (c : Content) (ifExists : Bool) (n : ObjectName) : Except Failure Content :=
  let isNamed (temporary : Bool) (g : StoredTrigger) : Bool := g.temporary == temporary && sameName g.name n.name
  match firstSchema? n fun temporary => c.triggers.any (isNamed temporary) with
  | some temporary => .ok { c with triggers := c.triggers.filter fun g => !isNamed temporary g }
  | none => missing ifExists .trigger n c

end Content

end SchemaEditor.Store
