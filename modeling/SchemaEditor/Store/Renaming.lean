import SchemaEditor.Store.Editing
import SchemaEditor.Store.Occurrence

/-!
# New names

A table or column that gets another name changes wherever it is mentioned, in statements of any kind. What is only
spelled like it stays. All that sees it has to make sense before and after.
-/

namespace SchemaEditor.Store

namespace Occurrence

def places (isMeant : Mention → Bool) (os : List Occurrence) : List Nat :=
  (os.filter fun o => isMeant o.mention).map Occurrence.place

end Occurrence

namespace StoredTable

def isOrigin (t : StoredTable) (o : Origin) : Bool := o.temporary == t.temporary && sameName o.table t.name

/-- Whether the table itself is mentioned. -/
def isMeant (t : StoredTable) : Mention → Bool
  | .table o => t.isOrigin o
  | _ => false

/-- Whether a column of the table is mentioned. -/
def isColumnMeant (t : StoredTable) (i : Nat) : Mention → Bool
  | .column o j => t.isOrigin o && i == j
  | _ => false

end StoredTable

def Mention.isText : Mention → Bool
  | .text _ => true
  | _ => false

namespace Content

def findAltered (c : Content) (n : ObjectName) (onView : String → Failure) : Except Failure StoredTable := do
  match c.source? n with
  | some (.inl t) =>
    if isReserved t.name then throw (.invalid ("table " ++ t.name ++ " may not be altered"))
    return t
  | some (.inr v) => throw (onView v.name)
  | none =>
    if (listed? n).isSome then throw (.invalid ("table " ++ n.name ++ " may not be altered"))
    throw (.noSuchTable n)

/-- What a view mentions. -/
def viewOccurrences (c : Content) (v : StoredView) : Except Failure (List Occurrence) := do
  (← readView v.sql).2.select.occurrences (viewContext v (c.relationUpTo c.views.length))

/-- What the condition and the statements of a trigger mention. -/
def triggerOccurrences (c : Content) (g : StoredTrigger) : Except Failure (List Occurrence) := do
  (← readTrigger g.sql).2.occurrences c (← c.stageOf g)

def tableTextOccurrences (t : StoredTable) : Except Failure (List Occurrence) := do
  let (_, body) ← readTable t.sql
  return (← body.checkOccurrences t) ++ (← body.generationOccurrences t)

def indexOccurrences (t : StoredTable) (i : StoredIndex) : Except Failure (List Occurrence) := do
  let (_, body) ← readIndex i.sql
  return (← body.termOccurrences t) ++ (← body.filterOccurrences t)

/-- Edits the statements of views and triggers, where they mention what is meant. -/
def editReaders (c : Content) (sees : Bool → Bool) (isMeant : Mention → Bool)
    (write : Token → Option Char → List Char) : Except Failure Content := do
  let views ← c.views.mapM fun v => do
    if !sees v.temporary then return v
    v.reread (edited write (Occurrence.places isMeant (← c.viewOccurrences v)) v.sql)
  let triggers ← c.triggers.mapM fun g => do
    if !sees g.temporary then return g
    g.reread g.table (edited write (Occurrence.places isMeant (← c.triggerOccurrences g)) g.sql)
  return { c with views, triggers }

/-! ## Names of tables -/

/-- Where the statement of a table names the table that gets another name. Without `everywhere` that is only the table
itself and, if foreign keys are enforced, references to it. -/
def tablePlaces (everywhere enforce : Bool) (t u : StoredTable) (isTarget : Bool) : Except Failure (List Nat) := do
  let (c, body) ← readTable u.sql
  let own := if isTarget then c.target.place.toList else []
  let checks ← if isTarget && everywhere then body.checkOccurrences u else pure []
  let references := (body.referenceClauses.map fun (_, r) => r.parent).filter fun n => sameName n.name t.name
  return own ++ Occurrence.places t.isMeant checks
    ++ if everywhere || enforce then references.filterMap ObjectName.place else []

def renameIndex (everywhere : Bool) (t : StoredTable) (new : String) (i : StoredIndex) : Except Failure StoredIndex := do
  let (_, body) ← readIndex i.sql
  let filter ← if everywhere then body.filterOccurrences t else pure []
  i.reread new (edited (writtenTableName new) (body.table.place.toList ++ Occurrence.places t.isMeant filter) i.sql)

/-- Gives the table that a trigger is for its new name. -/
def renameOwner (new : String) (g : StoredTrigger) : Except Failure StoredTrigger := do
  let (_, body) ← readTrigger g.sql
  g.reread new (edited (writtenTableName new) body.table.place.toList g.sql)

/-- Gives a table a new name. With `everywhere` it changes wherever it is named, and all that sees it has to
make sense; else only the table itself changes, and what belongs to it. -/
def renameTable (c : Content) (everywhere enforce : Bool) (n : ObjectName) (name : String) : Except Failure Content := do
  let t ← c.findAltered n fun view => .invalid ("view " ++ view ++ " may not be altered")
  if (c.tableKind? t.temporary name).isSome || (c.indexIn? t.temporary name).isSome then throw (.takenTarget name)
  checkName name
  if everywhere then c.checkReaders t.temporary ""
  let sees (temporary : Bool) : Bool := everywhere && (temporary || !t.temporary)
  let isOn (temporary : Bool) (table : String) : Bool := temporary == t.temporary && sameName table t.name
  let changed ← c.editReaders sees t.isMeant (writtenTableName name)
  let tables ← c.tables.mapM fun u => do
    let isTarget := isTable u t.temporary t.name
    if u.temporary != t.temporary || isReserved u.name then return u
    let places ← tablePlaces everywhere enforce t u isTarget
    u.reread (if isTarget then name else u.name) (edited (writtenTableName name) places u.sql)
  let indexes ← c.indexes.mapM fun i => if isOn i.temporary i.table then renameIndex everywhere t name i else .ok i
  let triggers ← changed.triggers.mapM fun g => if isOn g.onTemporary g.table then renameOwner name g else .ok g
  let renamed := { changed with tables, indexes, triggers }.renameCounter t name
  renamed.checkTables t.temporary "rename"
  if everywhere then renamed.checkReaders t.temporary "rename"
  return renamed

/-! ## Names of columns -/

/-- Writes texts that stand in double quotes in single quotes, in all that sees the objects of a schema. -/
def withSingleQuotes (c : Content) (temporary : Bool) : Except Failure Content := do
  let sees (other : Bool) : Bool := other || !temporary
  let changed ← c.editReaders sees Mention.isText writtenText
  let tables ← c.tables.mapM fun t => do
    if !sees t.temporary || isReserved t.name then return t
    t.reread t.name (edited writtenText (Occurrence.places Mention.isText (← tableTextOccurrences t)) t.sql)
  let indexes ← c.indexes.mapM fun i => do
    let some t := c.tableIn? i.temporary i.table | return i
    if !sees i.temporary then return i
    i.reread i.table (edited writtenText (Occurrence.places Mention.isText (← indexOccurrences t i)) i.sql)
  return { changed with tables, indexes }

/-- Fails if something that is mentioned has become a text. -/
def checkNoText (os : List Occurrence) : Except Failure Unit :=
  os.forM fun o =>
    match o.mention with
    | .text s => .error (.noSuchColumn s)
    | _ => .ok ()

/-- Fails if something makes no sense that sees the tables of a schema, or if names in quotes mean no columns of their
table any more. Readers count only with `everywhere`. -/
def checkChanged (c : Content) (everywhere temporary : Bool) (change : String) : Except Failure Unit := do
  c.checkTables temporary change
  (c.tables.filter fun t => t.temporary == temporary).forM fun t =>
    within .table t.name change do checkNoText (← tableTextOccurrences t)
  (c.indexes.filter fun i => i.temporary == temporary).forM fun i =>
    match c.tableIn? temporary i.table with
    | some t => within .index i.name change do checkNoText (← indexOccurrences t i)
    | none => .ok ()
  if everywhere then c.checkReaders temporary change

/-- The content before columns change: readers make sense, and texts are in single quotes. Without `everywhere` it is
not told which reader makes no sense. -/
def prepared (c : Content) (everywhere temporary : Bool) : Except Failure Content := do
  let check := c.checkReaders temporary ""
  if everywhere then check else check.mapError fun _ => .invalid "SQL logic error"
  c.withSingleQuotes temporary

/-- Where the statement of a table names a column of `t`. -/
def columnPlaces (t u : StoredTable) (i : Nat) (old : String) : Except Failure (List Nat) := do
  let (_, body) ← readTable u.sql
  let isTarget := isTable u t.temporary t.name
  let isOld (n : ColumnName) : Bool := sameName n.name old
  let referring := body.referenceClauses.flatMap fun (columns, r) =>
    (if isTarget then columns.filter isOld else [])
      ++ if sameName r.parent.name t.name then r.parentColumns.filter isOld else []
  let own ← if isTarget then
      pure ((← body.checkOccurrences u) ++ (← body.keyOccurrences u) ++ (← body.generationOccurrences u))
    else pure []
  let column := if isTarget then body.columns[i]?.bind ColumnDefinition.place else none
  return column.toList ++ Occurrence.places (t.isColumnMeant i) own ++ referring.filterMap ColumnName.place

/-- Where a trigger waits for a change of a column. -/
def eventPlaces (t : StoredTable) (old : String) (g : StoredTrigger) : Except Failure (List Nat) := do
  if !(g.onTemporary == t.temporary && sameName g.table t.name) then return []
  match (← readTrigger g.sql).2.event with
  | .update columns => return (columns.filter fun n => sameName n.name old).filterMap ColumnName.place
  | _ => return []

/-- Gives a column a new name wherever it is named. With `everywhere` all that sees it has to make sense after it. -/
def renameColumn (c : Content) (everywhere : Bool) (n : ObjectName) (old new : String) (quoted : Bool) :
    Except Failure Content := do
  let t ← c.findAltered n fun view => .invalid ("cannot rename columns of view \"" ++ view ++ "\"")
  let some i := Definition.find? t.definition.columns old | throw (.noSuchColumn ("\"" ++ old ++ "\""))
  let c ← c.prepared everywhere t.temporary
  let write := writtenColumnName new quoted
  let isOn (temporary : Bool) (table : String) : Bool := temporary == t.temporary && sameName table t.name
  let sees (temporary : Bool) : Bool := temporary || !t.temporary
  let tables ← c.tables.mapM fun u => do
    if u.temporary != t.temporary || isReserved u.name then return u
    within .table u.name "rename" do u.reread u.name (edited write (← columnPlaces t u i old) u.sql)
  let indexes ← c.indexes.mapM fun index => do
    if !isOn index.temporary index.table then return index
    let os ← indexOccurrences t index
    index.reread index.table (edited write (Occurrence.places (t.isColumnMeant i) os) index.sql)
  let views ← c.views.mapM fun v => do
    if !sees v.temporary then return v
    v.reread (edited write (Occurrence.places (t.isColumnMeant i) (← c.viewOccurrences v)) v.sql)
  let triggers ← c.triggers.mapM fun g => do
    if !sees g.temporary then return g
    let places := (← eventPlaces t old g) ++ Occurrence.places (t.isColumnMeant i) (← c.triggerOccurrences g)
    g.reread g.table (edited write places g.sql)
  let renamed := { c with tables, indexes, views, triggers }
  renamed.checkChanged everywhere t.temporary "rename"
  return renamed

end Content

end SchemaEditor.Store
