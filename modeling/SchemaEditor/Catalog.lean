import SchemaEditor.Engine.Basic
import SchemaEditor.Table.Parser

/-!
# The catalog

A catalog is a snapshot of the objects of a schema, in the engine's order. Names are looked up without
regard to ASCII case, and the first match counts.
-/

namespace SchemaEditor

inductive ObjectKind where
  | table
  | view
  | index
  | trigger
deriving DecidableEq, Repr

namespace ObjectKind

def tag : ObjectKind → String
  | table => "table"
  | view => "view"
  | index => "index"
  | trigger => "trigger"

def ofTag? (s : String) : Option ObjectKind :=
  [table, view, index, trigger].find? fun k => k.tag == s

/-- Why a tag names no kind. -/
def unknown (s : String) : String := "unknown object type '" ++ s ++ "'"

end ObjectKind

structure SchemaObject where
  kind : ObjectKind
  name : String
  /-- The table that an index or trigger belongs to; the object itself otherwise. -/
  tableName : String
  /-- Empty for an object that the engine made by itself. -/
  sql : String
  /-- The columns of a table or view. -/
  fields : List Field
deriving DecidableEq, Repr

/-- The definition of a table, read from its SQL. -/
def SchemaObject.table? (o : SchemaObject) : Option Table :=
  if o.kind = .table then some (Table.parseLenient o.sql) else none

/-- Stored SQL without carriage returns. -/
def withoutReturns (sql : String) : String := String.ofList (sql.toList.filter (· != '\r'))

structure Catalog where
  objects : List SchemaObject := []
deriving DecidableEq, Repr

namespace Catalog

def get? (c : Catalog) (name : String) : Option SchemaObject :=
  c.objects.find? fun o => sameName o.name name

/-- The object of this name, if it is a table. -/
def table? (c : Catalog) (name : String) : Option SchemaObject :=
  (c.get? name).filter fun o => o.kind = .table

def contains (c : Catalog) (name : String) : Bool := (c.get? name).isSome

def ofKind (c : Catalog) (kind : ObjectKind) : List SchemaObject := c.objects.filter fun o => o.kind = kind

/-- The indices and triggers of a table that have SQL to make them again. -/
def dependentsOf (c : Catalog) (table : String) : List SchemaObject :=
  c.objects.filter fun o =>
    o.kind != .table && sameName o.tableName table && !sameName o.name table && o.sql != ""

end Catalog

end SchemaEditor
