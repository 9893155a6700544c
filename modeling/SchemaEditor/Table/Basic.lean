import SchemaEditor.Table.Field

/-!
# Tables

The definition of a table: its columns in order, and how its rows are found. A table WITHOUT ROWID is
keyed by its primary key alone, and its row column is the first key column; any other table is keyed by a
number named `rowid`. The key columns may be declared in an order of their own, `keyOrder`.

Columns are looked up by name without regard to ASCII case, and the first match counts.
-/

namespace SchemaEditor

/-- Why a definition makes no table. -/
inductive ModelError where
  | emptyTableName
  | emptyFieldName
  | duplicateField (name : String)
  | invalidAutoIncrement (name : String)
  | withoutRowidWithoutPrimaryKey
  | invalidRowidColumn (name : String)
deriving DecidableEq, Repr

def ModelError.message : ModelError → String
  | emptyTableName => "table name must not be empty"
  | emptyFieldName => "field name must not be empty"
  | duplicateField name => "duplicate field name '" ++ name ++ "'"
  | invalidAutoIncrement name =>
    "AUTOINCREMENT on '" ++ name ++ "' requires it to be the only primary key and of type integer"
  | withoutRowidWithoutPrimaryKey => "a WITHOUT ROWID table needs a PRIMARY KEY"
  | invalidRowidColumn name => "rowid column '" ++ name ++ "' is not a primary key field"

def defaultRowidColumn : String := "rowid"

structure Table where
  name : String := ""
  fields : List Field := []
  rowidColumn : String := defaultRowidColumn
  withoutRowid : Bool := false
  keyOrder : List String := []
deriving DecidableEq, Repr, Inhabited

namespace Table

def addField (t : Table) (f : Field) : Table := { t with fields := t.fields ++ [f] }

def fieldNames (t : Table) : List String := t.fields.map Field.name

def find? (t : Table) (name : String) : Option Nat := t.fields.findIdx? fun f => f.isNamed name

def field? (t : Table) (name : String) : Option Field := t.fields.find? fun f => f.isNamed name

/-- Changes a column in place; names and keys that point to it stay as they are. -/
def modifyField? (t : Table) (name : String) (change : Field → Field) : Option Table :=
  (t.find? name).map fun i => { t with fields := t.fields.modify i change }

/-- Replaces the first element that satisfies `p`. -/
def replaceFirst {α : Type} (p : α → Bool) (b : α) : List α → List α
  | [] => []
  | a :: as => if p a then b :: as else a :: replaceFirst p b as

/-- Replaces a column. The row column and the key order follow it if it was in them. Also returns the
column that was there. -/
def setField? (t : Table) (i : Nat) (f : Field) : Option (Field × Table) :=
  t.fields[i]?.map fun old =>
    (old, { t with
      fields := t.fields.set i f
      rowidColumn := if t.withoutRowid && old.isNamed t.rowidColumn then f.name else t.rowidColumn
      keyOrder := replaceFirst old.isNamed f.name t.keyOrder })

def primaryKey (t : Table) : List Field := t.fields.filter Field.primaryKey

/-- Removes a column. A row column that is removed gives way to the first key column left, if any. -/
def removeField? (t : Table) (name : String) : Option (Field × Table) := do
  let i ← t.find? name
  let old ← t.fields[i]?
  let fields := t.fields.eraseIdx i
  let rowidColumn :=
    if t.withoutRowid && old.isNamed t.rowidColumn then
      match fields.find? Field.primaryKey with
      | some key => key.name
      | none => t.rowidColumn
    else t.rowidColumn
  pure (old, { t with fields, rowidColumn, keyOrder := t.keyOrder.filter fun k => !old.isNamed k })

/-- Exchanges two columns. -/
def swapFields? (t : Table) (i j : Nat) : Option Table := do
  let a ← t.fields[i]?
  let b ← t.fields[j]?
  pure { t with fields := (t.fields.set i b).set j a }

/-! ## Keys -/

/-- Appends a key column that is not in the list yet. -/
def collectKey (keys : List Field) (f : Field) : List Field :=
  if f.primaryKey && !keys.any (·.isNamed f.name) then keys ++ [f] else keys

/-- The key columns in the order of the key: those with a declared place first, then the others in column
order. -/
def primaryKeyOrder (t : Table) : List Field :=
  (t.keyOrder.filterMap t.field? ++ t.primaryKey).foldl collectKey []

/-- Declares the order of the key. The column order needs no declaration and is not kept. -/
def setPrimaryKeyOrder (t : Table) (names : List String) : Table :=
  { t with keyOrder := if t.primaryKey.map Field.name = names then [] else names }

def setRowidColumn (t : Table) (name : String) : Table :=
  { t with rowidColumn := name, withoutRowid := name != defaultRowidColumn }

def setWithoutRowid (t : Table) (withoutRowid : Bool) : Table :=
  { t with
    withoutRowid
    rowidColumn :=
      match withoutRowid, t.primaryKey with
      | true, key :: _ => key.name
      | _, _ => defaultRowidColumn }

/-! ## Validity -/

def validateNames (earlier : List Field) : List Field → Except ModelError Unit
  | [] => .ok ()
  | f :: fs =>
    if f.name = "" then .error .emptyFieldName
    else if earlier.any (·.isNamed f.name) then .error (.duplicateField f.name)
    else validateNames (earlier ++ [f]) fs

/-- Only a column that stands for the row number can count up. -/
def mayAutoIncrement (t : Table) (f : Field) : Bool :=
  t.primaryKey.length == 1 && f.primaryKey && f.isInteger && !t.withoutRowid

def validateAutoIncrement (t : Table) : Except ModelError Unit :=
  match t.fields.find? fun f => f.autoIncrement && !t.mayAutoIncrement f with
  | some f => .error (.invalidAutoIncrement f.name)
  | none => .ok ()

def validateRowid (t : Table) : Except ModelError Unit :=
  if !t.withoutRowid then .ok ()
  else if t.primaryKey.isEmpty then .error .withoutRowidWithoutPrimaryKey
  else if (t.field? t.rowidColumn).any Field.primaryKey then .ok ()
  else .error (.invalidRowidColumn t.rowidColumn)

def validate (t : Table) : Except ModelError Unit := do
  if t.name = "" then throw .emptyTableName
  validateNames [] t.fields
  t.validateAutoIncrement
  t.validateRowid

end Table

end SchemaEditor
