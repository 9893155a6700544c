import SchemaEditor.Store.Query

/-!
# Rows of one table

What a table makes of the values of a row, and where it keeps the row: by number, or by key if it has no row
numbers.
-/

namespace SchemaEditor.Store

namespace StoredTable

def columnName (t : StoredTable) (i : Nat) : String := t.definition.columnName i

def objectName (t : StoredTable) : ObjectName := { schema := some (Content.schemaOf t.temporary), name := t.name }

/-! ## The place of a row -/

/-- Whether a row is kept before another. -/
def isBefore (t : StoredTable) (a b : Row) : Bool :=
  if t.definition.withoutRowid then compareBy t.definition.key a.values b.values == .lt
  else decide (a.rowid < b.rowid)

/-- Whether rows have the same number or key, and so cannot both be there. -/
def isSame (t : StoredTable) (a b : Row) : Bool := !t.isBefore a b && !t.isBefore b a

def find? (t : StoredTable) (r : Row) : Option Row := t.rows.find? (t.isSame r)

/-- Puts a row in its place. -/
def put (t : StoredTable) (r : Row) : StoredTable :=
  { t with rows := t.rows.takeWhile (t.isBefore · r) ++ r :: t.rows.dropWhile (t.isBefore · r) }

def remove (t : StoredTable) (r : Row) : StoredTable := { t with rows := t.rows.filter fun o => !t.isSame o r }

/-! ## The number of a row -/

/-- The number of the next row. A table with a counter also goes beyond that. If the largest number is taken, the
least free one is used, but not in a table with a counter. -/
def nextRowid (t : StoredTable) (counter : Int) : Except Failure Int :=
  let n := Content.nextRowid t.rows
  let n := if t.definition.autoIncrement then max n (counter + 1) else n
  if n ≤ maxInteger then .ok n
  else if t.definition.autoIncrement then .error .full
  else
    let isFree (n : Nat) : Bool := !t.rows.any fun r => r.rowid == n
    match (List.range (t.rows.length + 2)).find? fun n => decide (0 < n) && isFree n with
    | some n => .ok n
    | none => .error .full

/-- The number that a value stands for. -/
def rowidOf (v : Value) : Except Failure Int :=
  match Affinity.numeric.convert v with
  | .integer n => .ok n
  | _ => .error .typeMismatch

/-- A row with this number, which the column that stands for it holds too. -/
def withRowid (t : StoredTable) (n : Int) (values : List Value) : Row :=
  ⟨n, match t.definition.rowColumn with
    | some i => values.set i (.integer n)
    | none => values⟩

/-- The value that tells the number of a new row. -/
def rowidValue (t : StoredTable) (rowid : Value) (values : List Value) : Value :=
  match t.definition.rowColumn with
  | some i => values.getD i .null
  | none => rowid

/-- Gives a new row its number: the one that it is given, or else the next. -/
def numbered (t : StoredTable) (counter : Int) (rowid : Value) (values : List Value) : Except Failure Row := do
  if t.definition.withoutRowid then return ⟨0, values⟩
  match t.rowidValue rowid values with
  | .null => return t.withRowid (← t.nextRowid counter) values
  | v => return t.withRowid (← rowidOf v) values

/-! ## Values -/

def convert (t : StoredTable) (values : List Value) : List Value :=
  values.mapIdx fun i v =>
    match t.definition.columns[i]? with
    | some c => (c.affinity.getD .blob).convert v
    | none => v

/-- The default of a column before the column converts it. -/
def defaultValue (c : Column) : Except Failure Value :=
  match c.default with
  | none => .ok .null
  | some (.literal v) => .ok v
  | some e => do (← e.meaning (.isolated .query)).eval []

/-- Whether a value is an integer of 32 bits. -/
def isSmall : Value → Bool
  | .integer n => decide (n.natAbs < 0x80000000)
  | _ => false

/-- The default of a column in rows that were there before the column. A number that is no small integer is taken as
it is written. -/
def earlierValue (c : Column) : Except Failure Value := do
  let v ← defaultValue c
  match c.numeral, v with
  | none, v => return v
  | some text, v =>
    if isSmall v then return v
    let affinity := c.affinity.getD .blob
    return (if affinity = .blob then .numeric else affinity).convert (.text text)

/-- The values of all columns of a new row, of which some are given. The row number has no default. -/
def fullRow (t : StoredTable) (places : List Nat) (given : List Value) : Except Failure (List Value) :=
  t.definition.columns.zipIdx.mapM fun (c, i) =>
    match places.idxOf? i with
    | some k => .ok (given.getD k .null)
    | none => if t.definition.rowColumn = some i then .ok .null else defaultValue c

/-- The kind of a value as a failure tells it. -/
def kindName : Value → String
  | .null => "NULL"
  | .integer _ => "INT"
  | .real _ => "REAL"
  | .text _ => "TEXT"
  | .blob _ => "BLOB"

/-- Whether a column of a STRICT table takes a value. -/
def takes (sqlType : String) (v : Value) : Bool :=
  match sqlType.toUpper, v with
  | "ANY", _ | _, .null | "INT", .integer _ | "INTEGER", .integer _ | "REAL", .real _ | "TEXT", .text _
  | "BLOB", .blob _ => true
  | _, _ => false

/-- A STRICT table takes only values of the types of its columns. -/
def checkTypes (t : StoredTable) (values : List Value) : Except Failure Unit := do
  if t.definition.strict then
    (t.definition.columns.zip values).forM fun (c, v) => do
      if !takes c.sqlType v then throw (.wrongType (kindName v) c.sqlType.toUpper t.name c.name)

end StoredTable

end SchemaEditor.Store
