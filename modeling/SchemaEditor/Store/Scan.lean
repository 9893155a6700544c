import SchemaEditor.Sql.Lexer
import SchemaEditor.Store.Content

/-!
# The order in which a table is read

A table is read in its own order, by row number or by key, or in the order of an index. An index serves if it
finds the rows that a condition asks for, if its entries hold all columns that are used and are estimated to be
smaller than the rows, or if it gives the order that is asked for.
-/

namespace SchemaEditor.Store

/-- What is asked of a table when it is read. -/
structure Demand where
  /-- The places of the columns that are used. -/
  used : List Nat
  /-- The column by which the rows are ordered in the end, and whether that order is descending. -/
  leading : Option (Nat × Bool) := none
  /-- The columns that a condition binds, and whether to a single value. -/
  bounds : List (Nat × Bool) := []

/-! ## Sizes -/

/-- The number in the type of a column, where it tells the length of texts or blobs. One that is too large tells
nothing. -/
def declaredLength (sqlType : String) : Nat :=
  let digits := (sqlType.toList.dropWhile (!·.isDigit)).takeWhile Char.isDigit
  let n := Numeral.ofDigits digits
  if n < 0x80000000 then n else 0

/-- The estimated size of a value, in units of four bytes. -/
def Column.size (c : Column) : Nat :=
  let holds (word : String) : Bool := containsWord word.toList c.sqlType.toUpper.toList
  if c.sqlType = "" then 1
  else match Affinity.ofType c.sqlType with
    | .text => if holds "CHAR" then min 255 (declaredLength c.sqlType / 4 + 1) else 5
    | .blob => if holds "BLOB(" then min 255 (declaredLength c.sqlType / 4 + 1) else 5
    | _ => 1

/-- Ten times the binary logarithm of a number from four on, roughly. -/
def tenfoldLog (n : Nat) : Nat :=
  if n < 8 then 20
  else
    let shift := Nat.log2 n - 3
    30 + 10 * shift + [0, 2, 3, 5, 6, 7, 8, 9].getD ((n >>> shift) % 8) 0

/-- The size of a table or an index that has entries of this many units. -/
def entrySize (units : Nat) : Nat := tenfoldLog (4 * units)

def sizeOf (columns : List Column) (places : List Nat) : Nat :=
  places.foldl (fun n i => n + (columns[i]?.map Column.size).getD 1) 0

/-! ## Ways to read -/

/-- A way to read a table in the order of some columns. -/
structure Path where
  order : List KeyColumn
  /-- The places of the columns whose values it gives. -/
  holds : List Nat
  cost : Nat
  /-- It reads the table itself. -/
  isTable : Bool

namespace StoredTable

def places (t : StoredTable) : List Nat := List.range t.definition.columns.length

def keyPlaces (t : StoredTable) : List Nat := t.definition.key.map KeyColumn.place

/-- The size of the rows. A number that no column stands for takes one unit. -/
def rowSize (t : StoredTable) : Nat :=
  entrySize (sizeOf t.definition.columns t.places + if t.definition.rowColumn.isSome then 0 else 1)

/-- The cost of reading an index that has entries of this many units. -/
def cost (t : StoredTable) (units : Nat) : Nat := 1 + 15 * entrySize units / t.rowSize

/-- The cost of reading rows by number. -/
def tableCost : Nat := 16

/-- The way by an index. Its entries end with what finds the row, which is the number or the key; the key is
not looked at in an index that comes with the table. -/
def indexPath (t : StoredTable) (key : List KeyColumn) (isAuto : Bool) : Path :=
  let own := key.map KeyColumn.place
  let columns := t.definition.columns
  if t.definition.withoutRowid then
    let rest := t.definition.key.filter fun k => !own.contains k.place
    { order := key ++ rest
      holds := if isAuto then own else own ++ t.keyPlaces
      cost := t.cost (sizeOf columns own + sizeOf columns (rest.map KeyColumn.place))
      isTable := false }
  else
    { order := key
      holds := own ++ t.definition.rowColumn.toList
      cost := t.cost (sizeOf columns own + 1)
      isTable := false }

/-- The way by the key of a table that has no row numbers. -/
def keyPath (t : StoredTable) : Path :=
  ⟨t.definition.key, t.places, t.cost (sizeOf t.definition.columns t.places), true⟩

def autoPath (t : StoredTable) (i : AutoIndex) : Path :=
  if i.isTable then t.keyPath else t.indexPath i.columns true

end StoredTable

namespace Content

/-- The ways to read a table by an index, the latest index first. -/
def indexPaths (c : Content) (t : StoredTable) : List Path :=
  let made := (c.indexesOf t).filterMap fun i =>
    if i.body.filter.isSome then none else (i.key? t.definition).map fun key => t.indexPath key false
  (t.definition.autoIndexes.map t.autoPath ++ made).reverse

/-- The cheapest of some ways; of equal ones the first. -/
def cheapest? : List Path → Option Path
  | [] => none
  | p :: ps =>
    match cheapest? ps with
    | some q => if q.cost < p.cost then some q else some p
    | none => some p

/-- Whether a way gives the order that is asked for, up to its direction. -/
def gives (t : StoredTable) (p : Path) (place : Nat) : Bool :=
  p.order.head?.any fun k =>
    k.place == place && k.collation == (t.definition.columns[place]?.map Column.collation).getD .binary

def binds (bounds : List (Nat × Bool)) (single : Bool) (k : KeyColumn) : Bool := bounds.contains (k.place, single)

/-- How well a way finds the rows that a condition asks for: ten times the columns that are bound to single
values, and one more if the next column is bound too. -/
def strength (bounds : List (Nat × Bool)) (order : List KeyColumn) : Nat :=
  let rest := order.dropWhile (binds bounds true)
  10 * (order.length - rest.length) + if rest.head?.any (binds bounds false) then 1 else 0

/-- The way that finds rows best; of equal ones the first. -/
def strongest? (bounds : List (Nat × Bool)) : List Path → Option (Nat × Path)
  | [] => none
  | p :: ps =>
    let n := strength bounds p.order
    match strongest? bounds ps with
    | some (m, q) => if n < m then some (m, q) else if n = 0 then none else some (n, p)
    | none => if n = 0 then none else some (n, p)

/-- The strength of the row number. -/
def rowStrength (t : StoredTable) (bounds : List (Nat × Bool)) : Nat :=
  match t.definition.rowColumn with
  | some i => if bounds.contains (i, true) then 1000 else if bounds.contains (i, false) then 2 else 0
  | none => 0

/-- The way that is taken to read a table; none stands for the order of the row numbers. -/
def path? (c : Content) (t : StoredTable) (d : Demand) : Option Path :=
  let paths := c.indexPaths t
  let covering := paths.filter fun p => d.used.all p.holds.contains
  let ordered : List Path := match d.leading with
    | some (place, _) => paths.filter (gives t · place)
    | none => []
  let orderedCovering := ordered.filter fun p => d.used.all p.holds.contains
  let numbered := d.leading.any fun (place, _) => t.definition.rowColumn == some place
  match strongest? d.bounds paths with
  | some (n, p) => if rowStrength t d.bounds < n then some p else none
  | none =>
    if numbered || rowStrength t d.bounds != 0 then none
    else
      (cheapest? orderedCovering).orElse fun _ => (cheapest? ordered).orElse fun _ =>
        (cheapest? covering).filter fun p => t.definition.withoutRowid || p.cost < StoredTable.tableCost

/-- Whether the rows of a table are read in the order that is asked for. -/
def sorts (c : Content) (t : StoredTable) (d : Demand) : Bool :=
  d.leading.any fun (place, _) =>
    match c.path? t d with
    | none => t.definition.rowColumn == some place
    | some p => gives t p place

/-- The rows of a table in the order in which they are read. -/
def scan (c : Content) (t : StoredTable) (d : Demand) : List Row :=
  match c.path? t d with
  | none =>
    let isReversed := d.leading.any fun (place, descending) => descending && t.definition.rowColumn == some place
    if isReversed then t.rows.reverse else t.rows
  | some p =>
    let compare (a b : Row) : Ordering := (compareBy p.order a.values b.values).then (Ord.compare a.rowid b.rowid)
    let rows := t.rows.mergeSort fun a b => compare a b != .gt
    let isReversed := d.leading.any fun (place, descending) =>
      p.order.head?.any fun k => k.place == place && k.descending != descending
    if isReversed then rows.reverse else rows

/-- Whatever the order, each row is read once. -/
theorem scan_perm (c : Content) (t : StoredTable) (d : Demand) : (c.scan t d).Perm t.rows := by
  unfold scan
  split
  · dsimp only
    split
    · exact List.reverse_perm _
    · exact .refl _
  · dsimp only
    split
    · exact (List.reverse_perm _).trans (List.mergeSort_perm _ _)
    · exact List.mergeSort_perm _ _

end Content

end SchemaEditor.Store
