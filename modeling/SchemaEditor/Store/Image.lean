import SchemaEditor.Database.File
import SchemaEditor.Json.Document
import SchemaEditor.Json.Printer
import SchemaEditor.Store.Connection

/-!
# Images of a store

The bytes of a database file: the header that marks it, and the content in JSON. Of the objects only their
text is written, and read again when the file is opened.
-/

namespace SchemaEditor.Store

/-! ## Writing -/

def integerToJson (n : Int) : Json := .number (toString n)

def valueToJson : Value → Json
  | .null => .null
  | .integer n => integerToJson n
  | .real x => .array [integerToJson x.toBits.toNat, .null]
  | .text s => .text s
  | .blob bytes => .array (bytes.map fun b => integerToJson b.toNat)

def rowToJson (r : Row) : Json := .array [integerToJson r.rowid, .array (r.values.map valueToJson)]

/-- An object: its age, the table that it belongs to, and its statement. -/
def objectToJson (serial : Nat) (table sql : String) (rest : List Json) : Json :=
  .array ([integerToJson serial, .text table, .text sql] ++ rest)

def tableToJson (t : StoredTable) : Json := objectToJson t.serial t.name t.sql [.array (t.rows.map rowToJson)]

def Content.toJson (c : Content) : Json :=
  .array [integerToJson c.userVersion, integerToJson c.schemaVersion, integerToJson c.applicationId, integerToJson c.serial,
    .array (c.tables.map tableToJson),
    .array (c.indexes.map fun i => objectToJson i.serial i.table i.sql []),
    .array (c.triggers.map fun g => objectToJson g.serial g.table g.sql []),
    .array (c.views.map fun v => objectToJson v.serial v.name v.sql [])]

/-- The bytes of the file that holds a content. -/
def Content.image (c : Content) : List UInt8 := databaseHeader ++ (c.toJson.print 0).toUTF8.toList

/-! ## Reading -/

def integerOfJson? : Json → Option Int
  | .number literal => literal.toInt?
  | _ => none

def byteOfJson? (v : Json) : Option UInt8 := (integerOfJson? v).map fun n => UInt8.ofNat n.toNat

def valueOfJson? : Json → Option Value
  | .null => some .null
  | .number literal => (literal.toInt?).map .integer
  | .text s => some (.text s)
  | .array [bits, .null] => (integerOfJson? bits).map fun n => .real (.ofBits (UInt64.ofNat n.toNat))
  | .array bytes => (bytes.mapM byteOfJson?).map .blob
  | _ => none

def rowOfJson? (v : Json) : Option Row := do
  let [rowid, values] ← Json.items? v | none
  return ⟨← integerOfJson? rowid, ← (← Json.items? values).mapM valueOfJson?⟩

/-- Reads an object: its age, its table, its statement, and what follows. -/
def objectOfJson? (v : Json) : Option (Nat × String × String × List Json) := do
  let serial :: table :: sql :: rest ← Json.items? v | none
  return ((← integerOfJson? serial).toNat, ← Json.text? table, ← Json.text? sql, rest)

def tableOfJson? (v : Json) : Option StoredTable := do
  let (serial, name, sql, rest) ← objectOfJson? v
  let [rows] := rest | none
  let definition ← (definitionOf name sql).toOption
  return { name, sql, temporary := false, serial, definition, rows := ← (← Json.items? rows).mapM rowOfJson? }

def indexOfJson? (v : Json) : Option StoredIndex := do
  let (serial, table, sql, _) ← objectOfJson? v
  let (c, body) ← (readIndex sql).toOption
  return ⟨c.target.name, table, sql, false, serial, body⟩

def triggerOfJson? (v : Json) : Option StoredTrigger := do
  let (serial, table, sql, _) ← objectOfJson? v
  let (c, body) ← (readTrigger sql).toOption
  return ⟨c.target.name, table, sql, false, serial, false, body⟩

def viewOfJson? (v : Json) : Option StoredView := do
  let (serial, _, sql, _) ← objectOfJson? v
  let (c, body) ← (readView sql).toOption
  return ⟨c.target.name, sql, false, serial, body⟩

def Content.ofJson? (v : Json) : Option Content := do
  let [userVersion, schemaVersion, applicationId, serial, tables, indexes, triggers, views] ← Json.items? v | none
  return {
    userVersion := ← integerOfJson? userVersion
    schemaVersion := ← integerOfJson? schemaVersion
    applicationId := ← integerOfJson? applicationId
    serial := (← integerOfJson? serial).toNat
    tables := ← (← Json.items? tables).mapM tableOfJson?
    indexes := ← (← Json.items? indexes).mapM indexOfJson?
    triggers := ← (← Json.items? triggers).mapM triggerOfJson?
    views := ← (← Json.items? views).mapM viewOfJson? }

/-- The content that a file holds, if it is an image. -/
def Content.ofImage? (bytes : List UInt8) : Option Content := do
  if !databaseHeader.isPrefixOf bytes then none
  let text ← Text.Utf8.decode? (bytes.drop databaseHeader.length)
  Content.ofJson? (← (Json.parse (String.ofList text)).toOption)

end SchemaEditor.Store
