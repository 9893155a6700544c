import SchemaEditor.Command.Options
import SchemaEditor.Csv.Options

/-!
# Invocations

The commands of the program with their arguments, and how they are read from the command line. A word that
does not fit makes the whole line unusable.
-/

namespace SchemaEditor.Command

/-- Changes to the remembered format of delimited text. -/
structure CsvFormat where
  separator : Option (Option Char) := none
  quote : Option (Option Char) := none
  newline : Option String := none
  header : Option Bool := none
deriving DecidableEq, Repr

def CsvFormat.apply (f : CsvFormat) (o : Csv.Options) : Csv.Options where
  header := f.header.getD o.header
  separator := f.separator.getD o.separator
  quote := f.quote.getD o.quote
  newline := f.newline.getD o.newline

inductive ScriptSource where
  | file (path : String)
  | text (sql : String)
  | standardInput
deriving DecidableEq, Repr

inductive Action where
  | listObjects
  | showSchema (name : String)
  | createTable (name : String) (columns : List String) (withoutRowid : Bool)
  | addColumn (table definition : String)
  | renameColumn (table column name : String)
  | modifyColumn (table column definition : String)
  | moveColumn (table column : String) (offset : Int)
  | dropColumn (table column : String)
  | renameTable (source target : String)
  | importCsv (table file : String) (format : CsvFormat)
  | exportCsv (source : String) (isQuery : Bool) (output : Option String) (format : CsvFormat)
  | execute (script : ScriptSource)
deriving DecidableEq, Repr

structure Invocation where
  database : String
  settings : String
  dryRun : Bool
  action : Action
deriving DecidableEq, Repr

/-! ## Values -/

/-- A path must not be empty. -/
def path? (s : String) : Option String := if s = "" then none else some s

def singleCharacter? (s : String) : Option Char :=
  match s.toList with
  | [c] => some c
  | _ => none

/-- A separator by its name or as it is. -/
def separator? (s : String) : Option (Option Char) :=
  match s.toLower with
  | "comma" => some (some ',')
  | "semicolon" => some (some ';')
  | "tab" => some (some '\t')
  | "pipe" => some (some '|')
  | "none" => some none
  | _ => (singleCharacter? s).map some

def quote? (s : String) : Option (Option Char) :=
  match s.toLower with
  | "double" => some (some '"')
  | "single" => some (some '\'')
  | "none" => some none
  | _ => (singleCharacter? s).map some

def newline? (s : String) : Option String :=
  match s.toLower with
  | "crlf" => some "\r\n"
  | "lf" => some "\n"
  | "" => none
  | _ => some s

def truth? : String → Option Bool
  | "true" => some true
  | "false" => some false
  | _ => none

def digits? (cs : List Char) : Option Nat :=
  if cs.isEmpty || !cs.all Char.isDigit then none
  else some (cs.foldl (fun n c => n * 10 + (c.toNat - '0'.toNat)) 0)

/-- A signed number of 64 bits. -/
def offset? (s : String) : Option Int :=
  let n : Option Int := match s.toList with
    | '-' :: cs => (digits? cs).map fun n => -(n : Int)
    | '+' :: cs => (digits? cs).map Int.ofNat
    | cs => (digits? cs).map Int.ofNat
  n.filter fun n => decide (-0x8000000000000000 ≤ n) && decide (n ≤ 0x7FFFFFFFFFFFFFFF)

/-- Reads a value if it is given. -/
def given {α : Type} (read : String → Option α) : Option String → Option (Option α)
  | none => some none
  | some s => (read s).map some

/-! ## Commands -/

def formatOptions : List OptionRule :=
  [{ name := "separator" }, { name := "quote" }, { name := "newline" }, { name := "header" }]

def formatOf (w : Words) : Option CsvFormat := do
  return {
    separator := ← given separator? (w.value? "separator")
    quote := ← given quote? (w.value? "quote")
    newline := ← given newline? (w.value? "newline")
    header := ← given truth? (w.value? "header") }

/-- The words of a command that has this many operands and no options. -/
def plain (operands : Nat) : Grammar := { options := [], required := operands, operands }

def grammars : List (String × Grammar) := [
  ("tables", plain 0),
  ("schema", plain 1),
  ("create-table", { plain 1 with options := [
    { name := "column", short := some 'c', repeatable := true }, { name := "without-rowid", takesValue := false }] }),
  ("add-column", plain 2),
  ("rename-column", plain 3),
  ("modify-column", plain 3),
  ("move-column", { plain 3 with dashed := some 2 }),
  ("drop-column", plain 2),
  ("rename-table", plain 2),
  ("import-csv", { plain 2 with options := formatOptions }),
  ("export-csv", { plain 1 with options := formatOptions ++ [
    { name := "query", takesValue := false }, { name := "output", short := some 'o' }] }),
  ("exec", { options := [{ name := "sql" }], operands := 1 })]

def actionOf (command : String) (w : Words) : Option Action :=
  match command, w.operands with
  | "tables", [] => some .listObjects
  | "schema", [name] => some (.showSchema name)
  | "create-table", [name] =>
    let columns := w.values "column"
    if columns.isEmpty then none else some (.createTable name columns (w.isSet "without-rowid"))
  | "add-column", [table, definition] => some (.addColumn table definition)
  | "rename-column", [table, column, name] => some (.renameColumn table column name)
  | "modify-column", [table, column, definition] => some (.modifyColumn table column definition)
  | "move-column", [table, column, offset] => (offset? offset).map (.moveColumn table column)
  | "drop-column", [table, column] => some (.dropColumn table column)
  | "rename-table", [source, target] => some (.renameTable source target)
  | "import-csv", [table, file] => return .importCsv table (← path? file) (← formatOf w)
  | "export-csv", [source] =>
    return .exportCsv source (w.isSet "query") (← given path? (w.value? "output")) (← formatOf w)
  | "exec", operands =>
    match operands, w.value? "sql" with
    | [], some sql => some (.execute (.text sql))
    | [], none => some (.execute .standardInput)
    | [file], none => (path? file).map fun path => .execute (.file path)
    | _, _ => none
  | _, _ => none

/-- The options before the command. -/
def mainGrammar : Grammar where
  options := [{ name := "database", short := some 'd' }, { name := "settings" },
    { name := "verbose", short := some 'v', takesValue := false }, { name := "dry-run", takesValue := false }]
  commands := grammars.map Prod.fst

def defaultSettings : String := "oxide-schema.json"

/-- Reads a command line. The paths of database and settings may also come from the environment. -/
def Invocation.ofArguments? (environment : String → Option String) (arguments : List String) :
    Option Invocation := do
  let w ← mainGrammar.read arguments
  let (command, rest) ← w.command
  let g ← (grammars.find? fun p => p.1 == command).map Prod.snd
  let action ← actionOf command (← g.read rest)
  let database ← (w.value? "database").orElse fun _ => environment "OXIDE_SCHEMA_DATABASE"
  let settings := (w.value? "settings").orElse fun _ => environment "OXIDE_SCHEMA_SETTINGS"
  return {
    database := ← path? database
    settings := ← path? (settings.getD defaultSettings)
    dryRun := w.isSet "dry-run"
    action }

end SchemaEditor.Command
