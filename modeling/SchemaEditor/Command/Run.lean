import SchemaEditor.Command.DatabasePath
import SchemaEditor.Command.Failure
import SchemaEditor.Command.Invocation
import SchemaEditor.Database.Rebuild
import SchemaEditor.Database.Transfer
import SchemaEditor.Settings

/-!
# Running a command

A run opens the database, does one thing, and commits; a dry run reverts instead. A run that fails commits
nothing. What it prints and which files it writes is its outcome.
-/

namespace SchemaEditor.Command

variable {σ φ : Type} [Engine σ] [Storage σ φ]

/-! ## What a run finds and what comes of it -/

structure Surroundings (φ : Type) where
  files : Files φ
  standardInput : Except FileError String

structure Outcome (φ : Type) where
  exitCode : Nat
  output : String
  errors : String
  files : Files φ

/-! ## The log -/

/-- The line of the log that an event makes, if it makes one. -/
def logLine? : Event → Option String
  | .executed _ => none
  | .warned w => some (line " WARN " w.report)
  | .noted n => some (line " INFO " n.report)
where
  line (level : String) (r : Report) : String :=
    level ++ r.message ++ String.join (r.fields.map fun f => " " ++ f.1 ++ "=" ++ f.2) ++ "\n"

/-- Takes the log out of a session. -/
def takeLog (s : Session σ) : String × Session σ :=
  (String.join (s.events.reverse.filterMap logLine?), { s with events := [] })

/-! ## Single commands -/

/-- What a command leaves behind: texts that go before and after the log of its operation, the text of the file
that it was told to write, and settings to be remembered. -/
structure Result where
  before : String := ""
  after : String := ""
  file : Option String := none
  settings : Option Settings := none
  /-- Why the operation stopped before its end. -/
  failure : Option Failure := none

abbrev Run (σ : Type) := EStateM Failure (Session σ)

namespace Run

def ofOp {α : Type} (op : Op σ α) : Run σ α := fun s =>
  match op s with
  | .ok a s => .ok a s
  | .error e s => .error (.database e) s

def fail {α : Type} (f : Failure) : Run σ α := fun s => .error f s

def ofExcept {α : Type} : Except Failure α → Run σ α
  | .ok a => pure a
  | .error f => fail f

/-- Reads column definitions as they stand in a CREATE TABLE statement. -/
def tableOf (name : String) (columns : List String) : Except Failure Table :=
  let definitions := ", ".intercalate columns
  match Table.parse ("CREATE TABLE x (" ++ definitions ++ ")") with
  | .ok t => .ok { t with name }
  | .error e => .error (.invalidColumns definitions e)

def fieldOf (definition : String) : Except Failure Field := do
  match (← tableOf "x" [definition]).fields with
  | [f] => return f
  | _ => throw (.notOneColumn definition)

def objectLine (o : SchemaObject) : String :=
  let tag := o.kind.tag
  tag ++ String.ofList (List.replicate (8 - tag.length) ' ') ++ " " ++ o.name
    ++ (if o.tableName = o.name then "" else " (on " ++ o.tableName ++ ")") ++ "\n"

def listObjects : Run σ Result := do
  let c ← ofOp Op.catalog
  return { after := String.join (c.objects.map objectLine) }

def showSchema (name : String) : Run σ Result := do
  match (← ofOp Op.catalog).get? name with
  | some o => return { after := o.sql ++ "\n" }
  | none => fail (.noObject name)

/-- Tells what a rebuild lost. -/
def reportText (r : RebuildReport) : String :=
  String.join (r.lost.map fun l =>
      "Could not recreate " ++ l.object.kind.tag ++ " '" ++ l.object.name ++ "': " ++ l.error.message ++ "\n")
    ++ String.join (r.discarded.map fun clause => "Not carried over: " ++ clause ++ "\n")

def rebuilding (op : Op σ RebuildReport) : Run σ Result := do
  return { after := reportText (← ofOp op) }

def importCsv (around : Surroundings φ) (settings : Settings) (table file : String) (format : CsvFormat) :
    Run σ Result := do
  let o := format.apply settings.importCsv
  match around.files.read file with
  | .error .isDirectory => fail (.database (.io FileError.isDirectory.message))
  | .error e => fail (.cannotOpen file e)
  | .ok bytes =>
    let rows ← ofOp (Op.importCsv table (Csv.linesOfBytes bytes) o Signal.never)
    return {
      after := "Imported " ++ toString rows ++ " rows into '" ++ table ++ "'\n"
      settings := some { settings with importCsv := o } }

def writeRows (isQuery : Bool) (source : String) (o : Csv.Options) : Run σ Written :=
  ofOp (if isQuery then Op.writeQuery source o Signal.never else Op.writeTable source o Signal.never)

def exportCsv (settings : Settings) (source : String) (isQuery : Bool) (output : Option String)
    (format : CsvFormat) : Run σ Result := do
  let o := format.apply settings.exportCsv
  let written ← writeRows isQuery source o
  let (before, file) := if output.isSome then ("", some written.text) else (written.text, none)
  if let some e := written.failure then return { before, file, failure := some (.database e) }
  let after := if output.isSome then "Exported " ++ toString written.rows ++ " rows\n" else ""
  return { before, after, file, settings := some { settings with exportCsv := o } }

def scriptText (around : Surroundings φ) : ScriptSource → Except Failure String
  | .text sql => .ok sql
  | .file path => (around.files.readText path).mapError (.cannotRead path)
  | .standardInput => around.standardInput.mapError .standardInput

def execute (around : Surroundings φ) (script : ScriptSource) : Run σ Result := do
  let sql ← ofExcept (scriptText around script)
  let statements ← ofOp (Op.executeScript sql Signal.never)
  ofOp (Op.note (.scriptExecuted statements))
  return {}

def perform (around : Surroundings φ) (settings : Settings) : Action → Run σ Result
  | .listObjects => listObjects
  | .showSchema name => showSchema name
  | .createTable name columns withoutRowid => do
    let t ← ofExcept (tableOf name columns)
    ofOp (Op.createTableFrom (if withoutRowid then t.setWithoutRowid true else t))
    return {}
  | .addColumn table definition => do
    let f ← ofExcept (fieldOf definition)
    ofOp (Op.addColumn table f)
    return {}
  | .renameColumn table column name => rebuilding (Op.renameColumn table column name Signal.never)
  | .modifyColumn table column definition => do
    let f ← ofExcept (fieldOf definition)
    rebuilding (Op.modifyColumn table column f Signal.never)
  | .moveColumn table column offset => rebuilding (Op.moveColumn table column offset Signal.never)
  | .dropColumn table column => rebuilding (Op.dropColumn table column Signal.never)
  | .renameTable source target => do
    ofOp (Op.renameTable source target)
    return {}
  | .importCsv table file format => importCsv around settings table file format
  | .exportCsv source isQuery output format => exportCsv settings source isQuery output format
  | .execute script => execute around script

/-- Settles the changes of a command: they are kept, or reverted in a dry run. -/
def finish (dryRun : Bool) : Run σ Unit := do
  if dryRun && (← ofOp Op.session).isDirty then
    ofOp (Op.note .dryRun)
    ofOp (Op.settle .rollback)
  else ofOp (Op.settle .commit)

end Run

/-! ## Whole runs -/

def ioFailure (e : FileError) : Failure := .database (.io e.message)

/-- The settings that are remembered; a file that is not there holds the usual ones. -/
def loadSettings (files : Files φ) (path : String) : Except Failure Settings := do
  if !(files.isThere path).toOption.getD false then return {}
  let text ← (files.readText path).mapError ioFailure
  (Settings.parse text).mapError fun e => .database (.serialization e)

/-- What stands where a database is to be opened. The engine is asked for a file that is not there by its path. -/
def findDatabase (files : Files φ) (path : String) : Except FileError (DatabaseFile φ) := do
  if ← files.isThere path then
    if files.isDirectory (← files.find path) then throw .isDirectory
    return files.databaseAt (files.place path)
  match files.databaseAt (files.place path) with
  | .bytes bytes => return .unseen bytes
  | file => return file

/-- Opens the database of a run. -/
def openDatabase (files : Files φ) (path : String) (settings : Settings) : Except Failure (Session σ) := do
  let file ← (findDatabase files path).mapError ioFailure
  let readOnly := files.place path matches .file _ true
  let options := { foreignKeys := settings.foreignKeys, createIfMissing := true, readOnly }
  (Session.openFile path file options).mapError .database

/-- Puts the content of a database in its place, if that is a file. -/
def Files.putDatabase (files : Files φ) (path : String) (c : Content φ) : Files φ :=
  match files.place path with
  | .file l _ => files.put l c
  | _ => files

/-- The files after a database was opened. A file that was not there is empty. -/
def filesOnOpening (files : Files φ) (path : String) : Files φ :=
  match files.databaseAt (files.place path) with
  | .missing => files.putDatabase path (.bytes [])
  | _ => files

/-- The place of the file that a command makes before it does anything. -/
def createdFile (files : Files φ) : Action → Except Failure (Option Location)
  | .exportCsv _ _ (some path) _ => ((files.writable path).mapError (.cannotCreate path)).map some
  | _ => .ok none

/-- A run that has come to its end: the session then, the files, and what was printed. -/
structure Ending (σ φ : Type) where
  session : Session σ
  files : Files φ
  output : String
  failure : Option Failure := none
  /-- The command has written over the database, and the engine has not written since. -/
  overwritten : Bool := false

/-- Saves the settings that a command leaves. -/
def saveSettings (path : String) (settings : Option Settings) (files : Files φ) : Option FileError × Files φ :=
  match settings with
  | none => (none, files)
  | some s =>
    match Files.save path s.render files with
    | .ok () files => (none, files)
    | .error e files => (some e, files)

/-- Whether a location is the place of a database. -/
def Files.isPlaceOf (files : Files φ) (path : String) (l : Location) : Bool :=
  match files.place path with
  | .file place _ => place == l
  | _ => false

/-- Saves the settings that a command leaves and settles its changes. -/
def settleRun (i : Invocation) (settings : Option Settings) (e : Ending σ φ) : Ending σ φ :=
  match saveSettings i.settings settings e.files with
  | (some f, files) => { e with files, failure := some (ioFailure f) }
  | (none, files) =>
    let saved := settings.bind fun _ => (files.writable i.settings).toOption
    let overwritten := e.overwritten || saved.any (files.isPlaceOf i.database)
    match Run.finish i.dryRun e.session with
    | .ok () s =>
      let (log, s) := takeLog s
      { e with session := s, files, output := e.output ++ log, overwritten := overwritten && !e.session.isDirty }
    | .error f s =>
      let (log, s) := takeLog s
      { e with session := s, files, output := e.output ++ log, failure := some f, overwritten }

/-- Does what a command is there for, on an open database. -/
def runOn (around : Surroundings φ) (i : Invocation) (settings : Settings) (s : Session σ) : Ending σ φ :=
  let (opened, s) := takeLog s
  match createdFile around.files i.action with
  | .error f => { session := s, files := around.files, output := opened, failure := some f }
  | .ok created =>
    let write (text : String) (files : Files φ) := (created.map fun l => files.put l (.ofText text)).getD files
    let files := write "" around.files
    let overwritten := created.any (around.files.isPlaceOf i.database)
    let s := if overwritten then { s with engine := Storage.emptied s.engine } else s
    match Run.perform { around with files } settings i.action s with
    | .error f s =>
      let (log, s) := takeLog s
      { session := s, files, output := opened ++ log, failure := some f, overwritten }
    | .ok result s =>
      let (log, s) := takeLog s
      let ending : Ending σ φ := {
        session := s
        files := write (result.file.getD "") files
        output := opened ++ result.before ++ log ++ result.after
        failure := result.failure
        overwritten }
      if result.failure.isSome then ending else settleRun i result.settings ending

/-- The outcome of a run. The file of the database holds what the connection leaves when it ends, unless it was
overwritten. -/
def Ending.outcome (path : String) (e : Ending σ φ) : Outcome φ where
  exitCode := if e.failure.isSome then 1 else 0
  output := e.output
  errors := (e.failure.map Failure.report).getD ""
  files := if e.overwritten then e.files else e.files.putDatabase path (.database (Storage.close e.session.engine))

/-- A run that fails before the database is open. -/
def Outcome.ofFailure (files : Files φ) (f : Failure) : Outcome φ := ⟨1, "", f.report, files⟩

variable (σ) in
/-- Runs a command on an engine of type `σ`. -/
def run (around : Surroundings φ) (i : Invocation) : Outcome φ :=
  match loadSettings around.files i.settings with
  | .error f => .ofFailure around.files f
  | .ok settings =>
    match (openDatabase around.files i.database settings : Except Failure (Session σ)) with
    | .error f => .ofFailure around.files f
    | .ok s =>
      let files := filesOnOpening around.files i.database
      (runOn { around with files } i settings s).outcome i.database

end SchemaEditor.Command
