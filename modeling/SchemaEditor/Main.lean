import SchemaEditor.Command.Run
import SchemaEditor.Store.Image

/-!
# The program

Reads the command line and what stands at the paths it names, runs the command, prints what it prints and writes
the files that it leaves.
-/

open SchemaEditor Command

namespace SchemaEditor

/-- The paths that a run looks at. -/
def pathsOf (i : Invocation) : List String :=
  [i.settings, i.database] ++ match i.action with
    | .importCsv _ file _ => [file]
    | .exportCsv _ _ (some output) _ => [output]
    | .execute (.file path) => [path]
    | _ => []

/-- The locations that a path leads through. -/
def visited (files : Files Store.Content) (path : String) : List Location :=
  (List.range ((steps path).length + 1)).map fun n => files.nominal ("/".intercalate ((steps path).take n))

def pathOf (l : Location) : String := "/" ++ "/".intercalate l

def fileContent (bytes : List UInt8) : Content Store.Content :=
  match Store.Content.ofImage? bytes with
  | some content => .database content
  | none => .bytes bytes

/-- Adds what stands at a location. -/
def look (files : Files Store.Content) (l : Location) : IO (Files Store.Content) := do
  let path := (← IO.currentDir) / pathOf l
  if files.isDirectory l || files.isFile l then return files
  if ← path.isDir then return { files with directories := l :: files.directories }
  try
    return files.put l (fileContent (← IO.FS.readBinFile path).toList)
  catch _ => return files

def readFiles (i : Invocation) : IO (Files Store.Content) := do
  let here := (steps (← IO.currentDir).toString).filter (· != "")
  let databasePaths := (pathsOf i).flatMap fun path => [path, (path.splitOn "file:").getLastD path]
  (databasePaths.flatMap (visited { here })).foldlM look { here }

def readInput (i : Invocation) : IO (Except FileError String) := do
  match i.action with
  | .execute .standardInput =>
    let bytes ← (← IO.getStdin).readBinToEnd
    match Text.Utf8.decode? bytes.toList with
    | some cs => return .ok (String.ofList cs)
    | none => return .error .encoding
  | _ => return .ok ""

/-- Writes what a run leaves where it was not so before. -/
def writeFiles (before after : Files Store.Content) : IO Unit := do
  for l in after.directories do
    if !before.isDirectory l then IO.FS.createDirAll (pathOf l)
  for (l, c) in after.files do
    match c, before.content? l with
    | .bytes bytes, some (.bytes old) => if bytes != old then IO.FS.writeBinFile (pathOf l) ⟨bytes.toArray⟩
    | .bytes bytes, _ => IO.FS.writeBinFile (pathOf l) ⟨bytes.toArray⟩
    | .database content, _ => IO.FS.writeBinFile (pathOf l) ⟨content.image.toArray⟩

/-- Finds and does everything outside the run itself. -/
def runInvocation (i : Invocation) : IO (Outcome Store.Content) := do
  let files ← readFiles i
  let outcome := Command.run Store.State { files, standardInput := ← readInput i } i
  writeFiles files outcome.files
  return outcome

end SchemaEditor

def main (arguments : List String) : IO UInt32 := do
  let database ← IO.getEnv "OXIDE_SCHEMA_DATABASE"
  let settings ← IO.getEnv "OXIDE_SCHEMA_SETTINGS"
  let environment (name : String) : Option String :=
    if name == "OXIDE_SCHEMA_DATABASE" then database else if name == "OXIDE_SCHEMA_SETTINGS" then settings else none
  match Invocation.ofArguments? environment arguments with
  | none =>
    IO.eprintln "The command line cannot be understood."
    return 2
  | some i =>
    let outcome ← runInvocation i
    IO.print outcome.output
    IO.eprint outcome.errors
    return outcome.exitCode.toUInt32
