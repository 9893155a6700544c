import SchemaEditor.Database.File

/-!
# Files

The files and directories that a command sees, and what comes of reading and writing them. A path is walked step
by step, so a directory that a path leads through has to be there even if the path leads out of it again.
-/

namespace SchemaEditor.Command

inductive FileError where
  | notFound
  | exists
  | notDirectory
  | isDirectory
  | nameTooLong
  | encoding
deriving DecidableEq, Repr

def FileError.message : FileError → String
  | notFound => "No such file or directory (os error 2)"
  | «exists» => "File exists (os error 17)"
  | notDirectory => "Not a directory (os error 20)"
  | isDirectory => "Is a directory (os error 21)"
  | nameTooLong => "File name too long (os error 36)"
  | encoding => "stream did not contain valid UTF-8"

/-- The content of a file; a database that the engine wrote is kept as the engine has it. -/
inductive Content (φ : Type) where
  | bytes (bytes : List UInt8)
  | database (content : φ)

def Content.ofText {φ : Type} (text : String) : Content φ := .bytes text.toUTF8.toList

/-- The names that lead from the outermost directory to a file or directory. -/
abbrev Location := List String

structure Files (φ : Type) where
  /-- The directory that paths start from. -/
  here : Location := []
  directories : List Location := []
  files : List (Location × Content φ) := []

/-! ## Paths -/

/-- The steps of a path. A step without a name goes nowhere. -/
def steps (path : String) : List String := (path.toList.splitOn '/').map String.ofList

/-- The steps of a path without those at its end that have no name. -/
def namedSteps (path : String) : List String := ((steps path).reverse.dropWhile (· == "")).reverse

/-- Whether a step goes from a directory into something in it. -/
def isName (step : String) : Bool := step != "" && step != "." && step != ".."

/-- The steps of the directory that a path names as the one around it. -/
def outerSteps (path : String) : List String :=
  let isStep (i : Nat) (s : String) : Bool := s != "" && (s != "." || i == 0)
  (((steps path).zipIdx.filter fun (s, i) => isStep i s).map Prod.fst).dropLast

namespace Files

variable {φ : Type}

def isDirectory (f : Files φ) (l : Location) : Bool :=
  l.isEmpty || l.isPrefixOf f.here || f.directories.contains l

def content? (f : Files φ) (l : Location) : Option (Content φ) := f.files.lookup l

def isFile (f : Files φ) (l : Location) : Bool := (f.content? l).isSome

/-- Puts a content into a file, which may be new. -/
def put (f : Files φ) (l : Location) (c : Content φ) : Files φ :=
  if f.isFile l then { f with files := f.files.map fun file => if file.1 = l then (l, c) else file }
  else { f with files := f.files ++ [(l, c)] }

/-- Where the first step of a path starts. -/
def start (f : Files φ) (path : String) : Location := if path.startsWith "/" then [] else f.here

/-- A name in a directory, whether or not there is something of that name. -/
def member (l : Location) (name : String) : Except FileError Location :=
  if 255 < name.utf8ByteSize then .error .nameTooLong else .ok (l ++ [name])

/-- A step from one directory to another. -/
def step (f : Files φ) (l : Location) (s : String) : Except FileError Location := do
  if s = ".." then return l.dropLast
  if !isName s then return l
  let l ← member l s
  if f.isDirectory l then return l
  if f.isFile l then throw .notDirectory
  throw .notFound

/-- The directory that steps lead to. -/
def walk (f : Files φ) (path : String) (steps : List String) : Except FileError Location :=
  steps.foldlM f.step (f.start path)

/-- Where a path leads. Only the last name of a path need not be there; with a slash after it, it has to be a
directory. -/
def find (f : Files φ) (path : String) : Except FileError Location := do
  let last := (steps path).getLastD ""
  if isName last then member (← f.walk path (steps path).dropLast) last
  else f.walk path (steps path)

/-- Whether there is something at the end of a path. -/
def isThere (f : Files φ) (path : String) : Except FileError Bool :=
  match f.find path with
  | .ok l => .ok (f.isDirectory l || f.isFile l)
  | .error .notFound => .ok false
  | .error e => .error e

/-! ## Reading -/

/-- The bytes of a file. A database is nothing to be read as text. -/
def read (f : Files φ) (path : String) : Except FileError (List UInt8) := do
  let l ← f.find path
  if f.isDirectory l then throw .isDirectory
  match f.content? l with
  | some (.bytes bytes) => return bytes
  | some (.database _) => throw .encoding
  | none => throw .notFound

def readText (f : Files φ) (path : String) : Except FileError String := do
  match Text.Utf8.decode? (← f.read path) with
  | some cs => return String.ofList cs
  | none => throw .encoding

/-! ## Writing -/

/-- Where a file can be written, which may be new. -/
def writable (f : Files φ) (path : String) : Except FileError Location := do
  let l ← f.walk path (namedSteps path).dropLast
  let last := (steps path).getLastD ""
  if !isName last then throw .isDirectory
  let l ← member l last
  if f.isDirectory l then throw .isDirectory
  return l

/-- Makes a directory inside one that is there. -/
def makeDirectory (f : Files φ) (path : String) : Except FileError (Files φ) := do
  let named := namedSteps path
  let l ← f.walk path named.dropLast
  let last := named.getLastD ""
  if !isName last then throw .exists
  let l ← member l last
  if f.isDirectory l || f.isFile l then throw .exists
  return { f with directories := f.directories ++ [l] }

/-- Makes a directory unless it is there. -/
def ensureDirectory (path : String) : EStateM FileError (Files φ) Unit := fun f =>
  match f.makeDirectory path with
  | .ok f => .ok () f
  | .error e => if (f.walk path (steps path)).isOk then .ok () f else .error e f

/-- Makes a directory, and those around it that are missing. The steps are given from the last to the first. -/
def ensureDirectories : List String → EStateM FileError (Files φ) Unit
  | [] => return ()
  | s :: outer => do
    let path := "/".intercalate (s :: outer).reverse
    match (← get).makeDirectory path with
    | .error .notFound => do
      ensureDirectories outer
      ensureDirectory path
    | _ => ensureDirectory path

/-- Writes a file, in directories that are made if they are missing. -/
def save (path text : String) : EStateM FileError (Files φ) Unit := do
  let outer := outerSteps path
  ensureDirectories (if path.startsWith "/" then outer.reverse ++ [""] else outer.reverse)
  match (← get).writable path with
  | .ok l => modify fun f => f.put l (.ofText text)
  | .error e => throw e

end Files

end SchemaEditor.Command
