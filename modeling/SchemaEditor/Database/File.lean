import SchemaEditor.Database.Snapshot

/-!
# Database files

A file is opened as a database if it is empty or starts with the header of one.
-/

namespace SchemaEditor

/-! ## The header -/

def databaseHeader : List UInt8 := "SQLite format 3".toUTF8.toList ++ [0]

/-- Fills a buffer that has `room` bytes left from a file that comes in pieces. An empty piece is the end of
the file. -/
def fillBuffer (room : Nat) : List (List UInt8) → List UInt8
  | [] => []
  | piece :: pieces =>
    let taken := piece.take room
    if taken.isEmpty then [] else taken ++ fillBuffer (room - taken.length) pieces

/-- Whether a file that comes in pieces is empty or has the header of a database. The buffer of the header is
zero where the file has no bytes. -/
def hasHeader (pieces : List (List UInt8)) : Bool :=
  let read := fillBuffer databaseHeader.length pieces
  read.isEmpty || read.rightpad databaseHeader.length 0 == databaseHeader

/-! ## Opening -/

/-- What a path leads to. -/
inductive DatabaseFile (φ : Type) where
  | missing
  /-- The engine does not go there. -/
  | refused (e : EngineError)
  | bytes (content : List UInt8)
  /-- A file that only the engine looks into. -/
  | unseen (content : List UInt8)
  | database (content : φ)

structure DatabaseOptions where
  foreignKeys : Bool := false
  createIfMissing : Bool := false
  readOnly : Bool := false
deriving DecidableEq, Repr

variable {σ φ : Type} [Storage σ φ]

def cannotOpen : EngineError := { text := "unable to open database file" }

/-- What the engine makes of the bytes of a file. It takes an empty file for a new database. -/
def contentOfBytes (bytes : List UInt8) : Except SchemaError φ :=
  if bytes.isEmpty then .ok (Storage.empty σ) else (Storage.read σ bytes).mapError .engine

/-- What a file holds. -/
def contentOf (path : String) (file : DatabaseFile φ) (o : DatabaseOptions) : Except SchemaError φ :=
  match file with
  | .missing => if o.createIfMissing then .ok (Storage.empty σ) else .error (.engine cannotOpen)
  | .refused e => .error (.engine e)
  | .unseen bytes => contentOfBytes (σ := σ) bytes
  | .bytes bytes => if hasHeader [bytes] then contentOfBytes (σ := σ) bytes else .error (.notADatabase path)
  | .database content => .ok content

/-- The engine's state after it has connected to a file. -/
def connect (path : String) (file : DatabaseFile φ) (o : DatabaseOptions) : Except SchemaError σ := do
  let content ← contentOf (σ := σ) path file o
  return Storage.openFile content { foreignKeys := o.foreignKeys, readOnly := o.readOnly }

variable [Engine σ]

/-- A session on a connection, with the catalog read. -/
def Session.start (engine : σ) (location : Option String) : Except SchemaError (Session σ) :=
  match Op.refreshCatalog Signal.never { engine, location : Session σ } with
  | .ok _ s => .ok s
  | .error e _ => .error e

/-- Opens a database file. -/
def Session.openFile (path : String) (file : DatabaseFile φ) (o : DatabaseOptions) :
    Except SchemaError (Session σ) := do
  let s ← Session.start (← connect path file o) (some path)
  return s.report (.noted (.opened path))

/-- Opens a database that is in no file. -/
def Session.inMemory (foreignKeys : Bool) : Except SchemaError (Session σ) :=
  Session.start (Storage.openFile (Storage.empty σ) { foreignKeys, isFile := false }) none

end SchemaEditor
