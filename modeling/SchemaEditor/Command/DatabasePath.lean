import SchemaEditor.Command.Files
import SchemaEditor.Json.Reader

/-!
# Where databases are

A path to a database that is there is followed like any other. The engine has its own way with the rest: it takes
out dots before it looks, it keeps a database in memory if the path is `:memory:`, and it reads a path that
begins with `file:` as a locator with options.
-/

namespace SchemaEditor.Command

/-- Where the engine keeps a database. -/
inductive Place where
  | memory
  | file (location : Location) (readOnly : Bool)
  /-- Nowhere, because it does not open the path. -/
  | refused (e : EngineError)
deriving DecidableEq, Repr

/-! ## Locators -/

/-- The byte that two hexadecimal digits stand for. -/
def hexByte? (high low : UInt8) : Option UInt8 := do
  return UInt8.ofNat ((← Json.Reader.hexDigit? high) * 16 + (← Json.Reader.hexDigit? low))

/-- Bytes with each percent sign and the two hexadecimal digits after it replaced by what they stand for. -/
def percentDecoded : List UInt8 → List UInt8
  | [] => []
  | [b] => [b]
  | [b, c] => [b, c]
  | b :: high :: low :: rest =>
    match b == '%'.toUInt8, hexByte? high low with
    | true, some byte => byte :: percentDecoded rest
    | _, _ => b :: percentDecoded (high :: low :: rest)

def percentDecode (cs : List Char) : String :=
  String.ofList (Text.Utf8.decodeLossy (percentDecoded (String.ofList cs).toUTF8.toList))

structure Locator where
  path : String
  options : List (String × String)

/-- Reads what follows `file:`. A host has to be this one. -/
def Locator.ofChars (cs : List Char) : Except EngineError Locator :=
  let cs := cs.takeWhile (· != '#')
  let target := cs.takeWhile (· != '?')
  let options := String.ofList (cs.dropWhile (· != '?') |>.drop 1)
  let (host, target) := match target with
    | '/' :: '/' :: rest => (rest.takeWhile (· != '/'), rest.dropWhile (· != '/'))
    | target => ([], target)
  if host.isEmpty || host == "localhost".toList then
    .ok {
      path := percentDecode target
      options := (options.splitOn "&").map fun o =>
        (percentDecode (o.toList.takeWhile (· != '=')), percentDecode (o.toList.dropWhile (· != '=') |>.drop 1)) }
  else .error { text := "invalid uri authority: " ++ String.ofList host }

/-- The values that an option can have. -/
def optionValues : List (String × String × List String) :=
  [("mode", "access", ["ro", "rw", "rwc", "memory"]), ("cache", "cache", ["shared", "private"])]

/-- Fails if an option has a value that it cannot have. -/
def Locator.checkOption (name value : String) : Except EngineError Unit :=
  match optionValues.lookup name with
  | some (what, values) =>
    if values.contains value then .ok () else .error { text := "no such " ++ what ++ " mode: " ++ value }
  | none => .ok ()

def Locator.value? (u : Locator) (name : String) : Option String := u.options.lookup name

/-- Whether the file is only to be read. -/
def Locator.isReadOnly (u : Locator) (mode : Option String) : Bool :=
  let isSet (value : String) : Bool :=
    ["on", "yes", "true"].contains value.toLower || (value.toNat?).any fun n => n % 256 != 0
  mode == some "ro" || (u.value? "immutable").any isSet

/-! ## Places -/

namespace Files

variable {φ : Type}

/-- The location of a path whose steps are taken by name alone. -/
def nominal (f : Files φ) (path : String) : Location :=
  (steps path).foldl (fun l s => if s = ".." then l.dropLast else if isName s then l ++ [s] else l) (f.start path)

/-- The place of a database by its path in the engine's reading. A database that is in no file has no path. -/
def placeOfPath (f : Files φ) (path : String) : Place :=
  if path = "" ∨ path = ":memory:" then .memory
  else
    let l := f.nominal path
    if f.isDirectory l.dropLast && !f.isDirectory l then .file l false else .refused cannotOpen

def placeOfLocator (f : Files φ) (u : Locator) : Place :=
  let mode := ((u.options.filter fun o => o.1 == "mode").getLast?).map Prod.snd
  let isNew := mode.all (· == "rwc")
  match u.options.forM fun (name, value) => Locator.checkOption name value, f.placeOfPath u.path with
  | .error e, _ => .refused e
  | .ok (), .file l _ =>
    if mode == some "memory" then .memory
    else if isNew || f.isFile l then .file l (u.isReadOnly mode) else .refused cannotOpen
  | .ok (), place => if mode == some "memory" then .memory else place

/-- Where the engine finds a database or puts a new one. -/
def place (f : Files φ) (path : String) : Place :=
  if path.startsWith "file:" then
    match Locator.ofChars (path.toList.drop 5) with
    | .ok u => f.placeOfLocator u
    | .error e => .refused e
  else f.placeOfPath path

/-- What is found at a place. -/
def databaseAt (f : Files φ) : Place → DatabaseFile φ
  | .memory => .missing
  | .refused e => .refused e
  | .file l _ =>
    match f.content? l with
    | none => .missing
    | some (.bytes bytes) => .bytes bytes
    | some (.database content) => .database content

end Files

end SchemaEditor.Command
