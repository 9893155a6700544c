import SchemaEditor.Database.File
import SchemaEditor.Store.Affinity
import SchemaEditor.Store.Failure

/-!
# Files made of pages

A database file is a sequence of pages of one size. A page is a node of a tree: a leaf holds entries, and any other
page leads to the pages below it. The tree of a table has its rows as entries, by number, and all other trees have
entries without numbers. What does not fit into a page goes on in a chain of further pages.
-/

namespace SchemaEditor.Store

def notADatabase : Failure := .invalid "file is not a database"

def malformed : Failure := .invalid "database disk image is malformed"

/-! ## Numbers in bytes -/

def byteAt (bytes : ByteArray) (i : Nat) : Nat := ((bytes[i]?).map UInt8.toNat).getD 0

/-- A number of `n` bytes from a place on, the highest byte first. -/
def numberAt (bytes : ByteArray) (i : Nat) : Nat → Nat
  | 0 => 0
  | n + 1 => numberAt bytes i n * 256 + byteAt bytes (i + n)

/-- The same with a sign. -/
def signedAt (bytes : ByteArray) (i n : Nat) : Int :=
  if byteAt bytes i < 128 then numberAt bytes i n else (numberAt bytes i n : Int) - (1 <<< (8 * n) : Nat)

/-- A number of as many bytes as it needs, and the place after it. All its bytes but the last are at least 128, and
the ninth byte is the last in any case. -/
def packedAt (bytes : ByteArray) (i : Nat) : Nat × Nat := go 8 0 i
where
  go : Nat → Nat → Nat → Nat × Nat
    | 0, n, i => (n * 256 + byteAt bytes i, i + 1)
    | more + 1, n, i =>
      let b := byteAt bytes i
      if b < 128 then (n * 128 + b, i + 1) else go more (n * 128 + (b - 128)) (i + 1)

/-! ## Texts -/

inductive TextEncoding where
  | utf8
  | utf16 (highFirst : Bool)
deriving DecidableEq, Repr

namespace TextEncoding

/-- The pairs of bytes as numbers. -/
def units (highFirst : Bool) : List UInt8 → List Nat
  | a :: b :: bytes =>
    (if highFirst then a.toNat * 256 + b.toNat else b.toNat * 256 + a.toNat) :: units highFirst bytes
  | _ => []

/-- The characters that some units spell. A half of a pair of units is no character by itself. -/
def characters : List Nat → List Char
  | [] => []
  | [u] => [character u]
  | u :: v :: us =>
    if 0xD800 ≤ u ∧ u < 0xDC00 ∧ 0xDC00 ≤ v ∧ v < 0xE000 then
      Char.ofNat (0x10000 + (u - 0xD800) * 0x400 + (v - 0xDC00)) :: characters us
    else character u :: characters (v :: us)
where
  character (u : Nat) : Char := if 0xD800 ≤ u ∧ u < 0xE000 then '\uFFFD' else Char.ofNat u

def decode (e : TextEncoding) (bytes : List UInt8) : String :=
  match e with
  | utf8 => String.ofList (Text.Utf8.decodeLossy bytes)
  | utf16 highFirst => String.ofList (characters (units highFirst bytes))

end TextEncoding

/-! ## Records -/

namespace Record

/-- The kinds of the fields of a record, which are at its front. -/
def kinds (bytes : ByteArray) (stop : Nat) : Nat → Nat → List Nat
  | 0, _ => []
  | fuel + 1, i =>
    if stop ≤ i then []
    else
      let (kind, next) := packedAt bytes i
      kind :: kinds bytes stop fuel next

/-- How many bytes a field has. -/
def size : Nat → Nat
  | 5 => 6
  | 6 | 7 => 8
  | kind => if kind < 5 then kind else if kind < 12 then 0 else (kind - 12) / 2

def value (e : TextEncoding) (bytes : ByteArray) (i : Nat) : Nat → Value
  | 0 | 10 | 11 => .null
  | 7 => realValue (.ofBits (UInt64.ofNat (numberAt bytes i 8)))
  | 8 => .integer 0
  | 9 => .integer 1
  | kind =>
    let content := (bytes.extract i (i + size kind)).toList
    if kind < 7 then .integer (signedAt bytes i (size kind))
    else if kind % 2 = 0 then .blob content
    else .text (e.decode content)

/-- The values of the fields from a place on. -/
def values (e : TextEncoding) (bytes : ByteArray) : Nat → List Nat → Except Failure (List Value)
  | _, [] => return []
  | i, kind :: kinds => do
    if bytes.size < i + size kind then throw malformed
    return value e bytes i kind :: (← values e bytes (i + size kind) kinds)

def read (e : TextEncoding) (bytes : ByteArray) : Except Failure (List Value) :=
  let (stop, i) := packedAt bytes 0
  if bytes.size < stop then .error malformed else values e bytes stop (kinds bytes stop stop i)

end Record

/-! ## Pages -/

structure PageFile where
  /-- Whole pages. -/
  bytes : ByteArray
  pageSize : Nat
  /-- How much of each page is used. -/
  usable : Nat
  /-- The number of pages. -/
  count : Nat
  encoding : TextEncoding

namespace PageFile

def pageSizes : List Nat := [512, 1024, 2048, 4096, 8192, 16384, 32768, 65536]

def encodingOf (n : Nat) : TextEncoding :=
  match n % 4 with
  | 2 => .utf16 false
  | 3 => .utf16 true
  | _ => .utf8

/-- Reads the header of a file. It may tell how many pages there are. -/
def ofBytes (content : List UInt8) : Except Failure PageFile := do
  let header : ByteArray := ⟨(content.take 100).toArray⟩
  let pageSize := byteAt header 16 * 0x100 + byteAt header 17 * 0x10000
  if !databaseHeader.isPrefixOf content || byteAt header 19 > 2 || numberAt header 21 3 ≠ 0x402020
      || !pageSizes.contains pageSize then
    throw notADatabase
  let present := (content.length + pageSize - 1) / pageSize
  let told := numberAt header 28 4
  let isTold := told ≠ 0 && numberAt header 24 4 == numberAt header 92 4
  let usable := pageSize - byteAt header 20
  if isTold && present < told then throw malformed
  if usable < 480 then throw notADatabase
  if byteAt header 47 > 4 then throw (.invalid "unsupported file format")
  return {
    bytes := ⟨(content.rightpad (present * pageSize) 0).toArray⟩
    pageSize
    usable
    count := if isTold then told else present
    encoding := encodingOf (numberAt header 56 4) }

inductive TreeKind where
  /-- The rows of a table, with their numbers. -/
  | numbered
  | plain
deriving DecidableEq, Repr

structure Entry where
  rowid : Int
  values : List Value

/-- Takes `left` more bytes from a chain of pages that starts with `page`. -/
def chain (f : PageFile) : Nat → Nat → Nat → ByteArray → Except Failure ByteArray
  | 0, _, _, _ => .error malformed
  | fuel + 1, page, left, taken =>
    if left = 0 then .ok taken
    else if page = 0 || f.count < page then .error malformed
    else
      let start := (page - 1) * f.pageSize
      let size := min left (f.usable - 4)
      f.chain fuel (numberAt f.bytes start 4) (left - size) (taken ++ f.bytes.extract (start + 4) (start + 4 + size))

/-- How many of the bytes of an entry are in its page. -/
def localSize (f : PageFile) (kind : TreeKind) (size : Nat) : Nat :=
  let most := match kind with
    | .numbered => f.usable - 35
    | .plain => (f.usable - 12) * 64 / 255 - 23
  let least := (f.usable - 12) * 32 / 255 - 23
  if size ≤ most then size
  else
    let fitting := least + (size - least) % (f.usable - 4)
    if fitting ≤ most then fitting else least

/-- The entry at a place of the page that ends at `stop`. -/
def entry (f : PageFile) (kind : TreeKind) (stop i : Nat) : Except Failure Entry := do
  let (size, i) := packedAt f.bytes i
  let (number, i) := match kind with
    | .numbered => packedAt f.bytes i
    | .plain => (0, i)
  let here := f.localSize kind size
  if stop < i + here || f.bytes.size < size then throw malformed
  let content ← f.chain (f.count + 1) (numberAt f.bytes (i + here) 4) (size - here) (f.bytes.extract i (i + here))
  return ⟨ofBits number, ← Record.read f.encoding content⟩

/-- The marks of leaves and of other pages. -/
def marks : TreeKind → Nat × Nat
  | .numbered => (13, 5)
  | .plain => (10, 2)

/-- The entries of a page and those below it, in order. -/
def entriesBelow (f : PageFile) (kind : TreeKind) : Nat → Nat → Except Failure (List Entry)
  | 0, _ => .error malformed
  | depth + 1, page => do
    if page = 0 || f.count < page then throw malformed
    let start := (page - 1) * f.pageSize
    let header := if page = 1 then 100 else start
    let mark := byteAt f.bytes header
    let places (first : Nat) : List Nat :=
      (List.range (numberAt f.bytes (header + 3) 2)).map fun k =>
        start + numberAt f.bytes (header + first + 2 * k) 2 % f.pageSize
    if mark = (marks kind).1 then (places 8).mapM (f.entry kind (start + f.pageSize))
    else if mark = (marks kind).2 then
      let before ← (places 12).flatMapM fun i => do
        let below ← f.entriesBelow kind depth (numberAt f.bytes i 4)
        match kind with
        | .numbered => return below
        | .plain => return below ++ [← f.entry kind (start + f.pageSize) (i + 4)]
      return before ++ (← f.entriesBelow kind depth (numberAt f.bytes (header + 8) 4))
    else throw malformed

/-- The most pages between an entry and the root of its tree. -/
def maxDepth : Nat := 20

/-- The entries of a tree. -/
def entries (f : PageFile) (kind : TreeKind) (root : Nat) : Except Failure (List Entry) := f.entriesBelow kind maxDepth root

end PageFile

end SchemaEditor.Store
