import SchemaEditor.Store.Document.Node

/-!
# Documents in bytes

A document in bytes is a head, which tells its kind and the size of its content, and the content: the text of a number or
text, or the bytes of the items. A size has as few bytes as it can.
-/

namespace SchemaEditor.Store.Document

/-! ## Writing -/

/-- A number of `n` bytes, the highest first. -/
def sizeBytes (size : Nat) : Nat → List UInt8
  | 0 => []
  | n + 1 => UInt8.ofNat (size >>> (8 * n)) :: sizeBytes size n

def head (kind size : Nat) : List UInt8 :=
  if size ≤ 11 then [UInt8.ofNat (kind + size * 16)]
  else if size ≤ 0xFF then UInt8.ofNat (kind + 0xC0) :: sizeBytes size 1
  else if size ≤ 0xFFFF then UInt8.ofNat (kind + 0xD0) :: sizeBytes size 2
  else UInt8.ofNat (kind + 0xE0) :: sizeBytes size 4

def pack (kind : Nat) (content : List UInt8) : List UInt8 := head kind content.length ++ content

def packText (kind : Nat) (cs : List Char) : List UInt8 := pack kind (String.ofList cs).toUTF8.toList

def packWritten (t : WrittenText) : List UInt8 :=
  let kind := match t.form with
    | .plain => 7
    | .escaped => 8
    | .extended => 9
    | .raw => 10
  packText kind t.content

mutual

def toBytes : Document → List UInt8
  | null => pack 0 []
  | truth true => pack 1 []
  | truth false => pack 2 []
  | integer literal => packText 3 literal
  | hexadecimal literal => packText 4 literal
  | decimal literal => packText 5 literal
  | looseDecimal literal => packText 6 literal
  | text t => packWritten t
  | array items => pack 11 (itemBytes items)
  | object members => pack 12 (memberBytes members)

def itemBytes : List Document → List UInt8
  | [] => []
  | d :: ds => d.toBytes ++ itemBytes ds

def memberBytes : List (WrittenText × Document) → List UInt8
  | [] => []
  | (label, d) :: ms => packWritten label ++ d.toBytes ++ memberBytes ms

end

/-! ## Reading -/

def sizeOf (bytes : List UInt8) : Nat := bytes.foldl (fun n b => n * 256 + b.toNat) 0

/-- The kind of a document, its content, and the bytes after it. -/
def unpack? : List UInt8 → Option (Nat × List UInt8 × List UInt8)
  | [] => none
  | b :: rest =>
    let more := match b.toNat / 16 with
      | 12 => 1
      | 13 => 2
      | 14 => 4
      | 15 => 8
      | _ => 0
    let size := if more = 0 then b.toNat / 16 else sizeOf (rest.take more)
    let rest := rest.drop more
    if rest.length < size then none else some (b.toNat % 16, rest.take size, rest.drop size)

def formOf? : Nat → Option TextForm
  | 7 => some .plain
  | 8 => some .escaped
  | 9 => some .extended
  | 10 => some .raw
  | _ => none

def contentText (content : List UInt8) : List Char := Text.Utf8.decodeLossy content

mutual

/-- A document of a kind and content. -/
def ofContent? : (fuel kind : Nat) → List UInt8 → Option Document
  | 0, _, _ => none
  | _ + 1, 0, content => if content.isEmpty then some .null else none
  | _ + 1, 1, content => if content.isEmpty then some (.truth true) else none
  | _ + 1, 2, content => if content.isEmpty then some (.truth false) else none
  | _ + 1, 3, content => if content.isEmpty then none else some (.integer (contentText content))
  | _ + 1, 4, content => if content.isEmpty then none else some (.hexadecimal (contentText content))
  | _ + 1, 5, content => if content.isEmpty then none else some (.decimal (contentText content))
  | _ + 1, 6, content => if content.isEmpty then none else some (.looseDecimal (contentText content))
  | fuel + 1, 11, content => (itemsOf? fuel content).map .array
  | fuel + 1, 12, content => (membersOf? fuel content).map .object
  | _ + 1, kind, content => (formOf? kind).map fun form => .text ⟨form, contentText content⟩

def itemsOf? : Nat → List UInt8 → Option (List Document)
  | _, [] => some []
  | 0, _ => none
  | fuel + 1, bytes => do
    let (kind, content, rest) ← unpack? bytes
    return (← ofContent? fuel kind content) :: (← itemsOf? fuel rest)

def membersOf? : Nat → List UInt8 → Option (List (WrittenText × Document))
  | _, [] => some []
  | 0, _ => none
  | fuel + 1, bytes => do
    let (labelKind, label, rest) ← unpack? bytes
    let form ← formOf? labelKind
    let (kind, content, rest) ← unpack? rest
    return (⟨form, contentText label⟩, ← ofContent? fuel kind content) :: (← membersOf? fuel rest)

end

/-- Whether bytes look like a document from outside. -/
def isPacked (bytes : List UInt8) : Bool :=
  match unpack? bytes with
  | some (kind, content, rest) => rest.isEmpty && decide (kind ≤ 12) && (decide (2 < kind) || content.isEmpty)
  | none => false

/-- The document that bytes are. -/
def ofBytes? (bytes : List UInt8) : Option Document :=
  match unpack? bytes with
  | some (kind, content, []) => ofContent? (2 * bytes.length + 2) kind content
  | _ => none

end SchemaEditor.Store.Document
