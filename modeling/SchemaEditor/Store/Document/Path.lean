import SchemaEditor.Store.Document.Node

/-!
# Parts of documents

A path leads from a document to one of its parts, by the labels of members and the places of items. Places can be counted
from the end. What a path leads to can be removed or replaced, and what it does not lead to yet can be put there.
-/

namespace SchemaEditor.Store.Document

inductive PathFailure where
  | missing
  /-- The path makes no sense. -/
  | badPath

/-! ## Steps -/

/-- A label of a path. Only one in quotes can have escapes. -/
def keyOf (cs : List Char) (isQuoted : Bool) : WrittenText :=
  ⟨if isQuoted && cs.contains '\\' then .extended else .raw, cs⟩

/-- Reads the label that a path goes on with, after the point. -/
def pathKey? : List Char → Option (WrittenText × List Char)
  | '"' :: cs =>
    match cs.dropWhile (· != '"') with
    | _ :: rest => some (keyOf (cs.takeWhile (· != '"')) true, rest)
    | [] => none
  | cs =>
    let isEnd (c : Char) : Bool := c == '.' || c == '['
    let key := cs.takeWhile fun c => !isEnd c
    if key.isEmpty then none else some (keyOf key false, cs.dropWhile fun c => !isEnd c)

/-- A place of 32 bits. -/
def placeOf (digits : List Char) : Nat := Numeral.ofDigits digits % 0x100000000

/-- Reads the place that a path goes on with, after the bracket, in an array of this many items. -/
def pathPlace (count : Nat) (cs : List Char) : Except PathFailure (Nat × List Char) :=
  let digits := cs.takeWhile Char.isDigit
  match cs, cs.dropWhile Char.isDigit with
  | '#' :: '-' :: c :: cs, _ =>
    let back := (c :: cs).takeWhile Char.isDigit
    match (c :: cs).dropWhile Char.isDigit with
    | ']' :: rest =>
      if back.isEmpty then .error .badPath
      else if count < placeOf back then .error .missing
      else .ok (count - placeOf back, rest)
    | _ => if !back.isEmpty && count < placeOf back then .error .missing else .error .badPath
  | '#' :: ']' :: rest, _ => .ok (count, rest)
  | _, ']' :: rest => if digits.isEmpty then .error .badPath else .ok (placeOf digits, rest)
  | _, _ => .error .badPath

/-! ## Looking up -/

/-- What a path leads to, of at most `fuel` steps. -/
def lookUp : Nat → List Char → Document → Except PathFailure Document
  | _, [], d => .ok d
  | 0, _, _ => .error .badPath
  | fuel + 1, '.' :: cs, d =>
    match pathKey? cs, d with
    | none, _ => .error .badPath
    | some (key, rest), .object members =>
      match members.find? fun (label, _) => label.isSame key with
      | some (_, d) => lookUp fuel rest d
      | none => .error .missing
    | some _, _ => .error .missing
  | fuel + 1, '[' :: cs, .array items => do
    let (i, rest) ← pathPlace items.length cs
    match items[i]? with
    | some d => lookUp fuel rest d
    | none => .error .missing
  | _, '[' :: _, _ => .error .missing
  | _, _, _ => .error .badPath

/-! ## Changing -/

inductive Edit where
  | remove
  | replace (d : Document)
  /-- Puts a part where none is. -/
  | insert (d : Document)
  | put (d : Document)

namespace Edit

/-- What becomes of a part that is there. -/
def apply : Edit → Document → Option Document
  | remove, _ => none
  | insert _, old => some old
  | replace d, _ | put d, _ => some d

/-- The part that is put where none is. -/
def added? : Edit → Option Document
  | insert d | put d => some d
  | remove | replace _ => none

end Edit

/-- Changes what a path leads to. The part may be gone then. -/
def change (e : Edit) : Nat → List Char → Document → Except PathFailure (Option Document)
  | _, [], d => .ok (e.apply d)
  | 0, _, _ => .error .badPath
  | fuel + 1, '.' :: cs, d =>
    match pathKey? cs, d with
    | none, _ => .error .badPath
    | some (key, rest), .object members =>
      match members.findIdx? fun (label, _) => label.isSame key with
      | some i => do
        match members[i]? with
        | some (label, d) =>
          let changed := match ← change e fuel rest d with
            | some d => members.set i (label, d)
            | none => members.eraseIdx i
          return some (.object changed)
        | none => throw .missing
      | none => do
        let d ← added fuel rest
        return some (.object (members ++ [(key, d)]))
    | some _, _ => .error .missing
  | fuel + 1, '[' :: cs, .array items => do
    let (i, rest) ← pathPlace items.length cs
    match items[i]? with
    | some d =>
      let changed := match ← change e fuel rest d with
        | some d => items.set i d
        | none => items.eraseIdx i
      return some (.array changed)
    | none =>
      if i ≠ items.length then throw .missing
      let d ← added fuel rest
      return some (.array (items ++ [d]))
  | _, '[' :: _, _ => .error .missing
  | _, _, _ => .error .badPath
where
  /-- A new part, in as many new arrays and objects as the rest of a path has steps. -/
  added (fuel : Nat) (rest : List Char) : Except PathFailure Document := do
    let some d := e.added? | throw .missing
    if rest.isEmpty then return d
    let start := if rest.head? == some '.' then .object [] else .array []
    match ← change e fuel rest start with
    | some d => return d
    | none => throw .missing

/-! ## Patches -/

/-- Puts the members of a patch into an object. A member that is null removes the one of its label. -/
def patch : Nat → Document → Document → Document
  | 0, d, _ => d
  | fuel + 1, d, .object changes =>
    let members := match d with
      | .object members => members
      | _ => []
    .object (changes.foldl (fun members (label, new) =>
      let isHere (m : WrittenText × Document) : Bool := m.1.isSame label
      match new, members.findIdx? isHere with
      | .null, some i => members.eraseIdx i
      | .null, none => members
      | new, some i => members.modify i fun (label, old) => (label, patch fuel old new)
      | new, none => members ++ [(label, patch fuel (.object []) new)]) members)
  | _, _, new => new

mutual

/-- How deep the parts of a document are nested. -/
def depth : Document → Nat
  | array items => itemsDepth items + 1
  | object members => membersDepth members + 1
  | null | truth _ | integer _ | hexadecimal _ | decimal _ | looseDecimal _ | text _ => 1

def itemsDepth : List Document → Nat
  | [] => 0
  | d :: ds => max d.depth (itemsDepth ds)

def membersDepth : List (WrittenText × Document) → Nat
  | [] => 0
  | (_, d) :: ms => max d.depth (membersDepth ms)

end

end SchemaEditor.Store.Document
