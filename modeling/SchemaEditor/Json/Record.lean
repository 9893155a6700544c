import SchemaEditor.Json.Amount
import SchemaEditor.Json.Skip

/-!
# Reading records

Readers of values of a known type. A record is an object whose members set its fields, or a list with the
fields in their order. Other members of an object are passed over.
-/

namespace SchemaEditor.Json.Reader

variable {α β : Type}

/-! ## Scalars -/

/-- Reads what stands where something else belongs. A list or an object is not looked into. -/
def found (b : UInt8) : Reader Found := do
  if b = 'n'.toUInt8 then
    word "null"
    return .null
  else if b = 't'.toUInt8 then
    word "true"
    return .bool true
  else if b = 'f'.toUInt8 then
    word "false"
    return .bool false
  else if startsNumber b then amount
  else if b = '"'.toUInt8 then return .text (← string)
  else if b = '['.toUInt8 then return .list
  else if b = '\x7b'.toUInt8 then return .object
  else failAhead .expectedValue

def bool : Reader Bool := do
  match ← found (← peekValue) with
  | .bool b => return b
  | other => fail (.wrongType other "a boolean")

/-- A string, which may stand for something else. -/
def textFor (expected : String) : Reader String := do
  match ← found (← peekValue) with
  | .text s => return s
  | other => fail (.wrongType other expected)

def text : Reader String := textFor "a string"

/-- Null, or a string of one character. -/
def character? : Reader (Option Char) := do
  if (← peekPastBlanks) == some 'n'.toUInt8 then
    word "null"
    return none
  let s ← textFor "a character"
  match s.toList with
  | [c] => return some c
  | _ => fail (.wrongValue (.text s) "a character")

/-! ## Lists -/

/-- Whether a list has another item. -/
def hasItem (isFirst : Bool) : Reader Bool := do
  match ← peekPastBlanks with
  | none => fail (.unfinished .list)
  | some b =>
    if b = ']'.toUInt8 then return false
    else if isFirst then return true
    else if b = ','.toUInt8 then
      discard
      if (← peekValue) == ']'.toUInt8 then failAhead .trailingComma
      return true
    else failAhead .expectedListEnd

/-- The end of a list. -/
def closeList : Reader Unit := do
  match ← peekPastBlanks with
  | none => fail (.unfinished .list)
  | some b =>
    if b = ']'.toUInt8 then discard
    else if b = ','.toUInt8 then
      discard
      if (← peekPastBlanks) == some ']'.toUInt8 then failAhead .trailingComma
      failAhead .trailingText
    else failAhead .trailingText

def itemsUpTo (r : Reader α) : Nat → Bool → Reader (List α)
  | 0, _ => fail (.unfinished .list)
  | n + 1, isFirst => do
    if !(← hasItem isFirst) then return []
    let a ← r
    return a :: (← itemsUpTo r n false)

def list (r : Reader α) : Reader (List α) := do
  let b ← peekValue
  if b ≠ '['.toUInt8 then fail (.wrongType (← found b) "a sequence")
  discard
  let items ← withFuel fun n => itemsUpTo r n true
  closeList
  return items

/-! ## Objects -/

/-- The name of the next member of an object, if it has one. -/
def name? (isFirst : Bool) : Reader (Option String) := do
  match ← peekPastBlanks with
  | none => fail (.unfinished .object)
  | some b =>
    if b = '\x7d'.toUInt8 then return none
    else if isFirst then name b
    else if b = ','.toUInt8 then
      discard
      let b ← peekValue
      if b = '\x7d'.toUInt8 then failAhead .trailingComma
      name b
    else failAhead .expectedObjectEnd
where
  name (b : UInt8) : Reader (Option String) := do
    if b = '"'.toUInt8 then return some (← string) else failAhead .expectedName

/-- The end of an object. -/
def closeObject : Reader Unit := do
  match ← peekPastBlanks with
  | none => fail (.unfinished .object)
  | some b =>
    if b = '\x7d'.toUInt8 then discard
    else if b = ','.toUInt8 then failAhead .trailingComma
    else failAhead .trailingText

/-! ## Records -/

/-- A field of a record, and how a record takes its value. -/
structure RecordField (α : Type) where
  name : String
  isRequired : Bool := false
  reader : Reader (α → α)

/-- A field that is read and put into a record. -/
def field (name : String) (r : Reader β) (put : β → α → α) : RecordField α := { name, reader := put <$> r }

/-- A field that has to be there. -/
def requiredField (name : String) (r : Reader β) (put : β → α → α) : RecordField α :=
  { field name r put with isRequired := true }

/-- Reads the members of an object into a record. A name that comes twice ends the reading, and so does the end
of the object if a field is missing that has to be there. -/
def membersUpTo (fields : List (RecordField α)) : Nat → List String → Bool → α → Reader (Except Problem α)
  | 0, _, _, _ => fail (.unfinished .object)
  | n + 1, seen, isFirst, a => do
    match ← name? isFirst with
    | none =>
      match fields.find? fun f => f.isRequired && !seen.contains f.name with
      | some f => return .error (.missing f.name)
      | none => return .ok a
    | some name =>
      match fields.find? fun f => f.name == name with
      | none => do
        colon
        skip
        membersUpTo fields n seen false a
      | some f => do
        if seen.contains name then return .error (.duplicate name)
        colon
        let put ← f.reader
        membersUpTo fields n (name :: seen) false (put a)

/-- Reads the items of a list into the fields of a record, in order. Fields that are not there keep their
values, unless they have to be there. -/
def fieldsInOrder (expected : String) (count : Nat) :
    List (RecordField α) → Bool → α → Reader (Except Problem α)
  | [], _, a => return .ok a
  | f :: fs, isFirst, a => do
    if ← hasItem isFirst then
      let put ← f.reader
      fieldsInOrder expected (count + 1) fs false (put a)
    else if f.isRequired then return .error (.wrongLength count expected)
    else fieldsInOrder expected (count + 1) fs isFirst a

/-- Reads up to the end of a record. A problem with the record as a whole is found there, and one with its end is
no matter then. -/
def closing (close : Reader Unit) : Except Problem α → Reader α
  | .ok a => do
    close
    return a
  | .error p => fun bytes =>
    match close bytes with
    | .ok () rest | .error _ rest => fail p rest

/-- Reads a record that has the values of `default` where nothing is said. -/
def record (typeName : String) (fields : List (RecordField α)) (default : α) : Reader α := do
  let expected := "struct " ++ typeName
  let b ← peekValue
  if b = '['.toUInt8 then
    discard
    let outcome ← fieldsInOrder (expected ++ " with " ++ toString fields.length ++ " elements") 0 fields true default
    closing closeList outcome
  else if b = '\x7b'.toUInt8 then
    discard
    let outcome ← withFuel fun n => membersUpTo fields n [] true default
    closing closeObject outcome
  else fail (.wrongType (← found b) expected)

end SchemaEditor.Json.Reader
