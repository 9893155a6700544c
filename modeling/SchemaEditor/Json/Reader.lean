import SchemaEditor.Json.Error
import SchemaEditor.Json.Value
import SchemaEditor.Text.Utf8

/-!
# Readers of JSON

A reader takes what it reads from the front of the bytes of a text. One that fails tells how many bytes were
left then, from which the place of the error follows once the whole text is known.
-/

namespace SchemaEditor.Json

structure Fault where
  problem : Problem
  left : Nat

abbrev Reader := EStateM Fault (List UInt8)

namespace Reader

variable {α : Type}

/-! ## Bytes -/

def fail (p : Problem) : Reader α := fun bytes => .error ⟨p, bytes.length⟩ bytes

/-- Fails because of the next byte, which counts as read. -/
def failAhead (p : Problem) : Reader α := fun bytes => .error ⟨p, bytes.length - 1⟩ bytes

def peek? : Reader (Option UInt8) := fun bytes => .ok bytes.head? bytes

def next? : Reader (Option UInt8) := fun bytes => .ok bytes.head? bytes.tail

def discard : Reader Unit := fun bytes => .ok () bytes.tail

def takeWhile (p : UInt8 → Bool) : Reader (List UInt8) := fun bytes => .ok (bytes.takeWhile p) (bytes.dropWhile p)

def isBlank (b : UInt8) : Bool := [' ', '\n', '\t', '\r'].any fun c => b == c.toUInt8

/-- The first byte that is no blank. -/
def peekPastBlanks : Reader (Option UInt8) := do
  let _ ← takeWhile isBlank
  peek?

/-- The byte that a value begins with. -/
def peekValue : Reader UInt8 := do
  match ← peekPastBlanks with
  | some b => return b
  | none => fail (.unfinished .value)

/-- Gives a reader as many steps as there are bytes, and one more. -/
def withFuel (r : Nat → Reader α) : Reader α := fun bytes => r (bytes.length + 1) bytes

/-! ## Words -/

/-- The letters of a word after its first one. -/
def letters : List Char → Reader Unit
  | [] => return ()
  | c :: cs => do
    match ← next? with
    | none => fail (.unfinished .value)
    | some b => if b = c.toUInt8 then letters cs else fail .expectedWord

def word (s : String) : Reader Unit := do
  discard
  letters s.toList.tail

/-! ## Strings -/

def hexDigit? (b : UInt8) : Option Nat :=
  let n := b.toNat
  if '0'.toNat ≤ n ∧ n ≤ '9'.toNat then some (n - '0'.toNat)
  else if 'a'.toNat ≤ n ∧ n ≤ 'f'.toNat then some (n - 'a'.toNat + 10)
  else if 'A'.toNat ≤ n ∧ n ≤ 'F'.toNat then some (n - 'A'.toNat + 10)
  else none

def hexUnit? (a b c d : UInt8) : Option Nat := do
  return (((← hexDigit? a) * 16 + (← hexDigit? b)) * 16 + (← hexDigit? c)) * 16 + (← hexDigit? d)

/-- A UTF-16 unit, in four hexadecimal digits. -/
def hexUnit : Reader Nat := fun bytes =>
  match bytes with
  | a :: b :: c :: d :: rest =>
    match hexUnit? a b c d with
    | some n => .ok n rest
    | none => fail .invalidEscape rest
  | _ => fail (.unfinished .string) []

/-- A byte that has to follow the first half of a surrogate pair. -/
def pairByte (c : Char) : Reader Unit := do
  match ← next? with
  | none => fail (.unfinished .string)
  | some b => if b = c.toUInt8 then return () else fail .brokenPair

/-- A character that is escaped by its number, or by two surrogates. -/
def escapedUnit : Reader Char := do
  let high ← hexUnit
  if high < 0xD800 ∨ 0xE000 ≤ high then return Char.ofNat high
  if 0xDC00 ≤ high then fail .loneSurrogate
  pairByte '\\'
  pairByte 'u'
  let low ← hexUnit
  if low < 0xDC00 ∨ 0xE000 ≤ low then fail .loneSurrogate
  return Char.ofNat ((high - 0xD800) * 0x400 + (low - 0xDC00) + 0x10000)

/-- The escapes of a single letter. -/
def escapes : List (Char × Char) :=
  [('"', '"'), ('\\', '\\'), ('/', '/'), ('b', '\x08'), ('f', '\x0c'), ('n', '\n'), ('r', '\r'), ('t', '\t')]

/-- What a backslash and this byte stand for. -/
def escape? (b : UInt8) : Option Char := (escapes.find? fun e => b == e.1.toUInt8).map Prod.snd

def escaped : Reader Char := do
  match ← next? with
  | none => fail (.unfinished .string)
  | some b =>
    if b = 'u'.toUInt8 then escapedUnit
    else
      match escape? b with
      | some c => return c
      | none => fail .invalidEscape

/-- The bytes of a string up to its last quote, the last one first. -/
def stringUpTo : Nat → List UInt8 → Reader (List UInt8)
  | 0, _ => fail (.unfinished .string)
  | n + 1, read => do
    match ← next? with
    | none => fail (.unfinished .string)
    | some b =>
      if b = '"'.toUInt8 then return read
      else if b = '\\'.toUInt8 then
        let c ← escaped
        stringUpTo n ((String.utf8EncodeChar c).reverse ++ read)
      else if b < 0x20 then fail .controlCharacter
      else stringUpTo n (b :: read)

/-- A string, with the quotes around it. -/
def string : Reader String := do
  discard
  let bytes ← withFuel fun n => stringUpTo n []
  return String.ofList (Text.Utf8.decodeLossy bytes.reverse)

/-! ## Numbers -/

/-- A number as it is written. -/
structure Literal where
  negative : Bool
  whole : List UInt8
  /-- The digits after the point. -/
  places : Option (List UInt8)
  /-- Whether the exponent is negative, and its digits. -/
  exponent : Option (Bool × List UInt8)

def isDigit (b : UInt8) : Bool := '0'.toUInt8 ≤ b && b ≤ '9'.toUInt8

/-- Digits before the point: one zero, or any that begin with another one. -/
def wholeDigits (atEnd : Problem) : Reader (List UInt8) := do
  match ← next? with
  | none => fail atEnd
  | some b =>
    if b = '0'.toUInt8 then
      if (← peek?).any isDigit then failAhead .invalidNumber else return [b]
    else if isDigit b then return b :: (← takeWhile isDigit)
    else fail .invalidNumber

def placesDigits (atEnd : Problem) : Reader (Option (List UInt8)) := do
  if (← peek?) != some '.'.toUInt8 then return none
  discard
  let digits ← takeWhile isDigit
  if digits.isEmpty then failAhead (if (← peek?).isNone then atEnd else .invalidNumber)
  return some digits

def exponentSign : Reader Bool := do
  match ← peek? with
  | some b =>
    if b = '+'.toUInt8 ∨ b = '-'.toUInt8 then
      discard
      return b == '-'.toUInt8
    else return false
  | none => return false

def exponentDigits (atEnd : Problem) : Reader (Option (Bool × List UInt8)) := do
  if !(← peek?).any fun b => b == 'e'.toUInt8 || b == 'E'.toUInt8 then return none
  discard
  let negative ← exponentSign
  match ← next? with
  | none => fail atEnd
  | some b => if isDigit b then return some (negative, b :: (← takeWhile isDigit)) else fail .invalidNumber

/-- A number. Where the text ends before a digit that has to be there, `atEnd` is the problem. -/
def literal (atEnd : Problem) : Reader Literal := do
  let negative := (← peek?) == some '-'.toUInt8
  if negative then discard
  let whole ← wholeDigits atEnd
  let places ← placesDigits atEnd
  return { negative, whole, places, exponent := ← exponentDigits atEnd }

def startsNumber (b : UInt8) : Bool := b == '-'.toUInt8 || isDigit b

end Reader

/-! ## Whole texts -/

/-- Reads a text, with blanks after it and nothing else. -/
def read {α : Type} (r : Reader α) (text : String) : Except JsonError α :=
  let bytes := text.toUTF8.toList
  let whole : Reader α := do
    let a ← r
    if (← Reader.peekPastBlanks).isSome then Reader.failAhead .trailingText
    return a
  match whole bytes with
  | .ok a _ => .ok a
  | .error f _ => .error ⟨f.problem, .behind (bytes.take (bytes.length - f.left))⟩

end SchemaEditor.Json
