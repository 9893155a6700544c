import SchemaEditor.Json.Reader

/-!
# Passing over values

A value that is not asked for is passed over. Its form still has to be right, but what a string says and how
large a number is does not matter. The brackets that are open are kept in a list, the innermost first.
-/

namespace SchemaEditor.Json

inductive Bracket where
  | list
  | object
deriving DecidableEq, Repr

namespace Bracket

def ofByte? (b : UInt8) : Option Bracket :=
  if b = '['.toUInt8 then some list else if b = '\x7b'.toUInt8 then some object else none

def closing : Bracket → UInt8
  | list => ']'.toUInt8
  | object => '\x7d'.toUInt8

def unfinished : Bracket → Problem
  | list => .unfinished .list
  | object => .unfinished .object

def expectedEnd : Bracket → Problem
  | list => .expectedListEnd
  | object => .expectedObjectEnd

end Bracket

namespace Reader

def skipEscape : Reader Unit := do
  match ← next? with
  | none => fail (.unfinished .string)
  | some b =>
    if b = 'u'.toUInt8 then let _ ← hexUnit
    else if (escape? b).isNone then fail .invalidEscape

/-- Passes over a string up to its last quote. -/
def skipStringUpTo : Nat → Reader Unit
  | 0 => fail (.unfinished .string)
  | n + 1 => do
    match ← peek? with
    | none => fail (.unfinished .string)
    | some b =>
      if b < 0x20 then fail .controlCharacter
      discard
      if b = '"'.toUInt8 then return ()
      if b = '\\'.toUInt8 then skipEscape
      skipStringUpTo n

def skipString : Reader Unit := do
  discard
  withFuel skipStringUpTo

/-- The colon after the name of a member. -/
def colon : Reader Unit := do
  match ← peekPastBlanks with
  | none => fail (.unfinished .object)
  | some b => if b = ':'.toUInt8 then discard else failAhead .expectedColon

def skipName : Reader Unit := do
  match ← peekPastBlanks with
  | none => fail (.unfinished .object)
  | some b => if b = '"'.toUInt8 then skipString else failAhead .expectedName
  colon

/-- Passes over a value without brackets that begins with this byte. -/
def skipScalar (b : UInt8) : Reader Unit := do
  if b = 'n'.toUInt8 then word "null"
  else if b = 't'.toUInt8 then word "true"
  else if b = 'f'.toUInt8 then word "false"
  else if b = '"'.toUInt8 then skipString
  else if startsNumber b then let _ ← literal .invalidNumber
  else failAhead .expectedValue

/-- Passes over the brackets that close here, up to a comma or the next value. A comma fits only behind a
value. -/
def skipClosing (isComplete : Bool) : List Bracket → Reader (List Bracket)
  | [] => return []
  | bracket :: stack => do
    match ← peekPastBlanks with
    | none => fail bracket.unfinished
    | some b =>
      if isComplete && b == ','.toUInt8 then
        discard
        return bracket :: stack
      else if b = bracket.closing then
        discard
        skipClosing true stack
      else if isComplete then failAhead bracket.expectedEnd
      else return bracket :: stack

/-- Passes over a value and what follows it inside the brackets that are open. -/
def skipUpTo : Nat → List Bracket → Reader Unit
  | 0, _ => fail .expectedValue
  | n + 1, stack => do
    let b ← peekValue
    let still ← match Bracket.ofByte? b with
      | some bracket => do
        discard
        skipClosing false (bracket :: stack)
      | none => do
        skipScalar b
        skipClosing true stack
    match still with
    | [] => return ()
    | bracket :: _ => do
      if bracket = .object then skipName
      skipUpTo n still

def skip : Reader Unit := withFuel fun n => skipUpTo n []

end Reader

end SchemaEditor.Json
