import SchemaEditor.Number.Shortest
import SchemaEditor.Text.Quoted

/-!
# Errors of reading JSON

A text is read from its front, and what first does not fit ends the reading. The error tells the line and how
many bytes of it were read by then.
-/

namespace SchemaEditor

namespace Json

/-- What a text may end in the middle of. -/
inductive Construct where
  | value
  | string
  | list
  | object
deriving DecidableEq, Repr

def Construct.describe : Construct → String
  | value => "a value"
  | string => "a string"
  | list => "a list"
  | object => "an object"

/-- A value as it was found where another one belongs. -/
inductive Found where
  | null
  | bool (b : Bool)
  | integer (n : Int)
  | real (x : Float)
  | text (s : String)
  | list
  | object
deriving DecidableEq, Repr

def inBackticks (s : String) : String := "\x60" ++ s ++ "\x60"

def Found.describe : Found → String
  | null => "null"
  | bool b => "boolean " ++ inBackticks (toString b)
  | integer n => "integer " ++ inBackticks (toString n)
  | real x => "floating point " ++ inBackticks (Decimal.printShortest x)
  | text s => "string " ++ Text.quoted s
  | list => "sequence"
  | object => "map"

inductive Problem where
  | unfinished (inside : Construct)
  | expectedValue
  /-- A letter is wrong in one of the words `null`, `true` and `false`. -/
  | expectedWord
  | expectedColon
  | expectedListEnd
  | expectedObjectEnd
  | expectedName
  | trailingComma
  | trailingText
  | invalidNumber
  | numberOutOfRange
  | invalidEscape
  | controlCharacter
  /-- Half of a surrogate pair does not have the half beside it that it needs. -/
  | loneSurrogate
  /-- Something else than an escape follows the first half of a surrogate pair. -/
  | brokenPair
  | wrongType (found : Found) (expected : String)
  | wrongValue (found : Found) (expected : String)
  | wrongLength (length : Nat) (expected : String)
  | duplicate (name : String)
  | missing (name : String)
deriving DecidableEq, Repr

def Problem.message : Problem → String
  | unfinished inside => "EOF while parsing " ++ inside.describe
  | expectedValue => "expected value"
  | expectedWord => "expected ident"
  | expectedColon => "expected " ++ inBackticks ":"
  | expectedListEnd => "expected " ++ inBackticks "," ++ " or " ++ inBackticks "]"
  | expectedObjectEnd => "expected " ++ inBackticks "," ++ " or " ++ inBackticks "\x7d"
  | expectedName => "key must be a string"
  | trailingComma => "trailing comma"
  | trailingText => "trailing characters"
  | invalidNumber => "invalid number"
  | numberOutOfRange => "number out of range"
  | invalidEscape => "invalid escape"
  | controlCharacter => "control character (\\u0000-\\u001F) found while parsing a string"
  | loneSurrogate => "lone leading surrogate in hex escape"
  | brokenPair => "unexpected end of hex escape"
  | wrongType found expected => "invalid type: " ++ found.describe ++ ", expected " ++ expected
  | wrongValue found expected => "invalid value: " ++ found.describe ++ ", expected " ++ expected
  | wrongLength length expected => "invalid length " ++ toString length ++ ", expected " ++ expected
  | duplicate name => "duplicate field " ++ inBackticks name
  | missing name => "missing field " ++ inBackticks name

/-- A place in a text: the line, and the bytes before it on the line. -/
structure Position where
  line : Nat := 1
  column : Nat := 0
deriving DecidableEq, Repr

namespace Position

def after (p : Position) (byte : UInt8) : Position :=
  if byte = '\n'.toUInt8 then ⟨p.line + 1, 0⟩ else ⟨p.line, p.column + 1⟩

/-- The place behind some bytes. -/
def behind (bytes : List UInt8) : Position := bytes.foldl after {}

end Position

end Json

/-- Why a text is not read as what it should be. -/
structure JsonError where
  problem : Json.Problem
  position : Json.Position
deriving DecidableEq, Repr

def JsonError.message (e : JsonError) : String :=
  e.problem.message ++ " at line " ++ toString e.position.line ++ " column " ++ toString e.position.column

end SchemaEditor
