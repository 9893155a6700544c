import SchemaEditor.Json.Record

/-!
# Reading any value

A text whose form is not known is read into the value that it spells.
-/

namespace SchemaEditor.Json

namespace Reader

def Literal.text (l : Literal) : String :=
  let digits (ds : List UInt8) : String := String.ofList (ds.map fun d => Char.ofNat d.toNat)
  let places := (l.places.map fun ds => "." ++ digits ds).getD ""
  let exponent := (l.exponent.map fun (negative, ds) => (if negative then "e-" else "e") ++ digits ds).getD ""
  (if l.negative then "-" else "") ++ digits l.whole ++ places ++ exponent

/-- Reads a value without brackets that begins with this byte. -/
def scalar (b : UInt8) : Reader Json := do
  if startsNumber b then return .number (← literal (.unfinished .value)).text
  match ← found b with
  | .bool b => return .bool b
  | .text s => return .text s
  | _ => return .null

mutual

def valueUpTo : Nat → Reader Json
  | 0 => fail .expectedValue
  | n + 1 => do
    let b ← peekValue
    match Bracket.ofByte? b with
    | none => scalar b
    | some .list => do
      discard
      let items ← arrayUpTo n true
      closeList
      return .array items
    | some .object => do
      discard
      let members ← objectUpTo n true
      closeObject
      return .object members

def arrayUpTo : Nat → Bool → Reader (List Json)
  | 0, _ => fail .expectedValue
  | n + 1, isFirst => do
    if !(← hasItem isFirst) then return []
    let v ← valueUpTo n
    return v :: (← arrayUpTo n false)

def objectUpTo : Nat → Bool → Reader (List (String × Json))
  | 0, _ => fail .expectedValue
  | n + 1, isFirst => do
    match ← name? isFirst with
    | none => return []
    | some name => do
      colon
      let v ← valueUpTo n
      return (name, v) :: (← objectUpTo n false)

end

def value : Reader Json := withFuel valueUpTo

end Reader

/-- The value that a text spells. -/
def parse (text : String) : Except JsonError Json := read Reader.value text

end SchemaEditor.Json
