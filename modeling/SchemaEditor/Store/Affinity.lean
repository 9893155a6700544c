import SchemaEditor.Engine.Basic
import SchemaEditor.Number.Numeral

/-!
# Kinds of values

What a column makes of the values that are put into it, and what expressions make of values that they need as a
number or a text.
-/

namespace SchemaEditor

namespace Store

/-- What a column makes of the values that are put into it. -/
inductive Affinity where
  | blob
  | text
  | numeric
  | integer
  | real
deriving DecidableEq, Repr

def containsWord (word : List Char) : List Char → Bool
  | [] => word.isEmpty
  | c :: cs => word.isPrefixOf (c :: cs) || containsWord word cs

/-- The kind that the words of a type tell. -/
def Affinity.ofWords (sqlType : String) : Affinity :=
  let text := sqlType.toUpper.toList
  let holds (words : List String) : Bool := words.any fun w => containsWord w.toList text
  if holds ["INT"] then .integer
  else if holds ["CHAR", "CLOB", "TEXT"] then .text
  else if holds ["BLOB"] then .blob
  else if holds ["REAL", "FLOA", "DOUB"] then .real
  else .numeric

def Affinity.ofType (sqlType : String) : Affinity := if sqlType = "" then .blob else .ofWords sqlType

def Affinity.isNumeric : Affinity → Bool
  | .numeric | .integer | .real => true
  | .blob | .text => false

/-! ## Numbers -/

def minInteger : Int := -0x8000000000000000

def maxInteger : Int := 0x7FFFFFFFFFFFFFFF

def isInteger64 (n : Int) : Bool := decide (minInteger ≤ n) && decide (n ≤ maxInteger)

/-- The integer that 64 bits stand for. -/
def ofBits (n : Nat) : Int := if n < 0x8000000000000000 then n else (n : Int) - 0x10000000000000000

/-- The digits of a hexadecimal number, without zeros at their front. -/
def hexDigits : List Char → Option (List Char)
  | '0' :: 'x' :: cs | '0' :: 'X' :: cs => some (cs.dropWhile (· == '0'))
  | _ => none

def clamp (n : Int) : Int := max minInteger (min maxInteger n)

/-- A real number, or NULL if it is undefined. -/
def realValue (x : Float) : Value := if Decimal.isNaN x then .null else .real x

/-- An integer of 64 bits, or else the nearest real number. -/
def integerValue (n : Int) : Value := if isInteger64 n then .integer n else .real (.ofInt n)

def numeralValue (n : Numeral) : Value :=
  if n.isWhole && isInteger64 n.wholeValue then .integer n.wholeValue else .real n.toFloat

/-- The integer that a real number is, if it is one and not among the largest. -/
def exactInteger? (x : Float) : Option Int :=
  let n := Decimal.truncate x
  if !Decimal.isInfinite x && Decimal.isInteger x && decide (minInteger < n) && decide (n < maxInteger) then some n
  else none

end Store

namespace Value

open Store

/-- The number that a text or blob starts with, zero if it starts with none; other values are left as they are. -/
def toNumber : Value → Value
  | .text s => leading s.toList
  | .blob bytes => leading (Text.Utf8.decodeLossy bytes)
  | v => v
where
  leading (cs : List Char) : Value := ((Numeral.scan cs).map fun (n, _) => numeralValue n).getD (.integer 0)

/-- The integer that a text starts with, cut to 64 bits. -/
def leadingInteger (cs : List Char) : Int :=
  let (negative, rest) := Numeral.sign (cs.dropWhile Numeral.isBlank)
  let n : Int := Numeral.ofDigits (rest.takeWhile Char.isDigit)
  clamp (if negative then -n else n)

/-- A value as an integer. NULL counts as zero. -/
def toInteger : Value → Int
  | .null => 0
  | .integer n => n
  | .real x => if Decimal.isInfinite x then (if x < 0 then minInteger else maxInteger) else clamp (Decimal.truncate x)
  | .text s => leadingInteger s.toList
  | .blob bytes => leadingInteger (Text.Utf8.decodeLossy bytes)

def toFloat (v : Value) : Float :=
  match v.toNumber with
  | .integer n => .ofInt n
  | .real x => x
  | _ => 0

/-- Whether a value is true as a condition; NULL is neither true nor false. -/
def truth : Value → Option Bool
  | .null => none
  | v =>
    match v.toNumber with
    | .real x => some (x != 0)
    | .integer n => some (n != 0)
    | _ => none

def ofTruth : Option Bool → Value
  | none => .null
  | some b => .integer (if b then 1 else 0)

/-- A value as bytes. -/
def toBytes : Value → List UInt8
  | .blob bytes => bytes
  | v => v.shown.toUTF8.toList

end Value

namespace Store

/-! ## Conversions -/

/-- The number that a text spells, blanks around it apart; one that is whole is an integer. -/
def spelledNumber? (s : String) : Option Value := do
  match numeralValue (← Numeral.ofText? s.toList) with
  | .real x => some (((exactInteger? x).map .integer).getD (.real x))
  | v => some v

namespace Affinity

def toNumeric : Value → Value
  | .text s => (spelledNumber? s).getD (.text s)
  | .real x => ((exactInteger? x).map .integer).getD (.real x)
  | v => v

/-- What a column makes of a value. -/
def convert : Affinity → Value → Value
  | .text, .integer n => .text (toString n)
  | .text, .real x => .text (Decimal.print x)
  | .integer, v | .numeric, v => toNumeric v
  | .real, v =>
    match toNumeric v with
    | .integer n => .real (.ofInt n)
    | v => v
  | _, v => v

/-- What an explicit conversion makes of a value. -/
def cast : Affinity → Value → Value
  | _, .null => .null
  | .blob, v => .blob v.toBytes
  | .text, v => .text v.shown
  | .integer, v => .integer v.toInteger
  | .real, v => .real v.toFloat
  | .numeric, .real x => .real x
  | .numeric, v =>
    match v.toNumber with
    | .real x => ((exactInteger? x).map .integer).getD (.real x)
    | v => v

end Affinity

end Store

end SchemaEditor
