/-!
# Numerals

A numeral is an integer or a decimal fraction, with an exponent or without, as a text spells it. `scan` takes
one from the front of a text, the blanks before it included. An exponent without digits is not part of it.
-/

namespace SchemaEditor

structure Numeral where
  negative : Bool
  /-- The digits before and after the point, as one number. -/
  digits : Nat
  /-- The power of ten by which the digits are multiplied. -/
  exponent : Int
  /-- It has neither a point nor an exponent. -/
  isWhole : Bool
deriving DecidableEq, Repr

namespace Numeral

/-- The blanks around numerals: the space and the five control characters from tabulator to carriage return. -/
def isBlank (c : Char) : Bool := c == ' ' || (decide ('\t' ≤ c) && decide (c ≤ '\r'))

def ofDigits (cs : List Char) : Nat := cs.foldl (fun n c => n * 10 + (c.toNat - '0'.toNat)) 0

/-- A sign at the front of a text, as whether it is a minus. -/
def sign : List Char → Bool × List Char
  | '-' :: cs => (true, cs)
  | '+' :: cs => (false, cs)
  | cs => (false, cs)

/-- The exponent at the front of a text, if there is one. -/
def exponent? : List Char → Option (Int × List Char)
  | c :: cs =>
    if c = 'e' ∨ c = 'E' then
      let (negative, rest) := sign cs
      let digits := rest.takeWhile Char.isDigit
      let n : Int := ofDigits digits
      if digits.isEmpty then none else some (if negative then -n else n, rest.dropWhile Char.isDigit)
    else none
  | [] => none

/-- The point and the digits after it, at the front of a text. -/
def fraction? : List Char → Option (List Char × List Char)
  | '.' :: cs => some (cs.takeWhile Char.isDigit, cs.dropWhile Char.isDigit)
  | _ => none

/-- A numeral at the front of a text, and what follows it. -/
def scan (cs : List Char) : Option (Numeral × List Char) :=
  let (negative, rest) := sign (cs.dropWhile isBlank)
  let whole := rest.takeWhile Char.isDigit
  let rest := rest.dropWhile Char.isDigit
  let fraction := fraction? rest
  let (places, rest) := fraction.getD ([], rest)
  let power := exponent? rest
  let (exponent, rest) := power.getD (0, rest)
  if whole.isEmpty && places.isEmpty then none
  else some (⟨negative, ofDigits (whole ++ places), exponent - places.length, fraction.isNone && power.isNone⟩, rest)

/-- The numeral that a text spells as a whole, blanks around it apart. -/
def ofText? (cs : List Char) : Option Numeral :=
  match scan cs with
  | some (n, rest) => if rest.all isBlank then some n else none
  | none => none

def wholeValue (n : Numeral) : Int := if n.negative then -n.digits else n.digits

/-- The nearest number with 53 binary digits. Exponents beyond any such number are cut. -/
def toFloat (n : Numeral) : Float :=
  let e := max (-100000) (min 100000 n.exponent)
  let x := if n.digits = 0 then 0 else Float.ofScientific n.digits (decide (e < 0)) e.natAbs
  if n.negative then -x else x

end Numeral

end SchemaEditor
