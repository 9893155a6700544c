import SchemaEditor.Number.Decimal

/-!
# Shortest decimals

A real number is written with the fewest digits that read back as it is, and of those with the nearest ones.
From 10^16 on and below a hundredthousandth it has an exponent.
-/

namespace SchemaEditor.Decimal

/-- Whether digits read back as `x`, but for its sign, if the last one stands for this power of ten. -/
def readsBack (x : Float) (digits : Nat) (power : Int) : Bool :=
  (Float.ofScientific digits (decide (power < 0)) power.natAbs).toBits == x.abs.toBits

/-- The nearest number of digits on the grid of this power of ten that reads back as `x`, if there is one. -/
def onGrid? (x : Float) (num den : Nat) (power : Int) : Option Nat :=
  let (n, d) := scaled num den power
  let below := n / d
  let isNearBelow := decide (2 * (n % d) ≤ d)
  (if isNearBelow then [below, below + 1] else [below + 1, below]).find? fun digits => readsBack x digits power

/-- The fewest digits of a fraction that is not zero, and the power of ten of the first. -/
def shortest (x : Float) (num den : Nat) : List Char × Int :=
  let leading := leadingPower num den
  let grids : List Int := (List.range 17).map fun places : Nat => leading - (places : Int)
  let found := grids.findSome? fun power => (onGrid? x num den power).map fun digits => (digits, power)
  let (n, power) := found.getD (0, leading)
  let digits := (toString n).toList
  (trimZeros digits, power + digits.length - 1)

/-- Digits of which the first stands for this power of ten. -/
def shortLayout (digits : List Char) (power : Int) : String :=
  if 16 ≤ power ∨ power < -5 then
    let places := digits.drop 1
    let mark := if power < 0 then "e" else "e+"
    String.ofList (digits.take 1 ++ (if places.isEmpty then [] else '.' :: places)) ++ mark ++ toString power
  else if power < 0 then "0." ++ String.ofList (List.replicate (power.natAbs - 1) '0' ++ digits)
  else withPoint (power.natAbs + 1) digits

def printShortest (x : Float) : String :=
  let p := parts x
  let sign := if p.negative then "-" else ""
  if p.mantissa = 0 then sign ++ "0.0"
  else
    let (num, den) := p.fraction
    let (digits, power) := shortest x num den
    sign ++ shortLayout digits power

end SchemaEditor.Decimal
