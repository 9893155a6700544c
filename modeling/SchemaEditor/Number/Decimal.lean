/-!
# Real numbers as text

A real number is written with at most fifteen significant digits and at least one after the point. Numbers
below a tenthousandth or from 10^15 on have an exponent of at least two digits. Halves are rounded up.
-/

namespace SchemaEditor.Decimal

/-- A number with 53 binary digits, taken apart: it is `mantissa * 2 ^ exponent`, with its sign. -/
structure Parts where
  negative : Bool
  mantissa : Nat
  exponent : Int

/-- The first of the 53 binary digits, which is not written. -/
def hiddenBit : Nat := 0x10000000000000

def parts (x : Float) : Parts :=
  let bits := x.toBits.toNat
  let field : Nat := bits / hiddenBit % 0x800
  let low : Nat := bits % hiddenBit
  let negative := decide (0x8000000000000000 ≤ bits)
  if field = 0 then ⟨negative, low, -1074⟩ else ⟨negative, low + hiddenBit, (field : Int) - 1075⟩

def isNaN (x : Float) : Bool := x != x

def isInfinite (x : Float) : Bool := x.toBits.toNat / hiddenBit % 0x800 == 0x7FF

/-- The numerator and denominator of the size of a number. -/
def Parts.fraction (p : Parts) : Nat × Nat :=
  if p.exponent < 0 then (p.mantissa, Nat.pow 2 p.exponent.natAbs) else (p.mantissa * Nat.pow 2 p.exponent.natAbs, 1)

/-- A fraction divided by a power of ten. -/
def scaled (num den : Nat) (power : Int) : Nat × Nat :=
  if power < 0 then (num * Nat.pow 10 power.natAbs, den) else (num, den * Nat.pow 10 power.natAbs)

/-- The power of ten of the first digit of a fraction that is not zero. The logarithms tell it but for one. -/
def leadingPower (num den : Nat) : Int :=
  let guess := ((num.log2 : Int) - den.log2) * 30103 / 100000
  let reaches (k : Int) : Bool :=
    let (n, d) := scaled num den k
    decide (d ≤ n)
  ([guess + 1, guess].find? reaches).getD (guess - 1)

/-- The fifteen significant digits of a fraction that is not zero, and the power of ten of the first. -/
def significand (num den : Nat) : Nat × Int :=
  let power := leadingPower num den
  let (n, d) := scaled num den (power - 14)
  let digits := (2 * n + d) / (2 * d)
  if digits < 1000000000000000 then (digits, power) else (100000000000000, power + 1)

def trimZeros (cs : List Char) : List Char := (cs.reverse.dropWhile (· == '0')).reverse

/-- Digits with a point after the first `n` of them. -/
def withPoint (n : Nat) (digits : List Char) : String :=
  let whole := digits.take n ++ List.replicate (n - digits.length) '0'
  let places := digits.drop n
  String.ofList (whole ++ '.' :: (if places.isEmpty then ['0'] else places))

def twoDigits (n : Nat) : String := (if n < 10 then "0" else "") ++ toString n

/-- Digits of which the first stands for this power of ten. -/
def layout (digits : List Char) (power : Int) : String :=
  if power < -4 ∨ 14 < power then
    withPoint 1 digits ++ "e" ++ (if power < 0 then "-" else "+") ++ twoDigits power.natAbs
  else if power < 0 then "0." ++ String.ofList (List.replicate (power.natAbs - 1) '0' ++ digits)
  else withPoint (power.natAbs + 1) digits

def print (x : Float) : String :=
  let p := parts x
  let sign := if p.negative then "-" else ""
  if isInfinite x then sign ++ "Inf"
  else if p.mantissa = 0 then "0.0"
  else
    let (num, den) := p.fraction
    let (digits, power) := significand num den
    sign ++ layout (trimZeros (toString digits).toList) power

/-- A number cut to an integer, toward zero. -/
def truncate (x : Float) : Int :=
  let p := parts x
  let (num, den) := p.fraction
  if p.negative then -(num / den : Nat) else (num / den : Nat)

def isInteger (x : Float) : Bool :=
  let (num, den) := (parts x).fraction
  num % den == 0

/-- Compares an integer and a real number by their exact values. -/
def compareInteger (n : Int) (x : Float) : Ordering :=
  if isInfinite x then if (parts x).negative then .gt else .lt
  else
    let p := parts x
    let (num, den) := p.fraction
    compare (n * den) (if p.negative then -(num : Int) else num)

/-- Compares real numbers, none of which is undefined. -/
def compareFloats (x y : Float) : Ordering := if x < y then .lt else if y < x then .gt else .eq

end SchemaEditor.Decimal
