import SchemaEditor.Json.Reader

/-!
# Amounts of numbers

What a number in a text amounts to: an integer of 64 bits, or else a real number. Digits count as far as they
fit into 64 bits together. The power of ten that is left is applied to them by division or multiplication.
-/

namespace SchemaEditor.Json.Reader

def digitValue (b : UInt8) : Nat := b.toNat - '0'.toNat

/-- Appends digits to a number while it stays below a limit; the digits that do not fit remain. -/
def appendDigits (limit n : Nat) : List UInt8 → Nat × List UInt8
  | [] => (n, [])
  | d :: ds => if n * 10 + digitValue d < limit then appendDigits limit (n * 10 + digitValue d) ds else (n, d :: ds)

/-- Scales by powers of ten, of which none goes beyond 10^308. -/
def scale : Nat → Float → Int → Option Float
  | 0, x, _ => some x
  | n + 1, x, power =>
    let step := Float.ofScientific 1 false (min power.natAbs 308)
    if 0 ≤ power then
      let y := x * step
      if x != 0 && (308 < power || Decimal.isInfinite y) then none else some y
    else if power < -308 then if x == 0 then some x else scale n (x / step) (power + 308)
    else some (x / step)

/-- The digits that count and the power of ten they have by their place. -/
def Literal.scaled (l : Literal) : Nat × Int :=
  let (n, more) := appendDigits (0x10000000000000000) 0 l.whole
  let places := l.places.getD []
  let (n, rest) := appendDigits (0x10000000000000000) n places
  (n, more.length - (places.length - rest.length : Nat))

def Literal.integer? (l : Literal) : Option Int :=
  let (n, more) := appendDigits (0x10000000000000000) 0 l.whole
  if l.places.isSome || l.exponent.isSome || !more.isEmpty then none
  else if !l.negative then some n
  else if n = 0 ∨ 0x8000000000000000 < n then none
  else some (-n)

/-- The real number of a literal that the bytes have just been read from. -/
def real (l : Literal) : Reader Float := fun bytes =>
  let (n, power) := l.scaled
  let signed (x : Float) := if l.negative then -x else x
  let (isDivided, digits) := l.exponent.getD (false, [])
  let (e, more) := appendDigits (0x80000000) 0 digits
  if more.isEmpty then
    match scale 5 (Float.ofScientific n false 0) (if isDivided then power - e else power + e) with
    | some x => .ok (signed x) bytes
    | none => .error ⟨.numberOutOfRange, bytes.length⟩ bytes
  else if n = 0 ∨ isDivided then .ok (signed 0) bytes
  else .error ⟨.numberOutOfRange, bytes.length + more.length - 1⟩ bytes

/-- A number, as it was found where something else belongs. -/
def amount : Reader Found := do
  let l ← literal (.unfinished .value)
  match l.integer? with
  | some n => return .integer n
  | none => return .real (← real l)

end SchemaEditor.Json.Reader
