import SchemaEditor.Store.Comparison
import SchemaEditor.Store.Expression

/-!
# Operators

What the operators of expressions make of values. Nearly all of them give NULL if an operand is NULL.
-/

namespace SchemaEditor.Store.Operator

/-! ## Arithmetic -/

def onFloats (op : BinaryOperator) (v w : Value) : Value :=
  let x := v.toFloat
  let y := w.toFloat
  match op with
  | .add => realValue (x + y)
  | .subtract => realValue (x - y)
  | .multiply => realValue (x * y)
  | .divide => if y == 0 then .null else realValue (x / y)
  | .remainder =>
    let n := w.toInteger
    if n = 0 then .null else .real (.ofInt (v.toInteger.tmod n))
  | _ => .null

def onIntegers (op : BinaryOperator) (a b : Int) : Value :=
  match op with
  | .add => integerValue (a + b)
  | .subtract => integerValue (a - b)
  | .multiply => integerValue (a * b)
  | .divide => if b = 0 then .null else integerValue (a.tdiv b)
  | .remainder => if b = 0 then .null else .integer (a.tmod b)
  | _ => .null

def arithmetic (op : BinaryOperator) (v w : Value) : Value :=
  match v.toNumber, w.toNumber with
  | .null, _ | _, .null => .null
  | .integer a, .integer b => onIntegers op a b
  | a, b => onFloats op a b

/-! ## Bits -/

/-- The 64 bits of an integer. -/
def bits (n : Int) : Nat := (n % 0x10000000000000000).toNat

/-- Shifts to the left, or to the right if the distance is below zero. The sign fills from the left. -/
def shift (n distance : Int) : Int :=
  if 0 ≤ distance then
    if 64 ≤ distance then 0 else ofBits (bits n * Nat.pow 2 distance.toNat % 0x10000000000000000)
  else if distance ≤ -64 then (if n < 0 then -1 else 0)
  else n >>> distance.natAbs

def onBits (op : BinaryOperator) (a b : Int) : Int :=
  match op with
  | .bitAnd => ofBits (bits a &&& bits b)
  | .bitOr => ofBits (bits a ||| bits b)
  | .shiftLeft => shift a b
  | _ => shift a (-b)

/-! ## Truth -/

def and : Option Bool → Option Bool → Option Bool
  | some false, _ | _, some false => some false
  | some true, some true => some true
  | _, _ => none

def or : Option Bool → Option Bool → Option Bool
  | some true, _ | _, some true => some true
  | some false, some false => some false
  | _, _ => none

/-! ## Comparison -/

/-- What both sides of a comparison are made, if one of them has a kind. -/
def commonAffinity : Option Affinity → Option Affinity → Option Affinity
  | some a, some b => if a.isNumeric || b.isNumeric then some .numeric else none
  | none, a | a, none => a

def isText : Value → Bool
  | .text _ => true
  | _ => false

/-- Makes both sides of a comparison values of one kind. -/
def alike (affinity : Option Affinity) (v w : Value) : Value × Value :=
  match affinity with
  | some .text => if isText v || isText w then (Affinity.text.convert v, Affinity.text.convert w) else (v, w)
  | some .blob | none => (v, w)
  | some _ => if isText v || isText w then (textToNumber v, textToNumber w) else (v, w)
where
  textToNumber : Value → Value
    | .text s => (spelledNumber? s).getD (.text s)
    | v => v

def accepts : ComparisonOperator → Ordering → Bool
  | .equal, o | .same, o => o == .eq
  | .notEqual, o | .different, o => o != .eq
  | .less, o => o == .lt
  | .lessEqual, o => o != .gt
  | .greater, o => o == .gt
  | .greaterEqual, o => o != .lt

def knowsNull : ComparisonOperator → Bool
  | .same | .different => true
  | _ => false

/-- Compares two values of one kind. -/
def compareAlike (op : ComparisonOperator) (k : Collation) (v w : Value) : Option Bool :=
  if (v == .null || w == .null) && !knowsNull op then none else some (accepts op (compareValues k v w))

def compare (op : ComparisonOperator) (affinity : Option Affinity) (k : Collation) (v w : Value) : Option Bool :=
  let (v, w) := alike affinity v w
  compareAlike op k v w

/-! ## All operators -/

/-- An operator between two values, apart from comparisons. -/
def binary (op : BinaryOperator) (v w : Value) : Value :=
  match op with
  | .and => .ofTruth (and v.truth w.truth)
  | .or => .ofTruth (or v.truth w.truth)
  | .concat => if v == .null || w == .null then .null else .text (v.shown ++ w.shown)
  | .bitAnd | .bitOr | .shiftLeft | .shiftRight =>
    if v == .null || w == .null then .null else .integer (onBits op v.toInteger w.toInteger)
  | .add | .subtract | .multiply | .divide | .remainder => arithmetic op v w
  | .compare _ | .member | .memberValue => .null

def unary (op : UnaryOperator) (v : Value) : Value :=
  match op with
  | .keep => v
  | .not => .ofTruth (v.truth.map (!·))
  | .negate => arithmetic .subtract (.integer 0) v
  | .complement => if v == .null then .null else .integer (-v.toInteger - 1)

end SchemaEditor.Store.Operator
