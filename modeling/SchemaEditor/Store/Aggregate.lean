import SchemaEditor.Store.Function

/-!
# Functions of groups

What aggregates give for the rows of a group. Integers are added up exactly until a number comes that is none; from
then on the sum is a real number, with a correction for what was lost on the way.
-/

namespace SchemaEditor.Store

/-! ## Sums -/

/-- A sum of real numbers. What rounding took away is summed up apart. -/
structure RealSum where
  value : Float
  lost : Float

namespace RealSum

def add (s : RealSum) (x : Float) : RealSum :=
  let t := s.value + x
  let lost := if s.value.abs > x.abs then (s.value - t) + x else (x - t) + s.value
  ⟨t, s.lost + lost⟩

/-- An integer as two real numbers that hold all its digits. -/
def halves (n : Int) : Float × Float :=
  if n.natAbs < 0x10000000000000 then (.ofInt n, 0)
  else
    let low := n.tmod 0x4000
    (.ofInt (n - low), .ofInt low)

def ofInteger (n : Int) : RealSum := let (high, low) := halves n; ⟨high, low⟩

def addInteger (s : RealSum) (n : Int) : RealSum := let (high, low) := halves n; (s.add high).add low

def result (s : RealSum) : Float :=
  if Decimal.isNaN s.lost || Decimal.isInfinite s.lost then s.value else s.value + s.lost

end RealSum

inductive Sum where
  | whole (n : Int)
  /-- A real sum. It may be one only because integers became too large. -/
  | real (s : RealSum) (tooLarge : Bool)

namespace Sum

/-- The integer that a value is, or that a text spells. -/
def integer? : Value → Option Int
  | .integer n => some n
  | .text s =>
    match (Numeral.ofText? s.toList).map numeralValue with
    | some (.integer n) => some n
    | _ => none
  | _ => none

def add (s : Sum) (v : Value) : Sum :=
  match s, integer? v with
  | whole m, some n => if isInteger64 (m + n) then whole (m + n) else real ((RealSum.ofInteger m).addInteger n) true
  | whole m, none => real ((RealSum.ofInteger m).add v.toFloat) false
  | real s tooLarge, some n => real (s.addInteger n) tooLarge
  | real s _, none => real (s.add v.toFloat) false

def ofValues (vs : List Value) : Sum := vs.foldl add (whole 0)

/-- The sum as a number, unless integers became too large. -/
def value : Sum → Except Failure Value
  | whole n => .ok (.integer n)
  | real _ true => .error .integerOverflow
  | real s false => .ok (realValue s.result)

def toFloat : Sum → Float
  | whole n => .ofInt n
  | real s _ => s.result

end Sum

/-! ## Aggregates -/

namespace Aggregate

/-- Applies a function to its arguments in the rows of a group; rows with NULL do not count. -/
def apply (k : Collation) (name : String) (rows : List (List Value)) : Except Failure Value :=
  let firsts := (rows.filterMap List.head?).filter (· != .null)
  let joined (separator : List Value → String) : Value :=
    match rows.filter fun r => r.head? != some .null with
    | [] => .null
    | r :: rs => .text (rs.foldl (fun s r => s ++ separator r ++ (r.headD .null).shown) (r.headD .null).shown)
  match name.toLower with
  | "count" => .ok (.integer (rows.filter fun r => r.head? != some .null).length)
  | "sum" => if firsts.isEmpty then .ok .null else (Sum.ofValues firsts).value
  | "total" => .ok (realValue (Sum.ofValues firsts).toFloat)
  | "avg" =>
    .ok (if firsts.isEmpty then .null else realValue ((Sum.ofValues firsts).toFloat / .ofNat firsts.length))
  | "max" => .ok (Function.best (fun v w => compareValues k v w == .gt) firsts)
  | "min" => .ok (Function.best (fun v w => compareValues k v w == .lt) firsts)
  | "group_concat" | "string_agg" => .ok (joined fun r => ((r[1]?).map Value.shown).getD ",")
  | _ => .ok .null

end Aggregate

end SchemaEditor.Store
