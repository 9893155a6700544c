import SchemaEditor.Store.Order

/-!
# Windows

A function of a window is worked out for each row from the rows near it. The rows are divided into partitions and sorted.
Those that are in the same place are peers and form a group. The window of a row is a part of its partition between two
bounds, which count rows, groups, or what is added to a value.
-/

namespace SchemaEditor.Store

/-- Where a window begins or ends. -/
inductive Bound where
  | unbounded
  | before (offset : Meaning)
  | current
  | after (offset : Meaning)

structure WindowSpec where
  /-- The window as it is written, by which it is told from others. -/
  window : Window
  partition : List Meaning
  order : List SortTerm
  unit : FrameUnit
  first : Bound
  last : Bound
  exclusion : Exclusion

namespace WindowSpec

/-- What the rows of the query are sorted by, the partitions first. -/
def terms (w : WindowSpec) : List SortTerm := (w.partition.map fun m => ⟨m, false, false⟩) ++ w.order

def keys (w : WindowSpec) (env : Env) : Except Failure (List Value) := Meaning.values (w.terms.map SortTerm.meaning) env

/-! ## Partitions -/

/-- A row of a partition. -/
structure Member where
  env : Env
  /-- What it is sorted by within the partition. -/
  keys : List Value
  isCurrent : Bool

structure Partition where
  members : List Member
  /-- The place of the current row. -/
  place : Nat
  /-- The numbers of the groups that the rows belong to. -/
  groups : List Nat

/-- Numbers groups of rows that are the same in a row. -/
def numberGroups {α : Type} (isSame : α → α → Bool) : Nat → List α → List Nat
  | _, [] => []
  | n, [_] => [n]
  | n, a :: b :: rest => n :: numberGroups isSame (if isSame a b then n else n + 1) (b :: rest)

/-- The partition of the current row. -/
def partitionOf (w : WindowSpec) (env : Env) : Except Failure Partition := do
  let frame := env.headD { rows := [] }
  let outer := env.tail
  let count := w.partition.length
  let keyed ← ((frame.levels.lookup w.window).getD []).mapM fun p => do
    let env : Env := { rows := p.rows, group := p.group } :: outer
    return (← w.keys env, ({ env, keys := [], isCurrent := p.number == frame.number } : Member))
  let own := ((keyed.find? fun (_, m) => m.isCurrent).map Prod.fst).getD []
  let isOwn (keys : List Value) : Bool := compareTerms (w.terms.take count) keys own == .eq
  let members := (keyed.filter fun (keys, _) => isOwn keys).map fun (keys, m) => { m with keys := keys.drop count }
  let isPeer (a b : Member) : Bool := compareTerms w.order a.keys b.keys == .eq
  return ⟨members, (members.findIdx? Member.isCurrent).getD 0, numberGroups isPeer 0 members⟩

namespace Partition

def groupOf (p : Partition) (i : Nat) : Nat := p.groups.getD i 0

def currentGroup (p : Partition) : Nat := p.groupOf p.place

/-- The place of the first row of the group of the current one. -/
def groupStart (p : Partition) : Nat := (p.groups.takeWhile fun g => decide (g < p.currentGroup)).length

/-- The number of rows that do not come after the group of the current one. -/
def groupEnd (p : Partition) : Nat := (p.groups.takeWhile fun g => decide (g ≤ p.currentGroup)).length

def valueAt (p : Partition) (m : Meaning) (i : Nat) : Except Failure Value :=
  match p.members[i]? with
  | some r => m.eval r.env
  | none => .ok .null

def here (p : Partition) (m : Meaning) : Except Failure Value := p.valueAt m p.place

end Partition

/-! ## Bounds -/

/-- A bound with a number as its offset. -/
inductive FixedBound where
  | unbounded
  | before (offset : Value)
  | current
  | after (offset : Value)

def badOffset (side kind : String) : Failure := .invalid ("frame " ++ side ++ " offset must be a non-negative " ++ kind)

/-- The number that an offset is. -/
def offset (unit : FrameUnit) (side : String) (m : Meaning) : Except Failure Value := do
  match unit, Affinity.numeric.convert (← m.eval []) with
  | .range, .real x => if x < 0 then .error (badOffset side "number") else return .real x
  | .range, .integer n => if n < 0 then .error (badOffset side "number") else return .integer n
  | .range, _ => throw (badOffset side "number")
  | _, .integer n => if n < 0 then .error (badOffset side "integer") else return .integer n
  | _, _ => throw (badOffset side "integer")

def fixedBound (unit : FrameUnit) (side : String) : Bound → Except Failure FixedBound
  | .unbounded => return .unbounded
  | .current => return .current
  | .before m => return .before (← offset unit side m)
  | .after m => return .after (← offset unit side m)

/-- A value that is moved on in its order, if it is a number. -/
def shifted (descending : Bool) (by_ : Value) : Value → Value
  | .integer n => Operator.arithmetic (if descending then .subtract else .add) (.integer n) by_
  | .real x => Operator.arithmetic (if descending then .subtract else .add) (.real x) by_
  | v => v

/-- Compares rows, of which the first is moved on by `a` and the second by `b`. -/
def compareShifted (w : WindowSpec) (p : Partition) (i j : Nat) (a b : Value) : Ordering :=
  match w.unit, w.order with
  | .rows, _ => compare (i + a.toInteger) (j + b.toInteger)
  | .range, [t] =>
    let key (k : Nat) : Value := ((p.members[k]?).bind fun m => m.keys.head?).getD .null
    t.compare (shifted t.descending a (key i)) (shifted t.descending b (key j))
  | _, _ => compare (p.groupOf i + a.toInteger) (p.groupOf j + b.toInteger)

/-- How a row stands to a bound that is not the end of the partition. -/
def placeAt (w : WindowSpec) (p : Partition) (i : Nat) : FixedBound → Option Ordering
  | .unbounded => none
  | .current =>
    some (if w.unit = .rows then compare i p.place else compare (p.groupOf i) p.currentGroup)
  | .before v => some (w.compareShifted p i p.place v (.integer 0))
  | .after v => some (w.compareShifted p i p.place (.integer 0) v)

def isExcluded (w : WindowSpec) (p : Partition) (i : Nat) : Bool :=
  match w.exclusion with
  | .nothing => false
  | .current => i == p.place
  | .group => p.groupOf i == p.currentGroup
  | .ties => p.groupOf i == p.currentGroup && i != p.place

/-- The places of the rows in the window of the current row. -/
def window? (w : WindowSpec) (p : Partition) : Except Failure (List Nat) := do
  let first ← fixedBound w.unit "starting" w.first
  let last ← fixedBound w.unit "ending" w.last
  return (List.range p.members.length).filter fun i =>
    w.placeAt p i first != some .lt && w.placeAt p i last != some .gt && !w.isExcluded p i

/-! ## Functions -/

def ratio (a b : Nat) : Value := .real (if b = 0 then 0 else .ofNat a / .ofNat b)

/-- The number of the part that a row is in, if some rows are divided into parts as equal as they can be, the larger ones
first. -/
def partNumber (rows parts place : Nat) : Nat :=
  let size := rows / parts
  let large := rows % parts
  if size = 0 then place + 1
  else if place < large * (size + 1) then place / (size + 1) + 1
  else large + (place - large * (size + 1)) / size + 1

/-- The value of the row that is as far from the current one as a function says. -/
def neighbour (p : Partition) (forward : Bool) (arguments : List Meaning) : Except Failure Value := do
  let distance ← match arguments[1]? with
    | some m => p.here m
    | none => pure (.integer 1)
  let place := Operator.arithmetic (if forward then .add else .subtract) (.integer p.place) distance
  match Affinity.numeric.convert place, arguments.head? with
  | .integer n, some m =>
    if 0 ≤ n ∧ n.toNat < p.members.length then return ← p.valueAt m n.toNat
  | _, _ => pure ()
  match arguments[2]? with
  | some m => p.here m
  | none => return .null

/-- The number that an argument has to be. -/
def positive (text : String) (v : Value) : Except Failure Nat :=
  match Affinity.numeric.convert v with
  | .integer n => if n ≤ 0 then .error (.invalid text) else .ok n.toNat
  | _ => .error (.invalid text)

/-- Applies an aggregate to the rows of the window that meet a condition. -/
def aggregate (w : WindowSpec) (p : Partition) (function : String) (arguments : List Meaning) (condition : Option Meaning) :
    Except Failure Value := do
  let envs := (← w.window? p).filterMap fun i => (p.members[i]?).map Member.env
  let envs ← envs.filterM fun env => do
    match condition with
    | some m => return (← m.eval env).truth == some true
    | none => return true
  if Document.isFunction function then
    let rows ← envs.mapM (Meaning.documentArguments arguments)
    return (← Document.applyToGroup function rows).value
  else Aggregate.apply (Meaning.firstCollation arguments) function (← envs.mapM (Meaning.values arguments))

/-- What a function gives for the current row. -/
def apply (w : WindowSpec) (function : String) (arguments : List Meaning) (condition : Option Meaning) (env : Env) :
    Except Failure Value := do
  let p ← w.partitionOf env
  let count := p.members.length
  match function, arguments with
  | "row_number", _ => return .integer (p.place + 1 : Nat)
  | "rank", _ => return .integer (p.groupStart + 1 : Nat)
  | "dense_rank", _ => return .integer (p.currentGroup + 1 : Nat)
  | "percent_rank", _ => return ratio p.groupStart (count - 1)
  | "cume_dist", _ => return ratio p.groupEnd count
  | "ntile", [m] =>
    let parts := (← p.valueAt m 0).toInteger
    if parts ≤ 0 then throw (.invalid "argument of ntile must be a positive integer")
    return .integer (partNumber count parts.toNat p.place)
  | "lag", ms => neighbour p false ms
  | "lead", ms => neighbour p true ms
  | "first_value", [m] => do
    match (← w.window? p).head? with
    | some i => p.valueAt m i
    | none => return .null
  | "last_value", [m] => do
    match (← w.window? p).getLast? with
    | some i => p.valueAt m i
    | none => return .null
  | "nth_value", [m, n] => do
    let n ← positive "second argument to nth_value must be a positive integer" (← p.here n)
    match (← w.window? p)[n - 1]? with
    | some i => p.valueAt m i
    | none => return .null
  | function, ms => w.aggregate p function ms condition

/-- The bounds that some functions have whatever is written. -/
def ownBounds? : String → Option (FrameUnit × FrameBound × FrameBound)
  | "row_number" => some (.rows, .unbounded, .current)
  | "rank" | "dense_rank" => some (.range, .unbounded, .current)
  | "percent_rank" => some (.groups, .current, .unbounded)
  | "cume_dist" => some (.groups, .after (.literal (.integer 1)), .unbounded)
  | "ntile" => some (.rows, .current, .unbounded)
  | "lag" | "lead" => some (.rows, .unbounded, .unbounded)
  | _ => none

/-- The window as a function has it. -/
def windowFor (w : WindowSpec) (function : String) : Window :=
  match w.window, ownBounds? function with
  | .given base partition order _ _ _ _, some (unit, first, last) =>
    .given base partition order (some unit) first last .nothing
  | window, _ => window

end WindowSpec

/-- A function of the rows of a window. -/
def Meaning.window (w : WindowSpec) (function : String) (arguments : List Meaning) (condition : Option Meaning) : Meaning :=
  let name := function.toLower
  let w := { w with window := w.windowFor name }
  let result := compose (arguments ++ condition.toList) (w.apply name arguments condition)
  let parts := w.terms.map SortTerm.meaning
  { result with
    uses := result.uses ++ parts.flatMap Meaning.uses
    aggregates := result.aggregates ++ parts.flatMap Meaning.aggregates
    defect := result.defect.orElse fun _ => parts.findSome? Meaning.defect
    windows := [⟨function, w.window, w.keys, w.terms.map SortTerm.descending, compareTerms w.terms⟩]
    isPart := fun _ => .ok (Document.isFunction name)
    extreme := none }

end SchemaEditor.Store
