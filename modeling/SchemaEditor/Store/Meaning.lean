import SchemaEditor.Store.Aggregate
import SchemaEditor.Store.Content
import SchemaEditor.Store.Document.Function
import SchemaEditor.Store.Operator

/-!
# Meanings of expressions

An expression stands in a query, which may stand in another. What it means is how its value follows from rows
of the sources of these queries, what kind of value it is, and which columns it uses.
-/

namespace SchemaEditor.Store

/-! ## Where expressions are worked out -/

/-- The rows of the sources of a query. A source that has no partner in a join gives none. -/
abbrev Sources := List (Option Row)

/-- A row of results, or a group of rows, as windows see it. -/
structure Peer where
  /-- Its number among the rows of the query. -/
  number : Nat
  rows : Sources
  group : List Sources

/-- The rows that an expression is worked out for, and those that aggregates range over. -/
structure Frame where
  rows : Sources
  group : List Sources := []
  /-- The number of the row among those of the query. -/
  number : Nat := 0
  /-- The rows of the query in the orders that windows need. -/
  levels : List (Window × List Peer) := []

/-- The frames of the queries that an expression stands in, the innermost first. -/
abbrev Env := List Frame

/-- The order in which a function needs the rows of its query. -/
structure WindowOrder where
  function : String
  window : Window
  keys : Env → Except Failure (List Value)
  /-- Whether each of the terms is in descending order. -/
  descending : List Bool
  compare : List Value → List Value → Ordering

/-- A column of a source that an expression uses. The queries are counted outwards. -/
structure Use where
  depth : Nat
  source : Nat
  place : Nat
deriving DecidableEq

structure Meaning where
  affinity : Option Affinity := none
  collation : Option Collation := none
  /-- Whether the expression itself says how texts are compared. -/
  isExplicit : Bool := false
  /-- The column that the expression names and nothing else. -/
  column : Option Column := none
  /-- The name of the column that the expression gives, in whatever way its texts are compared. -/
  name : Option String := none
  uses : List Use := []
  /-- The columns that have to meet a condition for the expression to be true, and whether it is met by a
  single value. -/
  bounds : List (Use × Bool) := []
  /-- The queries whose rows the aggregates in it range over, counted outwards. -/
  aggregates : List Nat := []
  /-- The orders that functions of windows in it need. -/
  windows : List WindowOrder := []
  /-- Finds the row of a group that gives its greatest or least value. -/
  extreme : Option (Env → Except Failure (Option Nat)) := none
  /-- What keeps it from being worked out, although all names mean something. -/
  defect : Option Failure := none
  /-- Whether its value is a part of a document, and not a text of one. -/
  isPart : Env → Except Failure Bool := fun _ => .ok false
  eval : Env → Except Failure Value

def Frame.value (f : Frame) (source : Nat) (read : Row → Value) : Value :=
  match f.rows[source]? with
  | some (some r) => read r
  | _ => .null

def Env.value (env : Env) (depth source : Nat) (read : Row → Value) : Value :=
  ((env[depth]?).map fun f => f.value source read).getD .null

namespace Meaning

/-- Whether aggregates in it range over the rows of the innermost query. -/
def hasAggregate (m : Meaning) : Bool := m.aggregates.contains 0

/-- An expression that stands where rows are not put into groups. -/
def ungrouped (m : Meaning) : Except Failure Meaning := if m.hasAggregate then .error (.misusedAggregate "") else .ok m

/-! ## Columns -/

def constant (v : Value) : Meaning := { eval := fun _ => .ok v }

/-- An expression that cannot be worked out. -/
def defective (f : Failure) : Meaning := { defect := some f, eval := fun _ => .error f }

/-- Fails if one of some expressions cannot be worked out. -/
def checkSound (ms : List Meaning) : Except Failure Unit :=
  match ms.findSome? Meaning.defect with
  | some f => .error f
  | none => .ok ()

def ofColumn (c : Column) (u : Use) : Meaning where
  affinity := c.affinity
  collation := some c.collation
  column := some c
  name := some c.name
  uses := [u]
  defect := c.defect
  eval env := .ok (env.value u.depth u.source fun r => r.values.getD u.place .null)

def ofRowid (depth source : Nat) : Meaning where
  affinity := some .integer
  collation := some .binary
  column := some { name := "rowid", sqlType := "INTEGER", affinity := some .integer }
  name := some "rowid"
  eval env := .ok (env.value depth source fun r => .integer r.rowid)

/-- The meaning as seen from a query that stands this much deeper. -/
def fromWithin (m : Meaning) (depth : Nat) : Meaning :=
  { m with
    uses := m.uses.map fun u => { u with depth := u.depth + depth }
    aggregates := m.aggregates.map (· + depth)
    bounds := []
    windows := []
    extreme := none
    isPart := fun env => m.isPart (env.drop depth)
    eval := fun env => m.eval (env.drop depth) }

/-! ## Composition -/

/-- What an expression inherits from its parts. -/
def compose (parts : List Meaning) (eval : Env → Except Failure Value) : Meaning where
  collation := (parts.find? Meaning.isExplicit).bind Meaning.collation
  isExplicit := parts.any Meaning.isExplicit
  uses := parts.flatMap Meaning.uses
  aggregates := parts.flatMap Meaning.aggregates
  windows := parts.flatMap Meaning.windows
  extreme := parts.findSome? Meaning.extreme
  defect := parts.findSome? Meaning.defect
  eval

/-- The values of expressions. -/
def values (ms : List Meaning) (env : Env) : Except Failure (List Value) := ms.mapM fun m => m.eval env

/-- An expression whose value follows from the values of its parts. -/
def lift (parts : List Meaning) (f : List Value → Except Failure Value) : Meaning :=
  compose parts fun env => do f (← values parts env)

def lift₁ (m : Meaning) (f : Value → Value) : Meaning := compose [m] fun env => return f (← m.eval env)

def lift₂ (m n : Meaning) (f : Value → Value → Value) : Meaning :=
  compose [m, n] fun env => return f (← m.eval env) (← n.eval env)

def firstValue (env : Env) : List Meaning → Except Failure Value
  | [] => return .null
  | m :: ms => do
    let v ← m.eval env
    if v != .null then return v else firstValue env ms

/-- Whether the first value that is not NULL is a part of a document. -/
def firstIsPart (env : Env) : List Meaning → Except Failure Bool
  | [] => return false
  | m :: ms => do if (← m.eval env) != .null then m.isPart env else firstIsPart env ms

/-- The first value that is not NULL; those after it are not worked out. -/
def coalesce (ms : List Meaning) : Meaning :=
  { compose ms (fun env => firstValue env ms) with isPart := fun env => firstIsPart env ms }

/-- The column that several joined columns of one name make. -/
def merge (m : Meaning) (others : List Meaning) : Meaning :=
  if others.isEmpty then m
  else
    { m with
      uses := m.uses ++ others.flatMap Meaning.uses
      defect := (m :: others).findSome? Meaning.defect
      eval := fun env => firstValue env (m :: others) }

def unary (op : UnaryOperator) (m : Meaning) : Meaning :=
  let result := m.lift₁ (Operator.unary op)
  if op = .keep then { result with collation := m.collation, isExplicit := m.isExplicit, isPart := m.isPart } else result

def cast (m : Meaning) (sqlType : String) : Meaning :=
  let affinity := if sqlType = "" then .numeric else Affinity.ofType sqlType
  { m.lift₁ affinity.cast with affinity := some affinity, collation := m.collation, isPart := m.isPart }

def collate (m : Meaning) (k : Collation) : Meaning :=
  { m with collation := some k, isExplicit := true, column := none, bounds := [] }

/-- The column that a meaning is, if it is one of the innermost query. -/
def own? (m : Meaning) : Option Use := (m.uses.head?).filter fun u => m.column.isSome && u.depth == 0

/-- The bounds that a comparison of a column with something else sets, if that does not use the same source. -/
def bound (m : Meaning) (others : List Meaning) (single : Bool) : List (Use × Bool) :=
  match m.own? with
  | some u =>
    let isFree := others.all fun n => n.uses.all fun v => v.depth != 0 || v.source != u.source
    if isFree then [(u, single)] else []
  | none => []

def isNull (m : Meaning) : Meaning :=
  { m.lift₁ fun v => .ofTruth (some (v == .null)) with bounds := m.bound [] true }

def notNull (m : Meaning) : Meaning := m.lift₁ fun v => .ofTruth (some (v != .null))

/-- Whether the truth value is the one that is asked for; one that is unknown is not. -/
def isTruth (m : Meaning) (asked negated : Bool) : Meaning :=
  m.lift₁ fun v => .ofTruth (some ((v.truth == some asked) != negated))

def and (m n : Meaning) : Meaning :=
  { m.lift₂ n (Operator.binary .and) with bounds := m.bounds ++ n.bounds }

/-! ## Comparison -/

/-- How texts of two expressions are compared. -/
def sharedCollation (m n : Meaning) : Collation :=
  (if !m.isExplicit && n.isExplicit then n.collation else m.collation.orElse fun _ => n.collation).getD .binary

/-- Compares two expressions of single values. -/
def compareWith (op : ComparisonOperator) (m n : Meaning) (v w : Value) : Option Bool :=
  Operator.compare op (Operator.commonAffinity m.affinity n.affinity) (m.sharedCollation n) v w

/-- The strict form of an order. -/
def strict : ComparisonOperator → ComparisonOperator
  | .lessEqual => .less
  | .greaterEqual => .greater
  | op => op

/-- Two expressions and their values. -/
abbrev Pair := (Meaning × Meaning) × Value × Value

def Pair.test (op : ComparisonOperator) (p : Pair) : Option Bool := compareWith op p.1.1 p.1.2 p.2.1 p.2.2

/-- Compares rows of values. They are equal if all values are; the first that differs decides their order. -/
def compareRows (op : ComparisonOperator) : List Pair → Option Bool
  | [] => some true
  | p :: ps =>
    match op with
    | .equal | .same => Operator.and (p.test op) (compareRows op ps)
    | op =>
      if ps.isEmpty then p.test op
      else Operator.or (p.test (strict op)) (Operator.and (p.test .equal) (compareRows op ps))

def comparePairs (op : ComparisonOperator) (pairs : List Pair) : Option Bool :=
  match op with
  | .notEqual => (compareRows .equal pairs).map (!·)
  | .different => (compareRows .same pairs).map (!·)
  | op => compareRows op pairs

def bindsOne : ComparisonOperator → Option Bool
  | .equal | .same => some true
  | .less | .lessEqual | .greater | .greaterEqual => some false
  | .notEqual | .different => none

/-- Compares two expressions that have as many values. -/
def compare (op : ComparisonOperator) (ms ns : List Meaning) : Meaning :=
  let result := compose (ms ++ ns) fun env =>
    return .ofTruth (comparePairs op ((ms.zip ns).zip ((← values ms env).zip (← values ns env))))
  match ms, ns, bindsOne op with
  | [m], [n], some single => { result with bounds := m.bound [n] single ++ n.bound [m] single }
  | _, _, _ => result

/-- Whether a value is among others, each told by a comparison; unknown if only unknown comparisons are left. -/
def anyTrue (found : List (Option Bool)) : Option Bool := found.foldl Operator.or (some false)

def inList (m : Meaning) (items : List Meaning) : Meaning :=
  let result := compose (m :: items) fun env => do
    let v ← m.eval env
    let k := m.collation.getD .binary
    return .ofTruth (anyTrue ((← values items env).map (Operator.compare .equal m.affinity k v)))
  { result with collation := none, isExplicit := false, bounds := m.bound items (items.length == 1) }

/-! ## Choice -/

/-- The expression for the first condition that is true, or else the last one. -/
def chooseFrom (env : Env) (otherwise : Meaning) :
    List ((Env → Except Failure (Option Bool)) × Meaning) → Except Failure Meaning
  | [] => return otherwise
  | (condition, m) :: cases => do
    if (← condition env) == some true then return m else chooseFrom env otherwise cases

def choice (base : Option Meaning) (cases : List (Meaning × Meaning)) (otherwise : Option Meaning) : Meaning :=
  let condition (m : Meaning) (env : Env) : Except Failure (Option Bool) := do
    match base with
    | none => return (← m.eval env).truth
    | some b => return compareWith .equal b m (← b.eval env) (← m.eval env)
  let parts := base.toList ++ cases.flatMap (fun (m, n) => [m, n]) ++ otherwise.toList
  let chosen (env : Env) : Except Failure Meaning :=
    chooseFrom env (otherwise.getD (constant .null)) (cases.map fun (m, n) => (condition m, n))
  { compose parts (fun env => do (← chosen env).eval env) with isPart := fun env => do (← chosen env).isPart env }

/-! ## Functions -/

/-- How a function compares texts: as the first argument that says so has it. -/
def firstCollation (arguments : List Meaning) : Collation := (arguments.findSome? Meaning.collation).getD .binary

/-- The values of expressions as arguments of a function of documents. -/
def documentArguments (ms : List Meaning) (env : Env) : Except Failure (List Document.Argument) :=
  ms.mapM fun m => return ⟨← m.eval env, ← m.isPart env⟩

/-- What a function of documents gives. -/
def ofDocuments (ms : List Meaning) (f : Env → Except Failure Document.Argument) : Meaning :=
  { compose ms (fun env => return (← f env).value) with isPart := fun env => return (← f env).isPart }

/-- Functions that give one of their arguments as it is. -/
def keepsParts (function : String) : Bool :=
  ["likely", "unlikely", "likelihood", "max", "min", "nullif"].contains function

def call (function : String) (arguments : List Meaning) : Meaning :=
  match function.toLower, arguments with
  | "coalesce", ms | "ifnull", ms => coalesce ms
  | "iif", [condition, m, n] => choice none [(condition, m)] (some n)
  | function, ms =>
    if Document.isFunction function then
      ofDocuments ms fun env => do Document.apply function (← documentArguments ms env)
    else
      let result := lift ms (Function.apply (firstCollation ms) function)
      if keepsParts function then { result with isPart := fun env => ms.anyM fun m => m.isPart env } else result

/-- The rows of the group of a query that meet a condition, as frames. -/
def members (depth : Nat) (condition : Option Meaning) (env : Env) : Except Failure (List Env) :=
  match env.drop depth with
  | [] => return []
  | frame :: outer =>
    (frame.group.map fun rows => (env.take depth ++ { rows } :: outer : Env)).filterM fun env => do
      match condition with
      | none => return true
      | some m => return (← m.eval env).truth == some true

/-- Removes rows that are equal to earlier ones in the order `compare`. -/
def distinctBy {α : Type} (compare : α → α → Ordering) (rows : List α) : List α :=
  (rows.foldl (fun kept r => if kept.any fun e => compare e r == .eq then kept else r :: kept) []).reverse

def isBetter (function : String) (k : Collation) (v w : Value) : Bool :=
  compareValues k v w == if sameName function "max" then .gt else .lt

/-- The place of the first value that is better than all before it and at least as good as all after it. -/
def bestPlace (function : String) (k : Collation) (vs : List Value) : Option Nat :=
  let step (best : Option (Nat × Value)) (p : Value × Nat) : Option (Nat × Value) :=
    if p.1 == .null then best
    else match best with
      | some (_, w) => if isBetter function k p.1 w then some (p.2, p.1) else best
      | none => some (p.2, p.1)
  (vs.zipIdx.foldl step none).map Prod.fst

/-- A function of the rows of a group of the query that stands this far outwards. `arrange` puts them into the order of the
terms. -/
def aggregate (depth : Nat) (function : String) (distinct : Bool) (arguments : List Meaning) (condition : Option Meaning)
    (terms : List Meaning) (arrange : List Env → Except Failure (List Env)) : Meaning :=
  let k := firstCollation arguments
  let isSame (a b : List Value × Env) : Ordering := compareValues k (a.1.headD .null) (b.1.headD .null)
  let parts := arguments ++ condition.toList ++ terms
  let rows (env : Env) : Except Failure (List Env) := do
    let envs ← members depth condition env
    let envs ←
      if distinct then
        let valued ← envs.mapM fun env => return (← values arguments env, env)
        pure ((distinctBy isSame valued).map Prod.snd)
      else pure envs
    arrange envs
  let result :=
    if Document.isFunction function.toLower then
      ofDocuments parts fun env => do
        Document.applyToGroup function.toLower (← (← rows env).mapM (documentArguments arguments))
    else
      compose parts fun env => do Aggregate.apply k function (← (← rows env).mapM (values arguments))
  let extreme (env : Env) : Except Failure (Option Nat) := do
    let rows ← (← members depth none env).mapM (values arguments)
    return bestPlace function k (rows.map fun r => r.headD .null)
  let isExtreme := depth == 0 && (sameName function "max" || sameName function "min")
  { result with aggregates := depth :: result.aggregates, extreme := if isExtreme then some extreme else none }

def pattern (op : PatternOperator) (subject pattern : Meaning) (escape : Option Meaning) : Meaning :=
  match op with
  | .like => lift (pattern :: subject :: escape.toList) (Function.apply .binary "like")
  | .glob => lift [pattern, subject] (Function.apply .binary "glob")
  | _ => lift [pattern, subject] fun _ => .error (.invalid "unable to use function MATCH in the requested context")

end Meaning

end SchemaEditor.Store
