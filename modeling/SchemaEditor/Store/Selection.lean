import SchemaEditor.Store.Join
import SchemaEditor.Store.Order

/-!
# Selections

What a query does with the rows of its sources: it keeps those that meet its condition, puts them into groups,
works out results, and sorts and cuts them.
-/

namespace SchemaEditor.Store

/-- A column of a result. -/
structure Output where
  column : Column
  /-- The name that the query gives it, if it does. -/
  label : Option String := none
  /-- Its name as a result shows it. -/
  heading : String := column.name
  /-- Its name as a query around it sees it. -/
  written : String := column.name
  meaning : Meaning
  /-- The expression that gives it, if it is given by one. -/
  expr : Option Expr := none

structure Selection where
  /-- What expressions in it refer to. -/
  context : Context
  join : Join
  condition : Option Meaning := none
  groups : List Meaning := []
  having : Option Meaning := none
  outputs : List Output
  distinct : Bool := false

/-! ## Groups -/

def Meaning.isTrue (m : Option Meaning) (env : Env) : Except Failure Bool := do
  match m with
  | some m => return (← m.eval env).truth == some true
  | none => return true

namespace Selection

/-- Puts rows that have the same keys into groups. Without keys there is one group, even of no rows. -/
def groupsOf (s : Selection) (descending : List Bool) (env : Env) (rows : List Sources) :
    Except Failure (List (List Sources)) := do
  if s.groups.isEmpty then return [rows]
  let keyed ← rows.mapM fun rows => return (← Meaning.values s.groups ({ rows } :: env), rows)
  let terms := s.groups.mapIdx fun i m =>
    let isDescending := descending.getD i false
    (⟨m, isDescending, isDescending⟩ : SortTerm)
  let compare (a b : List Value × Sources) : Ordering := compareTerms terms a.1 b.1
  return ((sortBy compare keyed).splitBy fun a b => compare a b == .eq).map (·.map Prod.snd)

/-- A group as a frame. It shows the row with the value that its least or greatest value is, or the first. -/
def groupFrame (s : Selection) (env : Env) (group : List Sources) : Except Failure Frame := do
  let frame : Frame := { rows := group.headD [], group }
  match s.outputs.findSome? fun o => o.meaning.extreme with
  | some find =>
    match ← find (frame :: env) with
    | some i => return { frame with rows := group.getD i [] }
    | none => return frame
  | none => return frame

def isGrouped (s : Selection) : Bool := !s.groups.isEmpty || s.outputs.any fun o => o.meaning.hasAggregate

/-! ## What is asked of the sources -/

def Demand.forSource (uses : List Use) (leading : Option (Use × Bool)) (bounds : List (Use × Bool)) (k : Nat) :
    Demand :=
  let isOwn (u : Use) : Bool := u.depth == 0 && u.source == k
  { used := (uses.filter isOwn).map Use.place
    leading := (leading.filter fun (u, _) => isOwn u).map fun (u, descending) => (u.place, descending)
    bounds := (bounds.filter fun (u, _) => isOwn u).map fun (u, single) => (u.place, single) }

/-- The column that a result is, if it is one. -/
def ownOutput? (s : Selection) (i : Nat) : Option Use := s.outputs[i]?.bind fun o => o.meaning.own?

/-- The columns that are used when some of the results are. -/
def usesOf (s : Selection) (order : List SortTerm) (used : List Nat) : List Use :=
  let results := if s.distinct then List.range s.outputs.length else used
  results.flatMap (fun i => (s.outputs[i]?.map fun o => o.meaning.uses).getD [])
    ++ (s.condition.toList ++ s.groups ++ s.having.toList).flatMap Meaning.uses
    ++ order.flatMap (fun t => t.meaning.uses) ++ s.join.uses

def aggregates (s : Selection) (order : List SortTerm) : List Nat :=
  (s.outputs.map Output.meaning ++ s.condition.toList ++ s.groups ++ s.having.toList
    ++ order.map SortTerm.meaning).flatMap Meaning.aggregates ++ s.join.aggregates

/-- What keeps the rows from being worked out, whichever results are used. -/
def defect (s : Selection) (order : List SortTerm) (limit offset : Option Meaning) : Option Failure :=
  let results := if s.distinct then s.outputs.map Output.meaning else []
  let parts := results ++ s.condition.toList ++ s.groups ++ s.having.toList ++ order.map SortTerm.meaning
    ++ limit.toList ++ offset.toList
  s.join.defect.orElse fun _ => parts.findSome? Meaning.defect

/-- What is asked of the sources if this is asked of the results. -/
def demand (s : Selection) (order : List SortTerm) (grouped isCut : Bool) (d : Demand) : Nat → Demand :=
  let own (order : Option (Nat × Bool)) : Option (Use × Bool) :=
    order.bind fun (i, descending) => (s.ownOutput? i).map fun u => (u, descending)
  let leading := match order with
    | t :: _ => t.meaning.own?.map fun u => (u, t.descending)
    | [] => own d.leading
  let outer := d.bounds.filterMap fun (i, single) => (s.ownOutput? i).map fun u => (u, single)
  let bounds := ((s.condition.map Meaning.bounds).getD []) ++ if grouped || isCut then [] else outer
  Demand.forSource (s.usesOf order d.used) (if grouped then none else leading) bounds

/-! ## Windows -/

/-- The orders that functions of windows need, each once. -/
def windows (s : Selection) (order : List SortTerm) : List WindowOrder :=
  let all := (s.outputs.map Output.meaning ++ order.map SortTerm.meaning).flatMap Meaning.windows
  (all.foldl (fun kept w => if kept.any fun o => o.window == w.window then kept else w :: kept) []).reverse

def sortPeers (w : WindowOrder) (env : Env) (peers : List Peer) : Except Failure (List Peer) := do
  let keyed ← peers.mapM fun p => return (← w.keys ({ rows := p.rows, group := p.group } :: env), p)
  return (sortBy (fun a b => w.compare a.1 b.1) keyed).map Prod.snd

/-- The rows in the order of each window, and at last. The last window comes first, and each starts from the order of
the one before it. -/
def levels (env : Env) (peers : List Peer) :
    List WindowOrder → Except Failure (List (Window × List Peer) × List Peer)
  | [] => return ([], peers)
  | w :: ws => do
    let (later, peers) ← levels env peers ws
    let sorted ← sortPeers w env peers
    return ((w.window, sorted) :: later, sorted)

/-- Lets rows know the orders of windows. -/
def withWindows (windows : List WindowOrder) (env : Env) (frames : List Frame) : Except Failure (List Frame) := do
  let peers := frames.mapIdx fun i f => (⟨i, f.rows, f.group⟩ : Peer)
  let (levels, sorted) ← levels env peers windows
  return sorted.map fun p => { rows := p.rows, group := p.group, number := p.number, levels }

/-! ## Results -/

/-- The directions in which groups come. They are those of the first order that the groups are put into, if it has as
many terms, unless the rows come sorted from their source. -/
def groupDirections (s : Selection) (order : List SortTerm) (demand : Nat → Demand) : List Bool :=
  let first := match (s.windows order).getLast? with
    | some w => w.descending
    | none => order.map SortTerm.descending
  let isSorted := match s.groups with
    | [m] =>
      let leading := m.own?.map fun u => (u.place, false)
      leading.isSome && s.join.sorts fun k => { demand k with leading := leading }
    | _ => false
  if isSorted || first.length ≠ s.groups.length then [] else first

def frames (s : Selection) (grouped : Bool) (descending : List Bool) (demand : Nat → Demand) (env : Env) : Flow Frame :=
  let rows := (s.join.read demand env).filterM fun rows => Meaning.isTrue s.condition ({ rows } :: env)
  if grouped then
    let groups := Flow.ofExcept do s.groupsOf descending env (← rows.whole)
    (groups.mapM (s.groupFrame env)).filterM fun frame => Meaning.isTrue s.having (frame :: env)
  else rows.map fun rows => { rows }

/-- The number that a limit is; less than zero is no limit. -/
def limitValue (m : Option Meaning) (env : Env) : Except Failure (Option Nat) := do
  match m with
  | none => return none
  | some m =>
    match Affinity.numeric.convert (← m.eval env) with
    | .integer n => return if n < 0 then none else some n.toNat
    | _ => throw .typeMismatch

def cut {α : Type} (limit offset : Option Nat) (rows : Flow α) : Flow α :=
  let rest := rows.drop (offset.getD 0)
  match limit with
  | some n => rest.take n
  | none => rest

/-- Whether the rows of the sources come in the order of the results, so that nothing is to be sorted. -/
def isSorted (s : Selection) (order : List SortTerm) (demand : Nat → Demand) : Bool :=
  match order with
  | [] => true
  | [t] =>
    (demand 0).leading.isSome && t.meaning.own?.isSome && !s.isGrouped && (s.windows order).isEmpty && s.join.sorts demand
  | _ => false

/-- A row of results, with what it is sorted by and what it comes from. -/
structure Result where
  frame : Frame
  values : List Value
  keys : List Value

/-- The results, sorted and cut. -/
def results (s : Selection) (order : List SortTerm) (limit offset : Option Meaning) (d : Demand) (env : Env) :
    Flow Result :=
  let grouped := s.isGrouped
  let demand := s.demand order grouped (limit.isSome || offset.isSome) d
  let frames := s.frames grouped (s.groupDirections order demand) demand env
  let windows := s.windows order
  let frames := if windows.isEmpty then frames else Flow.ofExcept do withWindows windows env (← frames.whole)
  let results := frames.mapM fun frame =>
    return (⟨frame, ← Meaning.values (s.outputs.map Output.meaning) (frame :: env),
      ← Meaning.values (order.map SortTerm.meaning) (frame :: env)⟩ : Result)
  let collations := s.outputs.map fun o => o.meaning.collation.getD .binary
  let compare (a b : Result) : Ordering := compareColumns collations a.values b.values
  let results := if s.distinct then results.filterItems (Meaning.distinctBy compare) else results
  let results :=
    if s.isSorted order demand then results
    else results.gather (sortBy fun a b => compareTerms order a.keys b.keys)
  match limitValue limit env, limitValue offset env with
  | .ok limit, .ok offset => cut limit offset results
  | .error e, _ | _, .error e => ⟨[], some e⟩

/-- What the selection gives, sorted and cut. -/
def relation (s : Selection) (order : List SortTerm) (limit offset : Option Meaning) : Relation where
  columns := s.outputs.map Output.column
  uses := (s.usesOf order (List.range s.outputs.length)).filterMap fun u =>
    if u.depth = 0 then none else some { u with depth := u.depth - 1 }
  aggregates := (s.aggregates order).filterMap fun n => if n = 0 then none else some (n - 1)
  headings := s.outputs.map Output.heading
  written := s.outputs.map Output.written
  defect := s.defect order limit offset
  sorts d := order.isEmpty && !s.isGrouped && (s.windows []).isEmpty && s.join.sorts (s.demand order false false d)
  isPart i env := do
    match s.outputs[i]?, ← (s.results order limit offset (.everything (s.outputs.map Output.column)) env).head? with
    | some o, some r => o.meaning.isPart (r.frame :: env)
    | _, _ => return false
  read d env := (s.results order limit offset d env).map fun r => ⟨0, r.values⟩

/-- All of a relation. -/
def ofRelation (ctx : Context) (rel : Relation) : Selection :=
  let join := Join.ofRelation none false none rel
  { context := ctx.enter { sources := join.sources }
    join
    outputs := rel.columns.mapIdx fun i c =>
      { column := c
        heading := rel.headings.getD i c.name
        written := rel.written.getD i c.name
        meaning := .ofColumn c ⟨0, 0, i⟩ } }

end Selection

/-! ## Compounds -/

namespace Relation

def ofRows (columns : List Column) (rows : List Row) : Relation := { columns, read := fun _ _ => { items := rows } }

def compareRows (rel : Relation) (a b : Row) : Ordering :=
  compareColumns (rel.columns.map Column.collation) a.values b.values

/-- The rows in order, each once. -/
def sortedRows (rel : Relation) (rows : List Row) : List Row :=
  (sortBy rel.compareRows rows).splitBy (fun a b => rel.compareRows a b == .eq) |>.filterMap List.head?

def combineRows (op : CompoundOperator) (rel : Relation) (rows others : List Row) : List Row :=
  let isOther (r : Row) : Bool := others.any fun o => rel.compareRows r o == .eq
  match op with
  | .unionAll => rows ++ others
  | .union => rel.sortedRows (rows ++ others)
  | .except => (rel.sortedRows rows).filter fun r => !isOther r
  | .intersect => (rel.sortedRows rows).filter isOther

def describe : CompoundOperator → String
  | .union => "UNION"
  | .unionAll => "UNION ALL"
  | .except => "EXCEPT"
  | .intersect => "INTERSECT"

/-- The rows of two relations in one. Unless all are kept, they come in order and each once. -/
def combine (op : CompoundOperator) (rel other : Relation) : Except Failure Relation := do
  if rel.columns.length ≠ other.columns.length then
    throw (.invalid ("SELECTs to the left and right of " ++ describe op
      ++ " do not have the same number of result columns"))
  let read (d : Demand) (env : Env) : Flow Row :=
    if op = .unionAll then
      let d := { d with leading := none, bounds := [] }
      (rel.read d env).append fun _ => other.read d env
    else Flow.ofExcept do return combineRows op rel (← rel.rows env) (← other.rows env)
  return {
    columns := rel.columns
    uses := rel.uses ++ other.uses
    aggregates := rel.aggregates ++ other.aggregates
    headings := rel.headings
    written := rel.written
    defect :=
      if op = .unionAll then rel.defect.orElse fun _ => other.defect
      else rel.anyDefect.orElse fun _ => other.anyDefect
    read }

/-- A name without the number after a colon at its end. -/
def withoutNumber (name : String) : String :=
  match name.toList.reverse.dropWhile Char.isDigit with
  | ':' :: c :: cs => String.ofList (c :: cs).reverse
  | _ => name

/-- The column at a place. A word for a truth value is no name for it. -/
def namedColumn (place : Nat) (c : Column) : Column :=
  if ["TRUE", "FALSE"].any (sameName c.name) then { c with name := "column" ++ toString (place + 1) } else c

/-- Gives columns different names; one that has the name of an earlier one gets a number. -/
def distinctColumns (earlier : List Column) : List Column → List Column
  | [] => []
  | c :: cs =>
    let c := namedColumn earlier.length c
    let isUsed (name : String) : Bool := earlier.any fun e => sameName e.name name
    let numbered := (List.range (earlier.length + 1)).map fun n => withoutNumber c.name ++ ":" ++ toString (n + 1)
    let c := if isUsed c.name then { c with name := (numbered.find? fun n => !isUsed n).getD c.name } else c
    c :: distinctColumns (earlier ++ [c]) cs

/-- A relation whose columns have their names as they are written. -/
def asWritten (rel : Relation) : Relation :=
  { rel with columns := (rel.columns.zip rel.written).map fun (c, name) => { c with name } }

/-- A relation as a source, with labels for its columns if there are any. -/
def labelled (labels : List String) (mismatch : Nat → Nat → Failure) (rel : Relation) : Except Failure Relation := do
  if labels.isEmpty then return { rel with columns := distinctColumns [] rel.columns }
  if labels.length ≠ rel.columns.length then throw (mismatch labels.length rel.columns.length)
  let columns := (rel.columns.zip labels).map fun (c, label) => { c with name := label }
  return { rel with columns := distinctColumns [] columns }

/-! ## Tables that are defined by themselves -/

/-- The rows that come from those in the queue, step by step, at most `limit` and those of at most `fuel` steps. -/
def growRows (isOld : List Row → Row → Bool) (step : Row → Except Failure (List Row)) :
    (fuel limit : Nat) → (done queue : List Row) → Flow Row
  | 0, _, done, _ | _, 0, done, _ | _, _, done, [] => { items := done.reverse }
  | fuel + 1, limit + 1, done, r :: queue =>
    match step r with
    | .error e => ⟨(r :: done).reverse, some e⟩
    | .ok new =>
      let queue := new.foldl (fun queue r => if isOld (done ++ queue) r then queue else queue ++ [r]) (r :: queue)
      growRows isOld step fuel limit (r :: done) queue.tail

/-- The number of rows after which a table that defines itself is cut. -/
def growthBound : Nat := 0x10000

end Relation

end SchemaEditor.Store
