import SchemaEditor.Store.Scope

/-!
# Joins

The sources of a query side by side: every row of one with every row of the other, as far as the condition of
the join allows. Columns of one name can be joined into one.
-/

namespace SchemaEditor.Store

structure Join where
  sources : List ScopeSource
  /-- The columns that its conditions use, and those of the queries around it. -/
  uses : List Use := []
  aggregates : List Nat := []
  /-- What keeps its rows from being worked out. -/
  defect : Option Failure := none
  /-- Conditions that its rows still have to meet, as they refer to sources that come after it. -/
  later : List Meaning := []
  /-- Whether its rows come in the order that is asked of its first source. -/
  sorts : (Nat → Demand) → Bool := fun _ => false
  read : (Nat → Demand) → Env → Flow Sources

namespace Join

/-- No sources, and so a single row of none. -/
def none : Join := { sources := [], read := fun _ _ => { items := [[]] } }

def ofRelation (name : Option String) (isLabelled : Bool) (schema : Option String) (rel : Relation) : Join where
  sources := [{
    name, isLabelled, schema
    origin := rel.origin
    columns := rel.columns
    rowColumn := rel.rowColumn
    hasRowid := rel.hasRowid }]
  uses := rel.uses.map fun u => { u with depth := u.depth + 1 }
  aggregates := rel.aggregates.map (· + 1)
  defect := rel.defect
  sorts demand := rel.sorts (demand 0)
  read demand env := (rel.read (demand 0) env).map fun r => [some r]

/-- A column of the sources after the first `n`. -/
def shiftUse (n : Nat) (u : Use) : Use := if u.depth = 0 then { u with source := u.source + n } else u

def absent (j : Join) : Sources := j.sources.map fun _ => Option.none

/-- A row with those of its partners that match it, or alone if it is kept without one. -/
def partners (kind : JoinKind) (right : Join) (isMatch : Sources → Except Failure Bool) (l : Sources)
    (rs : Flow Sources) : Flow Sources :=
  let found := (rs.map fun r => l ++ r).filterM isMatch
  if kind.keepsLeft && found.items.isEmpty && found.failure.isNone then { items := [l ++ right.absent] } else found

/-- The rows that have no partner. -/
def single (isMatch : Sources → Except Failure Bool) (ls rs : List Sources) : Except Failure (List Sources) :=
  rs.filterM fun r => return !(← ls.anyM fun l => isMatch (l ++ r))

/-- Whether a condition refers to sources after the first `n`. -/
def isLate (n : Nat) (m : Meaning) : Bool := m.uses.any fun u => u.depth == 0 && decide (n ≤ u.source)

def rightReference : Failure := .invalid "ON clause references tables to its right"

/-- The rows of two joins together that meet a condition. -/
def combineOn (kind : JoinKind) (left right : Join) (condition : Option Meaning) : Join where
  sources := left.sources ++ right.sources
  later := left.later
  uses := left.uses ++ right.uses.map (shiftUse left.sources.length) ++ (condition.map Meaning.uses).getD []
  aggregates := left.aggregates ++ right.aggregates ++ (condition.map Meaning.aggregates).getD []
  defect := (left.defect.orElse fun _ => right.defect).orElse fun _ => condition.bind Meaning.defect
  sorts := left.sorts
  read demand env :=
    let ls := left.read demand env
    let rs := right.read (fun k => demand (left.sources.length + k)) env
    let isMatch (rows : Sources) : Except Failure Bool := do
      match condition with
      | some m => return (← m.eval ({ rows } :: env)).truth == some true
      | .none => return true
    let matched := ls.bind fun l => partners kind right isMatch l rs
    if kind.keepsRight then
      matched.append fun _ => Flow.ofExcept do
        return (← single isMatch ls.items (← rs.whole)).map fun r => left.absent ++ r
    else matched

/-- Two joins together. A condition that refers to sources after them waits for those, unless a row may be kept without
meeting it. -/
def combine (kind : JoinKind) (left right : Join) (condition : Option Meaning) : Join :=
  match condition.filter (isLate (left.sources.length + right.sources.length)) with
  | Option.none => combineOn kind left right condition
  | some m =>
    let joined := combineOn kind left right Option.none
    if kind.keepsLeft || kind.keepsRight then { joined with defect := some rightReference }
    else { joined with later := joined.later ++ [m] }

/-- A join with all of its sources. Conditions cannot wait if rows of a source are kept without a partner. -/
def completed (j : Join) : Join :=
  if !j.later.isEmpty && j.sources.any fun s => s.kind.keepsRight then { j with defect := some rightReference } else j

/-! ## Columns of one name -/

/-- The names by which two joins share columns. -/
def sharedNames (kind : JoinKind) (left : List ScopeSource) (right : Join) («using» : List String) : List String :=
  if kind.natural then
    let names := right.sources.flatMap fun s => s.columns.map Column.name
    names.filter fun n => left.any fun s => (Definition.find? s.columns n).isSome
  else «using»

/-- Where a column of this name is. -/
def place? (j : Join) (name : String) : Option (Nat × Nat × Column) :=
  j.sources.zipIdx.findSome? fun (s, k) =>
    (Definition.find? s.columns name).bind fun i => s.columns[i]?.map fun c => (k, i, c)

def markJoined (k i : Nat) (j : Join) : Join :=
  { j with sources := j.sources.modify k fun s => { s with joined := i :: s.joined } }

/-- Says of a source how it is joined to those before it. -/
def withKind (kind : JoinKind) (j : Join) : Join :=
  match j.sources with
  | [s] => { j with sources := [{ s with kind }] }
  | _ => j

/-- The column of some sources that another is joined to: that of the first source that has one. If sources may be
absent, it is the first that is not NULL. -/
def sharedColumn (sources : List ScopeSource) (mayBeAbsent : Bool) (name : String) : Except Failure (Option Meaning) := do
  match ({ sources } : Scope).matching 0 { name } with
  | [] => return Option.none
  | first :: others =>
    if !mayBeAbsent then return some first.meaning
    if !others.all Scope.Match.isJoined then throw (.invalid ("ambiguous reference to " ++ name ++ " in USING()"))
    return some (first.meaning.merge (others.map Scope.Match.meaning))

/-- Joins a column of each side into one. -/
def shareColumn (kind : JoinKind) (left : List ScopeSource) (shared : Join × List Meaning) (name : String) :
    Except Failure (Join × List Meaning) := do
  let (right, conditions) := shared
  let mayBeAbsent := kind.keepsRight || left.any fun s => s.kind.keepsRight
  match ← sharedColumn left mayBeAbsent name, right.place? name with
  | some m, some (k, i, c) =>
    let n := Meaning.ofColumn c ⟨0, left.length + k, i⟩
    return (right.markJoined k i, conditions ++ [Meaning.compare .equal [m] [n]])
  | _, _ => throw (.invalid ("cannot join using column " ++ name ++ " - column not present in both tables"))

/-- Joins the columns that both sides share by name. Also gives the conditions that this sets. -/
def share (kind : JoinKind) (left : List ScopeSource) (right : Join) («using» : List String) :
    Except Failure (Join × List Meaning) :=
  (sharedNames kind left right «using»).foldlM (shareColumn kind left) (right, [])

/-- All of some conditions. -/
def allOf : List Meaning → Option Meaning
  | [] => Option.none
  | m :: ms => some (ms.foldl Meaning.and m)

end Join

/-- A join whose conditions are not worked out yet, because they may refer to all sources of the query. -/
structure PendingJoin where
  sources : List ScopeSource
  complete : (all : List ScopeSource) → Except Failure Join

/-- The join if it has all sources. -/
def PendingJoin.join (p : PendingJoin) : Except Failure Join := do return (← p.complete p.sources).completed

def Join.pending (j : Join) : PendingJoin := ⟨j.sources, fun _ => .ok j⟩

end SchemaEditor.Store
