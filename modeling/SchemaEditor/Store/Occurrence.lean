import SchemaEditor.Store.Mutation

/-!
# Where names stand

A name that stands in a statement means a table or a column of a table, as far as it is not the name of something that
the statement defines for itself. Only then does it change when the table or column gets another name.
-/

namespace SchemaEditor.Store

inductive Mention where
  | table (origin : Origin)
  /-- A column of a table, by its number. -/
  | column (origin : Origin) (i : Nat)
  /-- A text in double quotes, which is none as long as there is such a column. -/
  | text (s : String)

/-- Something that is mentioned at a place of a text. -/
structure Occurrence where
  place : Nat
  mention : Mention

namespace Occurrence

def at? (place : Option Nat) (m : Mention) : List Occurrence := place.toList.map fun place => ⟨place, m⟩

/-- The columns of a table among some names. -/
def ofColumns (columns : List Column) (origin : Option Origin) (ns : List ColumnName) : List Occurrence :=
  ns.flatMap fun n =>
    match origin, Definition.find? columns n.name with
    | some origin, some i => at? n.place (.column origin i)
    | _, _ => []

end Occurrence

/-! ## Columns -/

/-- What is mentioned by a name that means a column, or the number of the row. -/
def ScopeSource.occurrences (s : ScopeSource) (column : Option Nat) (n : ColumnName) : List Occurrence :=
  match s.origin with
  | none => []
  | some origin =>
    let ofTable := if s.isLabelled then [] else Occurrence.at? n.tablePlace (.table origin)
    ofTable ++ (column.map fun i => Occurrence.at? n.place (.column origin i)).getD []

namespace Scope

/-- The column that a name means if it means one already and is joined to another. It may be both, and so none. -/
def Match.choose (found : Option Match) (m : Match) : Option Match :=
  if !m.source.kind.keepsRight then found else if !m.source.kind.keepsLeft then some m else none

/-- What a name mentions, if it means something here. -/
def occurrences? (s : Scope) (numbered : Bool) (n : ColumnName) : Option (List Occurrence) :=
  match s.matching 0 n with
  | first :: others =>
    some (((others.foldl Match.choose (some first)).map fun m => m.source.occurrences (some m.use.place) n).getD [])
  | [] =>
    match if numbered then s.numberedSources n else [] with
    | (_, source) :: _ => some (source.occurrences source.rowColumn n)
    | [] => (s.label? 0 n).map fun _ => []

end Scope

namespace Context

def occurrences (ctx : Context) (n : ColumnName) : List Occurrence :=
  match ctx.scopes.findSome? fun s => s.occurrences? ctx.seesRowNumbers n with
  | some found => found
  | none => if n.table.isNone && n.loose then Occurrence.at? n.place (.text n.name) else []

/-- What the name of a source mentions before a star. -/
def starOccurrences (ctx : Context) (n : ObjectName) : List Occurrence :=
  let sources := (ctx.scopes.head?.map Scope.sources).getD []
  match sources.find? fun s => s.name.any (sameName n.name) with
  | some s => if s.isLabelled then [] else (s.origin.map fun o => Occurrence.at? n.place (.table o)).getD []
  | none => []

end Context

/-! ## Expressions and queries -/

mutual

def Expr.occurrences : Expr → Context → Except Failure (List Occurrence)
  | .literal _, _ | .parameter, _ | .raise .., _ => return []
  | .column n, ctx => return ctx.occurrences n
  | .unary _ e, ctx | .isNull e, ctx | .notNull e, ctx | .collate e _, ctx | .cast e _, ctx | .inTable e _, ctx =>
    e.occurrences ctx
  | .binary _ a b, ctx => return (← a.occurrences ctx) ++ (← b.occurrences ctx)
  | .between e low high, ctx =>
    return (← e.occurrences ctx) ++ (← low.occurrences ctx) ++ (← high.occurrences ctx)
  | .pattern _ subject pattern escape, ctx =>
    return (← subject.occurrences ctx) ++ (← pattern.occurrences ctx) ++ (← optionOccurrences escape ctx)
  | .inList e items, ctx => return (← e.occurrences ctx) ++ (← listOccurrences items ctx)
  | .inQuery e s, ctx => return (← e.occurrences ctx) ++ (← s.occurrences ctx)
  | .choice base cases otherwise, ctx =>
    return (← optionOccurrences base ctx) ++ (← caseOccurrences cases ctx) ++ (← optionOccurrences otherwise ctx)
  | .call _ _ arguments order filter window, ctx =>
    return (← listOccurrences arguments ctx) ++ (← termOccurrences order ctx) ++ (← optionOccurrences filter ctx)
      ++ (← overOccurrences window ctx)
  | .callStar _ filter window, ctx => return (← optionOccurrences filter ctx) ++ (← overOccurrences window ctx)
  | .exist s, ctx | .query s, ctx => s.occurrences ctx
  | .row items, ctx => listOccurrences items ctx

def optionOccurrences : Option Expr → Context → Except Failure (List Occurrence)
  | none, _ => return []
  | some e, ctx => e.occurrences ctx

def listOccurrences : List Expr → Context → Except Failure (List Occurrence)
  | [], _ => return []
  | e :: es, ctx => return (← e.occurrences ctx) ++ (← listOccurrences es ctx)

def caseOccurrences : List (Expr × Expr) → Context → Except Failure (List Occurrence)
  | [], _ => return []
  | (condition, e) :: cases, ctx =>
    return (← condition.occurrences ctx) ++ (← e.occurrences ctx) ++ (← caseOccurrences cases ctx)

def termOccurrences : List OrderTerm → Context → Except Failure (List Occurrence)
  | [], _ => return []
  | .mk e _ _ :: terms, ctx => return (← e.occurrences ctx) ++ (← termOccurrences terms ctx)

def Window.occurrences : Window → Context → Except Failure (List Occurrence)
  | .named _, _ => return []
  | .given _ partition order _ _ _ _, ctx => return (← listOccurrences partition ctx) ++ (← termOccurrences order ctx)

def overOccurrences : Option Window → Context → Except Failure (List Occurrence)
  | none, _ => return []
  | some w, ctx => w.occurrences ctx

def windowOccurrences : List (String × Window) → Context → Except Failure (List Occurrence)
  | [], _ => return []
  | (_, w) :: ws, ctx => return (← w.occurrences ctx) ++ (← windowOccurrences ws ctx)

def rowOccurrences : List (List Expr) → Context → Except Failure (List Occurrence)
  | [], _ => return []
  | r :: rs, ctx => return (← listOccurrences r ctx) ++ (← rowOccurrences rs ctx)

def itemOccurrences : List SelectItem → Context → Except Failure (List Occurrence)
  | [], _ => return []
  | .all :: items, ctx => itemOccurrences items ctx
  | .allOf n :: items, ctx => return ctx.starOccurrences n ++ (← itemOccurrences items ctx)
  | .value e _ _ :: items, ctx => return (← e.occurrences ctx) ++ (← itemOccurrences items ctx)

/-- What sources mention; `inner` is where the conditions of joins stand, if these count. -/
def Source.occurrences : Source → (ctx : Context) → (inner : Option Context) → Except Failure (List Occurrence)
  | .table n _, ctx, _ => do
    let (_, rel) ← ctx.find n
    return (rel.origin.map fun origin => Occurrence.at? n.place (.table origin)).getD []
  | .query s _, ctx, _ => s.occurrences ctx
  | .join _ left right condition _, ctx, inner => do
    let sources := (← left.occurrences ctx inner) ++ (← right.occurrences ctx inner)
    match inner with
    | some inner => return sources ++ (← optionOccurrences condition inner)
    | none => return sources

def sourceOccurrences : Option Source → (ctx : Context) → (inner : Option Context) → Except Failure (List Occurrence)
  | none, _, _ => return []
  | some s, ctx, inner => s.occurrences ctx inner

def SelectCore.occurrences : SelectCore → Context → Except Failure (List Occurrence)
  | .values rows, ctx => rowOccurrences rows ctx
  | .rows distinct items source condition groups having windows, ctx => do
    let s ← (SelectCore.rows distinct items source condition groups having windows).selection ctx
    let inner := s.context
    return (← itemOccurrences items (ctx.enter { sources := s.join.sources })) ++ (← sourceOccurrences source ctx (some inner))
      ++ (← optionOccurrences condition inner) ++ (← listOccurrences groups inner.innermost)
      ++ (← optionOccurrences having inner) ++ (← windowOccurrences windows inner)

def partOccurrences : List (CompoundOperator × SelectCore) → Context → Except Failure (List Occurrence)
  | [], _ => return []
  | (_, core) :: rest, ctx => return (← core.occurrences ctx) ++ (← partOccurrences rest ctx)

/-- What the terms of an order mention. A term that stands for a result mentions nothing. -/
def orderOccurrences : List OrderTerm → Selection → Except Failure (List Occurrence)
  | [], _ => return []
  | .mk e _ _ :: terms, s => do
    let own ← if (← sortOutput 1 s.outputs e).isSome then pure [] else e.occurrences s.context.innermost
    return own ++ (← orderOccurrences terms s)

/-- What tables mention that a query defines for itself. One that makes no sense, and so is not used, mentions
nothing. -/
def commonOccurrences : List CommonTable → Context → List Occurrence
  | [], _ => []
  | .mk _ _ s :: tables, ctx => ((s.occurrences ctx).toOption.getD []) ++ commonOccurrences tables ctx

/-- What a query mentions. The terms of the order of a compound are names of results. -/
def Select.occurrences : Select → Context → Except Failure (List Occurrence)
  | .mk tables first rest order limit offset, ctx => do
    let ctx := commonContext tables ctx
    let terms ← if rest.isEmpty then orderOccurrences order (← first.selection ctx) else pure []
    return commonOccurrences tables ctx ++ (← first.occurrences ctx) ++ (← partOccurrences rest ctx) ++ terms
      ++ (← optionOccurrences limit ctx) ++ (← optionOccurrences offset ctx)

end

/-! ## Statements on rows -/

def Target.origin? : Target → Option Origin
  | .table t => some ⟨t.temporary, t.name⟩
  | .view .. => none

/-- What the target of a statement and names of its columns mention. -/
def Target.occurrences (target : Target) (n : ObjectName) (columns : List ColumnName) : List Occurrence :=
  (target.origin?.map fun origin => Occurrence.at? n.place (.table origin)).getD []
    ++ Occurrence.ofColumns target.columns target.origin? columns

def assignmentOccurrences (as : List Assignment) (ctx : Context) : Except Failure (List Occurrence) :=
  as.flatMapM fun a => a.expr.occurrences ctx

/-- What a clause on conflicts mentions. -/
def Upsert.occurrences (u : Upsert) (target : Target) (ctx : Context) : Except Failure (List Occurrence) := do
  let .table t := target | return []
  let inner := Change.upsertContext ctx t t.name
  let terms ← listOccurrences (u.target.map IndexTerm.expr) inner
  let filter ← optionOccurrences u.targetFilter inner
  match u.update with
  | none => return terms ++ filter
  | some (as, condition) =>
    return terms ++ filter ++ Occurrence.ofColumns target.columns target.origin? (as.flatMap Assignment.columns)
      ++ (← assignmentOccurrences as inner) ++ (← optionOccurrences condition inner)

/-- What a statement of a trigger mentions. Of several clauses on conflicts only the first counts. -/
def RowStatement.occurrences (c : Content) (stage : Stage) : RowStatement → Except Failure (List Occurrence)
  | insert i => do
    let target ← Target.lookUp c (stage.target i.target)
    let ctx := commonContext i.tables (stage.context c {})
    let source ← match i.source with
      | some s => s.occurrences ctx
      | none => pure []
    return target.occurrences i.target i.columns ++ source
      ++ (← i.upserts.head?.toList.flatMapM fun u => u.occurrences target ctx)
  | update u => do
    let target ← Target.lookUp c (stage.target u.target)
    let ctx := commonContext u.tables (stage.context c {})
    let p ← Change.rowPlan c target u.label ctx u.source u.condition []
    return target.occurrences u.target (u.assignments.flatMap Assignment.columns) ++ (← sourceOccurrences u.source ctx none)
      ++ (← assignmentOccurrences u.assignments p.context) ++ (← optionOccurrences u.condition p.context)
  | delete d => do
    let target ← Target.lookUp c (stage.target d.target)
    let p ← Change.rowPlan c target d.label (commonContext d.tables (stage.context c {})) none d.condition []
    return target.occurrences d.target [] ++ (← optionOccurrences d.condition p.context)
  | select s => s.occurrences (stage.context c {})

/-! ## Definitions -/

/-- What the conditions of a table mention. -/
def TableBody.checkOccurrences (t : StoredTable) (body : TableBody) : Except Failure (List Occurrence) :=
  (Definition.checksOf body).flatMapM fun c => c.expr.occurrences (t.context .check)

/-- What the terms of the keys of a table mention. -/
def TableBody.keyOccurrences (t : StoredTable) (body : TableBody) : Except Failure (List Occurrence) :=
  (Definition.constraints body).flatMapM fun c => listOccurrences (c.terms.map IndexTerm.expr) (t.context .indexTerm)

/-- What the expressions of generated columns mention. -/
def TableBody.generationOccurrences (t : StoredTable) (body : TableBody) : Except Failure (List Occurrence) :=
  body.columns.flatMapM fun c => c.clauses.flatMapM fun
    | .generated e _ => e.occurrences (t.context .generation)
    | _ => return []

/-- The references of a table with their own columns. -/
def TableBody.referenceClauses (body : TableBody) : List (List ColumnName × ReferenceClause) :=
  let ofColumns := body.columns.flatMap fun c => c.clauses.filterMap fun
    | .references r => some ([{ name := c.name }], r)
    | _ => none
  ofColumns ++ body.clauses.filterMap fun
    | .foreignKey columns r => some (columns, r)
    | _ => none

def IndexBody.termOccurrences (t : StoredTable) (body : IndexBody) : Except Failure (List Occurrence) :=
  listOccurrences (body.terms.map IndexTerm.expr) (t.context .indexTerm)

def IndexBody.filterOccurrences (t : StoredTable) (body : IndexBody) : Except Failure (List Occurrence) :=
  optionOccurrences body.filter (t.context .indexFilter)

/-- What a trigger mentions, the table that it is for and the columns that it waits for apart. -/
def TriggerBody.occurrences (c : Content) (stage : Stage) (body : TriggerBody) : Except Failure (List Occurrence) :=
  return (← optionOccurrences body.condition (stage.context c {})) ++ (← body.steps.flatMapM (RowStatement.occurrences c stage))

end SchemaEditor.Store
