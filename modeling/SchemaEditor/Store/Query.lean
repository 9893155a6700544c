import SchemaEditor.Store.Selection

/-!
# What expressions and queries mean

The meaning of an expression follows from those of its parts, and the rows of a query from those of its
sources. An expression means one value or, if it is a row, several.
-/

namespace SchemaEditor.Store

/-! ## Parts -/

/-- An expression where a single value is needed. -/
def Expr.only (e : Expr) : List Meaning → Meaning
  | [m] => m
  | ms =>
    match e with
    | .query _ => .defective (.columnCount 1 ms.length)
    | _ => .defective .rowValue

/-- Two expressions that are compared have as many values. -/
def sameWidth (ms ns : List Meaning) : Except Failure Unit :=
  if ms.length = ns.length then .ok () else .error .rowValue

def binaryMeaning (op : BinaryOperator) (m n : Meaning) : Meaning :=
  match op with
  | .and => m.and n
  | .member => .ofDocuments [m, n] fun env => do Document.member (← m.eval env) (← n.eval env)
  | .memberValue => .ofDocuments [m, n] fun env => do Document.memberValue (← m.eval env) (← n.eval env)
  | op => m.lift₂ n (Operator.binary op)

/-- The query whose rows an aggregate ranges over: the innermost one that its parts have columns of. Rows that triggers
name are not rows of a query. -/
def Context.aggregateDepth (ctx : Context) (parts : List Meaning) : Nat :=
  let queries := ctx.scopes.length - if ctx.inTrigger then 1 else 0
  match (parts.flatMap fun m => m.uses.map Use.depth).filter fun d => decide (d < queries) with
  | [] => 0
  | d :: ds => ds.foldl min d

/-- Sorts rows by terms. -/
def arrange (order : List SortTerm) (envs : List Env) : Except Failure (List Env) := do
  if order.isEmpty then return envs
  let keyed ← envs.mapM fun env => return (← Meaning.values (order.map SortTerm.meaning) env, env)
  return (sortBy (fun a b => compareTerms order a.1 b.1) keyed).map Prod.snd

def orderedScalar (function : String) : Failure :=
  .invalid ("ORDER BY may not be used with non-aggregate " ++ function ++ "()")

/-- Applies a function to arguments. An aggregate takes the rows in an order. -/
def callMeaning (ctx : Context) (function : String) (distinct : Bool) (arguments : List Meaning) (order : List SortTerm)
    (filter : Option Meaning) : Except Failure Meaning := do
  let count := arguments.length
  match Signature.find? Signature.scalars function count with
  | some s =>
    if !s.isSteady then ctx.forbid [.indexTerm, .indexFilter, .generation] "non-deterministic functions"
    if filter.isSome then throw (.invalid ("FILTER may not be used with non-aggregate " ++ function ++ "()"))
    if !order.isEmpty then throw (orderedScalar function)
    let counter? : Option Int := match function.toLower with
      | "changes" => some ctx.counts.changes
      | "total_changes" => some ctx.counts.totalChanges
      | "last_insert_rowid" => some ctx.counts.lastRowid
      | _ => none
    return match counter? with
      | some n => .constant (.integer n)
      | none => .call function arguments
  | none =>
    if (Signature.find? Signature.aggregates function count).isSome then
      let terms := order.map SortTerm.meaning
      let depth := ctx.aggregateDepth (arguments ++ filter.toList)
      if !ctx.aggregates || arguments.any fun m => m.aggregates.contains depth then throw (.misusedAggregate function)
      if let some w := (arguments ++ terms).findSome? fun m => m.windows.head? then throw (.misusedWindow w.function)
      if distinct && count ≠ 1 then
        throw (.invalid "DISTINCT aggregates must have exactly one argument")
      return .aggregate depth function distinct arguments filter terms (arrange order)
    else if (Signature.find? Signature.windows function count).isSome then throw (.misusedWindow function)
    else if Signature.isKnown function then throw (.argumentCount function)
    else throw (.noSuchFunction function)

/-- Applies a function to the windows of rows. -/
def windowMeaning (ctx : Context) (w : WindowSpec) (function : String) (distinct : Bool) (arguments : List Meaning)
    (order : List SortTerm) (filter : Option Meaning) : Except Failure Meaning := do
  let count := arguments.length
  let finds (signatures : List Signature) : Bool := (Signature.find? signatures function count).isSome
  if distinct then throw (.invalid "DISTINCT is not supported for window functions")
  if !order.isEmpty then throw (orderedScalar function)
  if finds Signature.scalars && !finds Signature.aggregates then
    throw (.invalid (function ++ "() may not be used as a window function"))
  if !finds (Signature.aggregates ++ Signature.windows) then
    throw (if Signature.isKnown function then .argumentCount function else .noSuchFunction function)
  if !ctx.allowsWindows then throw (.misusedWindow function)
  if let some inner := arguments.findSome? fun m => m.windows.head? then throw (.misusedWindow inner.function)
  if filter.isSome && finds Signature.windows then
    throw (.invalid "FILTER clause may only be used with aggregate window functions")
  return .window w function arguments filter

/-- Whether a window says where it begins and ends. -/
def Window.hasFrame : Window → Bool
  | .named _ => false
  | .given _ _ _ unit _ _ _ => unit.isSome

/-- A window that is based on another. -/
def WindowSpec.basedOn (base : WindowSpec) (name : String) (w : WindowSpec) : Except Failure WindowSpec := do
  let refuse (part : String) : Except Failure WindowSpec :=
    .error (.invalid ("cannot override " ++ part ++ " of window: " ++ name))
  if !w.partition.isEmpty then return ← refuse "PARTITION clause"
  if !base.order.isEmpty && !w.order.isEmpty then return ← refuse "ORDER BY clause"
  if base.window.hasFrame then return ← refuse "frame specification"
  match base.window, w.window with
  | .given _ partition baseOrder .., .given _ _ order unit first last exclusion =>
    return { w with
      partition := base.partition
      order := if base.order.isEmpty then w.order else base.order
      window := .given none partition (if base.order.isEmpty then order else baseOrder) unit first last exclusion }
  | _, _ => return w

namespace Context

def window (ctx : Context) (name : String) : Except Failure WindowSpec :=
  match ctx.windows.find? fun (n, _) => sameName n name with
  | some (_, w) => w
  | none => .error (.invalid ("no such window: " ++ name))

end Context

def FrameBound.isOffset : FrameBound → Bool
  | .before _ | .after _ => true
  | .unbounded | .current => false

/-- Fails if windows are based on windows that do not come before them. -/
def checkWindows (earlier : List String) : List (String × Window) → Except Failure Unit
  | [] => .ok ()
  | (name, .given (some base) ..) :: ws =>
    if earlier.any (sameName base) then checkWindows (name :: earlier) ws
    else .error (.invalid ("no such window: " ++ base))
  | (name, _) :: ws => checkWindows (name :: earlier) ws

/-- The values of the first row of a query. -/
def queryMeanings (rel : Relation) : List Meaning :=
  rel.columns.mapIdx fun i c => {
    affinity := c.affinity
    collation := some c.collation
    uses := rel.uses
    aggregates := rel.aggregates
    defect := rel.defect.orElse fun _ => c.defect
    isPart := rel.isPart i
    eval := fun env => do
      return match ← (rel.flow env).head? with
        | some r => r.values.getD i .null
        | none => .null }

def existMeaning (rel : Relation) : Meaning where
  uses := rel.uses
  aggregates := rel.aggregates
  defect := rel.defect
  eval env := return .ofTruth (some (← (rel.flow env).head?).isSome)

/-- Whether values are those of a row of a query. -/
def inRelation (ms : List Meaning) (rel : Relation) : Meaning :=
  if rel.columns.length ≠ ms.length then .defective (.columnCount ms.length rel.columns.length)
  else
    let columns := rel.columns.map fun c =>
      { Meaning.constant .null with affinity := c.affinity, collation := some c.collation }
    { uses := ms.flatMap Meaning.uses ++ rel.uses
      aggregates := ms.flatMap Meaning.aggregates ++ rel.aggregates
      defect := (ms.findSome? Meaning.defect).orElse fun _ => rel.anyDefect
      eval := fun env => do
        let vs ← Meaning.values ms env
        let isEqual (r : Row) : Option Bool := Meaning.comparePairs .equal ((ms.zip columns).zip (vs.zip r.values))
        return .ofTruth (Meaning.anyTrue ((← rel.rows env).map isEqual)) }

def raiseMeaning (ctx : Context) (action : Conflict) (message : String) : Except Failure Meaning := do
  if !ctx.inTrigger then throw (.invalid "RAISE() may only be used within a trigger-program")
  return { eval := fun _ => .error (.raised action message) }

/-! ## Terms that name results -/

/-- The number that a term is, if it has 32 bits. -/
def ordinal? : Expr → Option Int
  | .literal (.integer n) => if n.natAbs < 0x80000000 then some n else none
  | .unary .keep e => ordinal? e
  | .unary .negate e => (ordinal? e).map (-·)
  | _ => none

def ordinalSuffix (n : Nat) : String :=
  if n % 100 / 10 = 1 then "th" else match n % 10 with
    | 1 => "st"
    | 2 => "nd"
    | 3 => "rd"
    | _ => "th"

/-- The result with this number. -/
def numberedOutput (clause : String) (place : Nat) (outputs : List Output) (n : Int) : Except Failure Meaning :=
  let found : Option Output := if 1 ≤ n then outputs[(n - 1).toNat]? else none
  match found with
  | some o => .ok o.meaning
  | none => .error (.invalid (toString place ++ ordinalSuffix place ++ " " ++ clause
      ++ " BY term out of range - should be between 1 and " ++ toString outputs.length))

/-- The result that a term of an order stands for, by its number or its name. -/
def sortOutput (place : Nat) (outputs : List Output) : Expr → Except Failure (Option Meaning)
  | .collate e collation => do
    match ← sortOutput place outputs e with
    | some m => return some (m.collate (← findCollation collation))
    | none => return none
  | e => do
    match ordinal? e, e with
    | some n, _ => return some (← numberedOutput "ORDER" place outputs n)
    | none, .column n =>
      if n.table.isSome then return none
      else return (outputs.find? fun o => o.label.any (sameName n.name)).map Output.meaning
    | none, _ => return none

/-! ## Compounds -/

mutual

/-- An expression with all columns told by their places, so that equal expressions mean the same. None asks a query. -/
def Expr.resolved (ctx : Context) : Expr → Option Expr
  | .literal v => some (.literal v)
  | .column n =>
    match (ctx.column? n).toOption with
    | some (some m) => some (.column { table := some (reprStr (m.uses.map fun u => (u.depth, u.source, u.place))), name := "" })
    | some none => if n.loose && n.table.isNone then some (.literal (.text n.name)) else none
    | none => none
  | .unary op e => return .unary op (← e.resolved ctx)
  | .binary op a b => return .binary op (← a.resolved ctx) (← b.resolved ctx)
  | .isNull e => return .isNull (← e.resolved ctx)
  | .notNull e => return .notNull (← e.resolved ctx)
  | .between a b c => return .between (← a.resolved ctx) (← b.resolved ctx) (← c.resolved ctx)
  | .pattern op a b c => return .pattern op (← a.resolved ctx) (← b.resolved ctx) (← resolvedOption ctx c)
  | .inList e es => return .inList (← e.resolved ctx) (← resolvedList ctx es)
  | .collate e k => return .collate (← e.resolved ctx) k.toLower
  | .cast e t => return .cast (← e.resolved ctx) t.toLower
  | .choice a cases b => return .choice (← resolvedOption ctx a) (← resolvedCases ctx cases) (← resolvedOption ctx b)
  | .call f d es [] c none => return .call f.toLower d (← resolvedList ctx es) [] (← resolvedOption ctx c) none
  | .callStar f c none => return .callStar f.toLower (← resolvedOption ctx c) none
  | .row es => return .row (← resolvedList ctx es)
  | .call .. | .callStar .. | .parameter | .inQuery .. | .inTable .. | .exist _ | .query _ | .raise .. => none

def resolvedOption (ctx : Context) : Option Expr → Option (Option Expr)
  | none => some none
  | some e => return some (← e.resolved ctx)

def resolvedList (ctx : Context) : List Expr → Option (List Expr)
  | [] => some []
  | e :: es => return (← e.resolved ctx) :: (← resolvedList ctx es)

def resolvedCases (ctx : Context) : List (Expr × Expr) → Option (List (Expr × Expr))
  | [] => some []
  | (a, b) :: cases => return (← a.resolved ctx, ← b.resolved ctx) :: (← resolvedCases ctx cases)

end

def Expr.withoutCollation : Expr → Expr
  | .collate e _ => e.withoutCollation
  | e => e

/-- The parts of a compound together. -/
def compoundRelation (first : Selection) (parts : List (CompoundOperator × Selection)) : Except Failure Relation :=
  parts.foldlM (fun rel (op, s) => rel.combine op (s.relation [] none none)) (first.relation [] none none)

/-- The result of a part of a compound that an expression stands for: the one of this name, or else one that is given by
the same expression. -/
def Selection.outputPlace? (s : Selection) (e : Expr) : Option Nat :=
  let labelled : Option Nat := match e with
    | .column n => if n.table.isSome then none else s.outputs.findIdx? fun o => o.label.any (sameName n.name)
    | _ => none
  let own : Option Nat := match e with
    | .column n => ((s.context.column? n).toOption.bind fun m => m.bind Meaning.own?).bind fun u =>
      s.outputs.findIdx? fun o => o.meaning.own? == some u
    | _ => none
  let same := (e.resolved s.context).bind fun e => s.outputs.findIdx? fun o =>
    (o.expr.bind fun f => f.withoutCollation.resolved s.context) == some e
  (labelled.orElse fun _ => own).orElse fun _ => same

/-- The result of a compound that a term of its order stands for: by its number, or by its name in any part. -/
def compoundTerm (parts : List Selection) (outputs : List Output) (place : Nat) : Expr → Except Failure Meaning
  | .collate e collation => do return (← compoundTerm parts outputs place e).collate (← findCollation collation)
  | e =>
    let named := parts.findSome? fun s => s.outputPlace? e
    match ordinal? e, named.bind fun i => outputs[i]? with
    | some n, _ => numberedOutput "ORDER" place outputs n
    | none, some o => .ok o.meaning
    | none, none => .error (.invalid (toString place ++ ordinalSuffix place
        ++ " ORDER BY term does not match any column in the result set"))

def compoundTerms (parts : List Selection) (outputs : List Output) : Nat → List OrderTerm → Except Failure (List SortTerm)
  | _, [] => return []
  | place, .mk e descending nullsLast :: terms => do
    let m ← compoundTerm parts outputs place e
    return ⟨m, descending, nullsLast⟩ :: (← compoundTerms parts outputs (place + 1) terms)

/-! ## Results -/

/-- Fails if a star stands for columns that cannot be told apart, because two sources have one name. -/
def checkStar (sources : List ScopeSource) (isMeant : ScopeSource → Bool) : Except Failure Unit := do
  let scope : Scope := { sources }
  for s in sources.filter isMeant do
    if let some table := s.name then
      for c in s.columns do
        let _ ← scope.find 0 false { schema := s.schema, table := some table, name := c.name }

/-- The columns of the sources that a star stands for, those that are joined only once. -/
def starOutputs (sources : List ScopeSource) (isMeant : ScopeSource → Bool) (once : Bool) : List Output :=
  let scope : Scope := { sources }
  let ofSource (s : ScopeSource) (k : Nat) : List Output :=
    if !isMeant s then []
    else (s.columns.zipIdx.filter fun (_, i) => !(once && s.joined.contains i)).map fun (c, i) =>
      let m := Meaning.ofColumn c ⟨0, k, i⟩
      let others := (scope.matching 0 { name := c.name }).filter fun o => once && o.isJoined
      { column := m.result c.name, label := some c.name, meaning := others.foldl Scope.Match.join m }
  sources.zipIdx.flatMap fun (s, k) => ofSource s k

/-- The name of the column that an expression names, as it is written. -/
def writtenColumn? : Expr → Option String
  | .column n => some n.name
  | .collate e _ => writtenColumn? e
  | _ => none

def outputOf (e : Expr) (m : Meaning) (label : Option String) (text : String) : Output :=
  { column := m.result (label.getD (m.name.getD text))
    label
    heading := label.getD ((m.column.map Column.name).getD text)
    written := label.getD ((writtenColumn? e).getD text)
    meaning := m
    expr := some e }

def scopeLabels (outputs : List Output) : List (String × Meaning) :=
  outputs.filterMap fun o => o.label.map fun l => (l, o.meaning)

/-- Gives the names for rows of values. -/
def valuesRelation (rows : List (List Meaning)) : Relation where
  columns := (rows.headD []).mapIdx fun i m => { m.result ("column" ++ toString (i + 1)) with affinity := m.affinity }
  uses := rows.flatMap fun ms => ms.flatMap Meaning.uses
  aggregates := rows.flatMap fun ms => ms.flatMap Meaning.aggregates
  read _ env := ({ items := rows } : Flow (List Meaning)).mapM fun ms => return ⟨0, ← Meaning.values ms env⟩

/-! ## Tables that a query defines -/

/-- Whether a source reads a table of this name. -/
def Source.reads (name : String) : Source → Bool
  | .table n _ => n.schema.isNone && sameName n.name name
  | .query .. => false
  | .join _ left right _ _ => left.reads name || right.reads name

def SelectCore.reads (name : String) : SelectCore → Bool
  | .rows _ _ (some source) .. => source.reads name
  | _ => false

/-- Whether a query that defines a table reads that table. -/
def Select.growsAs (name : String) : Select → Bool
  | .mk _ _ rest _ _ _ => rest.any fun (_, core) => core.reads name

/-- A query that is worked out once its context is known. -/
abbrev Step := CompoundOperator × (Context → Except Failure Selection)

/-- A table that grows from its first rows by the steps. -/
def growingRelation (name : String) (first : Relation) (steps : List Step) (ctx : Context)
    (limit offset : Option Meaning) : Relation :=
  let isUnion := steps.any fun (op, _) => op == .union
  let isOld (rows : List Row) (r : Row) : Bool := isUnion && rows.any fun o => first.compareRows o r == .eq
  let step (env : Env) (r : Row) : Except Failure (List Row) :=
    steps.flatMapM fun (_, select) => do
      let s ← select (ctx.withTable name fun _ => .ok (.ofRows first.columns [r]))
      (s.relation [] none none).rows env
  { columns := first.columns
    uses := first.uses
    read := fun _ env =>
      match first.rows env, Selection.limitValue offset env, Selection.limitValue limit env with
      | .ok initial, .ok offset, .ok limit =>
        let initial := if isUnion then Meaning.distinctBy first.compareRows initial else initial
        let skipped := offset.getD 0
        let count := (limit.map (· + skipped)).getD Relation.growthBound
        (Relation.growRows isOld (step env) Relation.growthBound count [] initial).drop skipped
      | .error e, _, _ | _, .error e, _ | _, _, .error e => ⟨[], some e⟩ }

def commonMismatch (name : String) (labels columns : Nat) : Failure :=
  .invalid ("table " ++ name ++ " has " ++ toString columns ++ " values for " ++ toString labels ++ " columns")

/-! ## Meanings -/

mutual

def Expr.meanings : Expr → Context → Except Failure (List Meaning)
  | .literal v, _ => return [.constant v]
  | .column n, ctx => return [← ctx.column n]
  | .parameter, ctx => do
    ctx.onlyInQueries "parameters"
    return [.constant .null]
  | .unary op e, ctx => return [(e.only (← e.meanings ctx)).unary op]
  | .binary (.compare op) a b, ctx => do
    let ms ← a.meanings ctx
    match op, ← ctx.truth? b with
    | .same, some t => return [(a.only ms).isTruth t false]
    | .different, some t => return [(a.only ms).isTruth t true]
    | _, _ =>
      let ns ← b.meanings ctx
      sameWidth ms ns
      return [.compare op ms ns]
  | .binary op a b, ctx => return [binaryMeaning op (a.only (← a.meanings ctx)) (b.only (← b.meanings ctx))]
  | .isNull e, ctx => return [(e.only (← e.meanings ctx)).isNull]
  | .notNull e, ctx => return [(e.only (← e.meanings ctx)).notNull]
  | .between e low high, ctx => do
    let ms ← e.meanings ctx
    let lows ← low.meanings ctx
    let highs ← high.meanings ctx
    sameWidth ms lows
    sameWidth ms highs
    return [(Meaning.compare .greaterEqual ms lows).and (Meaning.compare .lessEqual ms highs)]
  | .pattern op subject pattern escape, ctx => do
    let m := subject.only (← subject.meanings ctx)
    let n := pattern.only (← pattern.meanings ctx)
    if op = .regexp then throw (.noSuchFunction "REGEXP")
    return [Meaning.pattern op m n (← optionalMeaning escape ctx)]
  | .inList e items, ctx => do
    let m := e.only (← e.meanings ctx)
    return [m.inList (← listMeanings items ctx)]
  | .inQuery e s, ctx => do
    ctx.onlyInQueries "subqueries"
    let ms ← e.meanings ctx
    return [inRelation ms (← s.relation (ctx.allowing false))]
  | .inTable e n, ctx => do
    ctx.onlyInQueries "subqueries"
    let ms ← e.meanings ctx
    return [inRelation ms (← ctx.find n).2]
  | .collate e collation, ctx => do
    let m := e.only (← e.meanings ctx)
    return [m.collate (← findCollation collation)]
  | .cast e sqlType, ctx => return [(e.only (← e.meanings ctx)).cast sqlType]
  | .choice base cases otherwise, ctx => do
    let base ← optionalMeaning base ctx
    let cases ← caseMeanings cases ctx
    return [.choice base cases (← optionalMeaning otherwise ctx)]
  | .call function distinct arguments order filter window, ctx => do
    let ms ← listMeanings arguments ctx
    let terms ← plainTerms order ctx
    match window with
    | none => return [← callMeaning ctx function distinct ms terms (← optionalMeaning filter (ctx.allowing false))]
    | some w =>
      let filter ← optionalMeaning filter { ctx with allowsWindows := false }
      return [← windowMeaning ctx (← w.spec ctx) function distinct ms terms filter]
  | .callStar function filter window, ctx => do
    if !sameName function "count" then throw (.argumentCount function)
    match window with
    | none => return [← callMeaning ctx function false [] [] (← optionalMeaning filter (ctx.allowing false))]
    | some w =>
      let filter ← optionalMeaning filter { ctx with allowsWindows := false }
      return [← windowMeaning ctx (← w.spec ctx) function false [] [] filter]
  | .exist s, ctx => do
    ctx.onlyInQueries "subqueries"
    return [existMeaning (← s.relation (ctx.allowing false))]
  | .query s, ctx => do
    ctx.onlyInQueries "subqueries"
    return queryMeanings (← s.relation (ctx.allowing false))
  | .row items, ctx => listMeanings items ctx
  | .raise action message, ctx => return [← raiseMeaning ctx action message]

def optionalMeaning : Option Expr → Context → Except Failure (Option Meaning)
  | none, _ => return none
  | some e, ctx => return some (e.only (← e.meanings ctx))

def listMeanings : List Expr → Context → Except Failure (List Meaning)
  | [], _ => return []
  | e :: es, ctx => return (e.only (← e.meanings ctx)) :: (← listMeanings es ctx)

/-- Terms that stand for nothing but themselves. -/
def plainTerms : List OrderTerm → Context → Except Failure (List SortTerm)
  | [], _ => return []
  | .mk e descending nullsLast :: terms, ctx => do
    let m := e.only (← e.meanings ctx)
    return ⟨m, descending, nullsLast⟩ :: (← plainTerms terms ctx)

/-- A bound of a window. One that is no constant stands for nothing. -/
def FrameBound.bound : FrameBound → Context → Except Failure Bound
  | .unbounded, _ => return .unbounded
  | .current, _ => return .current
  | .before e, ctx => do
    let ms ← if e.isConstant false then e.meanings ctx else pure [.constant .null]
    return .before (e.only ms)
  | .after e, ctx => do
    let ms ← if e.isConstant false then e.meanings ctx else pure [.constant .null]
    return .after (e.only ms)

/-- What a window means; one with a name was worked out before. -/
def Window.spec : Window → Context → Except Failure WindowSpec
  | .named name, ctx => ctx.window name
  | .given base partition order unit first last exclusion, ctx => do
    let inner := { ctx with allowsWindows := false }
    let w : WindowSpec := {
      window := .given none partition order unit first last exclusion
      partition := ← listMeanings partition inner
      order := ← plainTerms order inner
      unit := unit.getD .range
      first := ← first.bound inner
      last := ← last.bound inner
      exclusion }
    let w ← match base with
      | some name => do (← ctx.window name).basedOn name w
      | none => pure w
    if unit = some .range && (first.isOffset || last.isOffset) && w.order.length ≠ 1 then
      throw (.invalid "RANGE with offset PRECEDING/FOLLOWING requires one ORDER BY expression")
    return w

/-- The windows of a query that have names, the latest first. Each is worked out where it is used. -/
def namedWindows : List (String × Window) → Context → List (String × Except Failure WindowSpec)
  | [], ctx => ctx.windows
  | (name, w) :: ws, ctx => namedWindows ws { ctx with windows := (name, w.spec ctx) :: ctx.windows }

def rowMeanings : List (List Expr) → Context → Except Failure (List (List Meaning))
  | [], _ => return []
  | r :: rs, ctx => return (← listMeanings r ctx) :: (← rowMeanings rs ctx)

def caseMeanings : List (Expr × Expr) → Context → Except Failure (List (Meaning × Meaning))
  | [], _ => return []
  | (condition, e) :: cases, ctx => do
    let c := condition.only (← condition.meanings ctx)
    let m := e.only (← e.meanings ctx)
    return (c, m) :: (← caseMeanings cases ctx)

/-- The keys of groups. One may stand for a result by its number. -/
def groupMeanings : List Expr → Nat → List Output → Context → Except Failure (List Meaning)
  | [], _, _, _ => return []
  | e :: es, place, outputs, ctx => do
    let m ← match ordinal? e with
      | some n => numberedOutput "GROUP" place outputs n
      | none => pure (e.only (← e.meanings ctx))
    if m.hasAggregate then throw (.invalid "aggregate functions are not allowed in the GROUP BY clause")
    return m :: (← groupMeanings es (place + 1) outputs ctx)

def sortTerms : List OrderTerm → Nat → List Output → Context → Except Failure (List SortTerm)
  | [], _, _, _ => return []
  | .mk e descending nullsLast :: terms, place, outputs, ctx => do
    let m ← match ← sortOutput place outputs e with
      | some m => pure m
      | none => pure (e.only (← e.meanings ctx))
    let m ← if ctx.aggregates then pure m else m.ungrouped
    return ⟨m, descending, nullsLast⟩ :: (← sortTerms terms (place + 1) outputs ctx)

def itemOutputs : List SelectItem → Context → List ScopeSource → Except Failure (List Output)
  | [], _, _ => return []
  | .all :: items, ctx, sources => do
    if sources.isEmpty then throw (.invalid "no tables specified")
    checkStar sources fun _ => true
    return starOutputs sources (fun _ => true) true ++ (← itemOutputs items ctx sources)
  | .allOf table :: items, ctx, sources => do
    let isMeant (s : ScopeSource) : Bool := s.name.any (sameName table.name)
    if !sources.any isMeant then throw (.noSuchTable table)
    checkStar sources isMeant
    return starOutputs sources isMeant false ++ (← itemOutputs items ctx sources)
  | .value e label text :: items, ctx, sources => do
    let m := e.only (← e.meanings ctx)
    return outputOf e m label text :: (← itemOutputs items ctx sources)

def Source.pendingJoin : Source → Context → Except Failure PendingJoin
  | .table n label, ctx => do
    let (schema, rel) ← ctx.find n
    return (Join.ofRelation (some (label.getD n.name)) label.isSome schema rel).pending
  | .query s label, ctx => do
    let rel ← s.relation (ctx.allowing false)
    return (Join.ofRelation label true none (← rel.asWritten.labelled [] (commonMismatch ""))).pending
  | .join kind left right condition shared, ctx => do
    let left ← left.pendingJoin ctx
    let right := (← (← right.pendingJoin ctx).join).withKind kind
    if kind.natural && (condition.isSome || !shared.isEmpty) then
      throw (.invalid "a NATURAL join may not have an ON or USING clause")
    let (right, conditions) ← Join.share kind left.sources right shared
    return ⟨left.sources ++ right.sources, fun all => do
      let left ← left.complete all
      let on ← optionalMeaning condition ((ctx.enter { sources := all }).allowing false)
      let on ← on.mapM Meaning.ungrouped
      return .combine kind left right (Join.allOf (on.toList ++ conditions))⟩

def sourceJoin : Option Source → Context → Except Failure Join
  | none, _ => return .none
  | some s, ctx => do (← s.pendingJoin ctx).join

def SelectCore.selection : SelectCore → Context → Except Failure Selection
  | .values rows, ctx => return .ofRelation ctx (valuesRelation (← rowMeanings rows { ctx with windows := [] }))
  | .rows distinct items source condition groups having windows, ctx => do
    checkWindows [] windows
    let join ← sourceJoin source ctx
    let plain := (ctx.enter { sources := join.sources }).allowing true true
    let windows := namedWindows windows plain
    let plain := { plain with windows }
    if 64 < join.sources.length then throw (.invalid "at most 64 tables in a join")
    let outputs ← itemOutputs items plain join.sources
    if Definition.maxColumns < outputs.length then throw (.invalid "too many columns in result set")
    let inner := ctx.enter { sources := join.sources, labels := scopeLabels outputs }
    let condition ← optionalMeaning condition (inner.allowing false)
    let condition ← condition.mapM Meaning.ungrouped
    let condition := Join.allOf (condition.toList ++ join.later)
    let groups ← groupMeanings groups 1 outputs (inner.allowing false).innermost
    let having ← optionalMeaning having (inner.allowing true)
    let s : Selection := { context := inner, join, condition, groups, having, outputs, distinct }
    if having.isSome && !s.isGrouped then throw (.invalid "HAVING clause on a non-aggregate query")
    return { s with context := { inner.allowing s.isGrouped true with windows } }

/-- The parts of a compound after the first. -/
def compoundParts : List (CompoundOperator × SelectCore) → Context → Except Failure (List (CompoundOperator × Selection))
  | [], _ => return []
  | (op, core) :: rest, ctx => return (op, ← core.selection ctx) :: (← compoundParts rest ctx)

def compoundSteps : List (CompoundOperator × SelectCore) → List Step
  | [] => []
  | (op, core) :: rest => (op, core.selection) :: compoundSteps rest

/-- The tables that a query defines, each worked out once its context is known. -/
def definedTables : List CommonTable → List (String × (Context → Except Failure Relation))
  | [] => []
  | .mk name labels s :: others =>
    let table (ctx : Context) : Except Failure Relation := do
      let rel ← if s.growsAs name then s.growing name labels ctx else s.relation ctx
      rel.asWritten.labelled labels (commonMismatch name)
    (name, table) :: definedTables others

/-- What a query gives that defines a table and reads it too. -/
def Select.growing : Select → String → List String → Context → Except Failure Relation
  | .mk tables first rest _ limit offset, name, labels, ctx => do
    let ctx := ctx.withTables (definedTables tables) tables.length
    let start := (← first.selection ctx).relation [] none none
    let start ← start.asWritten.labelled labels (commonMismatch name)
    let limit ← optionalMeaning limit { ctx with scopes := [] }
    let offset ← optionalMeaning offset { ctx with scopes := [] }
    return growingRelation name start (compoundSteps rest) ctx limit offset

/-- What a query gives. -/
def Select.relation : Select → Context → Except Failure Relation
  | .mk tables first rest order limit offset, ctx => do
    let ctx := ctx.withTables (definedTables tables) tables.length
    let s ← first.selection ctx
    let parts ← compoundParts rest ctx
    let limit ← optionalMeaning limit { ctx with scopes := [] }
    let offset ← optionalMeaning offset { ctx with scopes := [] }
    if parts.isEmpty then
      return s.relation (← sortTerms order 1 s.outputs s.context.innermost) limit offset
    let whole := Selection.ofRelation ctx (← compoundRelation s parts)
    return whole.relation (← compoundTerms (s :: parts.map Prod.snd) whole.outputs 1 order) limit offset

end

/-- A context in which tables that a query defines are known. -/
def commonContext (tables : List CommonTable) (ctx : Context) : Context :=
  ctx.withTables (definedTables tables) tables.length

/-- What an expression means where a single value is needed. -/
def Expr.meaning (e : Expr) (ctx : Context) : Except Failure Meaning := do return e.only (← e.meanings ctx)

end SchemaEditor.Store
