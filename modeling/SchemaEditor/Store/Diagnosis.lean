import SchemaEditor.Store.Query

/-!
# Which fault is told

A query may have several faults. First all tables are looked up, then names are looked up in the order in which the
clauses of a query are gone through, and the fault that is told is the first that ends this or, where the search goes on
after a fault, the last.
-/

namespace SchemaEditor.Store

/-! ## Tables that are missing -/

/-- What is wrong with a table of a name, if anything is. -/
abbrev TableFault := ObjectName → Option Failure

def TableFault.withTables (tables : List (String × (TableFault → Option Failure))) : Nat → TableFault → TableFault
  | 0, find => tables.foldl (fun find (name, _) n => if isNamed name n then none else find n) find
  | depth + 1, find =>
    let inner := withTables tables depth find
    tables.foldl (fun find (name, fault) n => if isNamed name n then fault inner else find n) find
where
  isNamed (name : String) (n : ObjectName) : Bool := n.schema.isNone && sameName n.name name

mutual

def Expr.missing (find : TableFault) : Expr → Option Failure
  | .literal _ | .column _ | .parameter | .raise .. => none
  | .unary _ e | .isNull e | .notNull e | .collate e _ | .cast e _ => e.missing find
  | .binary _ a b => (a.missing find).orElse fun _ => b.missing find
  | .between e low high => (e.missing find).orElse fun _ => (low.missing find).orElse fun _ => high.missing find
  | .pattern _ subject pattern escape =>
    (pattern.missing find).orElse fun _ => (subject.missing find).orElse fun _ => missingOption find escape
  | .inList e items => (e.missing find).orElse fun _ => missingList find items
  | .inQuery e s => (e.missing find).orElse fun _ => s.missing find
  | .inTable e n => (e.missing find).orElse fun _ => find n
  | .choice base cases otherwise =>
    (missingOption find base).orElse fun _ => (missingCases find cases).orElse fun _ => missingOption find otherwise
  | .call _ _ arguments order filter _ =>
    (missingList find arguments).orElse fun _ => (missingTerms find order).orElse fun _ => missingOption find filter
  | .callStar _ filter _ => missingOption find filter
  | .exist s | .query s => s.missing find
  | .row items => missingList find items

def missingOption (find : TableFault) : Option Expr → Option Failure
  | none => none
  | some e => e.missing find

def missingList (find : TableFault) : List Expr → Option Failure
  | [] => none
  | e :: es => (e.missing find).orElse fun _ => missingList find es

def missingCases (find : TableFault) : List (Expr × Expr) → Option Failure
  | [] => none
  | (condition, e) :: cases =>
    (condition.missing find).orElse fun _ => (e.missing find).orElse fun _ => missingCases find cases

def missingTerms (find : TableFault) : List OrderTerm → Option Failure
  | [] => none
  | .mk e _ _ :: terms => (e.missing find).orElse fun _ => missingTerms find terms

def missingRows (find : TableFault) : List (List Expr) → Option Failure
  | [] => none
  | r :: rs => (missingList find r).orElse fun _ => missingRows find rs

def missingItems (find : TableFault) : List SelectItem → Option Failure
  | [] => none
  | .value e _ _ :: items => (e.missing find).orElse fun _ => missingItems find items
  | _ :: items => missingItems find items

def Source.missing (find : TableFault) : Source → Option Failure
  | .table n _ => find n
  | .query s _ => s.missing find
  | .join _ left right _ _ => (left.missing find).orElse fun _ => right.missing find

/-- What is missing in the conditions of joins. -/
def Source.missingOn (find : TableFault) : Source → Option Failure
  | .table .. | .query .. => none
  | .join _ left right condition _ =>
    (left.missingOn find).orElse fun _ => (right.missingOn find).orElse fun _ => missingOption find condition

def missingSource (find : TableFault) : Option Source → Option Failure
  | none => none
  | some s => s.missing find

def missingConditions (find : TableFault) : Option Source → Option Failure
  | none => none
  | some s => s.missingOn find

def SelectCore.missing (find : TableFault) : SelectCore → Option Failure
  | .values rows => missingRows find rows
  | .rows _ items source condition groups having _ =>
    (missingSource find source).orElse fun _ => (missingItems find items).orElse fun _ =>
      (missingOption find condition).orElse fun _ => (missingConditions find source).orElse fun _ =>
        (missingList find groups).orElse fun _ => missingOption find having

/-- What is missing in the parts of a compound after the first. The last part comes first. -/
def missingParts (find : TableFault) : List (CompoundOperator × SelectCore) → Option Failure
  | [] => none
  | (_, core) :: rest => (missingParts find rest).orElse fun _ => core.missing find

def missingTables : List CommonTable → List (String × (TableFault → Option Failure))
  | [] => []
  | .mk name _ s :: tables => (name, fun find => s.missing find) :: missingTables tables

def Select.missing (find : TableFault) : Select → Option Failure
  | .mk tables first rest order limit offset =>
    let find := find.withTables (missingTables tables) tables.length
    (missingParts find rest).orElse fun _ => (first.missing find).orElse fun _ =>
      (missingTerms find order).orElse fun _ => (missingOption find limit).orElse fun _ => missingOption find offset

end

/-! ## Faults of expressions -/

def faultOf {α : Type} : Except Failure α → Option Failure
  | .error e => some e
  | .ok _ => none

/-- What is wrong with the stars among the results. -/
def starFault (items : List SelectItem) (sources : List ScopeSource) : Option Failure :=
  items.findSome? fun
    | .all => if sources.isEmpty then some (.invalid "no tables specified") else none
    | .allOf table => if sources.any fun s => s.name.any (sameName table.name) then none else some (.noSuchTable table)
    | .value .. => none

/-- A search through expressions: the fault that was found last, and whether the search is over. -/
structure Search where
  fault : Option Failure := none
  isOver : Bool := false

namespace Search

/-- The search at an expression of an ordinary kind, which ends it after a fault. -/
def atNode (w : Search) : Search := if w.fault.isSome then { w with isOver := true } else w

/-- The search after the arguments of a function, which do not end it. -/
def goesOn (w : Search) : Search := { w with isOver := false }

def found (e : Failure) : Search := ⟨some e, true⟩

/-- Looks for a fault where none was found yet. -/
def look (w : Search) (fault : Option Failure) : Search :=
  match w.fault, fault with
  | none, some e => found e
  | _, _ => w

end Search

/-- What is wrong with the use of a function, whatever its arguments are. -/
def callFault (ctx : Context) (function : String) (count : Nat) (isOrdered isFiltered isOver : Bool) : Option Failure :=
  let finds (signatures : List Signature) : Bool := (Signature.find? signatures function count).isSome
  let refuse (text : String) : Option Failure := some (.invalid text)
  if finds Signature.scalars then
    if isOver then refuse (function ++ "() may not be used as a window function")
    else if isFiltered then refuse ("FILTER may not be used with non-aggregate " ++ function ++ "()")
    else if isOrdered then some (orderedScalar function)
    else none
  else if finds Signature.aggregates then
    if isOver then if ctx.allowsWindows then none else some (.misusedWindow function)
    else if ctx.aggregates then none else some (.misplacedAggregate function)
  else if finds Signature.windows then
    if isOver && ctx.allowsWindows then none else some (.misusedWindow function)
  else if Signature.isKnown function then some (.argumentCount function)
  else some (.noSuchFunction function)

/-- The number of values of an expression, if that can be seen. -/
def Expr.width? : Expr → Option Nat
  | .row items => some items.length
  | .query _ => none
  | _ => some 1

def sameWidth? (a b : Expr) : Bool :=
  match a.width?, b.width? with
  | some m, some n => m == n
  | _, _ => true

/-- A column that is compared by IS is looked up first, as it may be a word for a truth value. -/
def Expr.bareColumn? : Expr → Option ColumnName
  | .column n => some n
  | .collate e _ => e.bareColumn?
  | _ => none

def BinaryOperator.isIdentity : BinaryOperator → Bool
  | .compare .same | .compare .different => true
  | _ => false

def BinaryOperator.isComparison : BinaryOperator → Bool
  | .compare _ => true
  | _ => false

def OrderTerm.expr : OrderTerm → Expr
  | .mk e _ _ => e

/-- What is wrong with terms of an order or of groups that are numbers. -/
def ordinalFault (clause : String) (outputs : List Output) (terms : List Expr) : Option Failure :=
  terms.zipIdx.findSome? fun (e, i) => (ordinal? e).bind fun n => faultOf (numberedOutput clause (i + 1) outputs n)

/-- What is wrong with numbers that are out of range whatever the results are. -/
def farOrdinalFault (clause : String) (outputs : List Output) (terms : List Expr) : Option Failure :=
  terms.zipIdx.findSome? fun (e, i) =>
    match ordinal? e with
    | some n => if n < 1 ∨ 0xFFFF < n then faultOf (numberedOutput clause (i + 1) outputs n) else none
    | none => none

mutual

def Expr.search : Expr → Context → Search → Search
  | .literal _, _, w | .parameter, _, w | .raise .., _, w => w.atNode
  | .column n, ctx, w =>
    if w.isOver then w
    else match ctx.column n with
      | .error e => .found e
      | .ok _ => w
  | .unary _ e, ctx, w | .collate e _, ctx, w | .cast e _, ctx, w => e.search ctx w.atNode
  | .isNull e, ctx, w | .notNull e, ctx, w => if w.isOver then w else (e.search ctx w).goesOn
  | .binary op a b, ctx, w =>
    if w.isOver then w
    else if op = .member || op = .memberValue then (b.search ctx (a.search ctx w)).goesOn
    else
      let w := w.atNode
      let w := match op.isIdentity, b.bareColumn? with
        | true, some n => if w.isOver then w else w.look ((ctx.column n).toOption.elim (some (.noSuchColumn n.shown)) fun _ => none)
        | _, _ => w
      let w := if op.isComparison && !sameWidth? a b && !w.isOver then .found .rowValue else w
      b.search ctx (a.search ctx w)
  | .between e low high, ctx, w =>
    let w := w.atNode
    let w := if !(sameWidth? e low && sameWidth? e high) && !w.isOver then .found .rowValue else w
    high.search ctx (low.search ctx (e.search ctx w))
  | .pattern op subject pattern escape, ctx, w =>
    if w.isOver then w
    else
      let w := if op = .regexp then { w with fault := some (.noSuchFunction "REGEXP") } else w
      (searchOption escape ctx (subject.search ctx (pattern.search ctx w))).goesOn
  | .inList e items, ctx, w => searchList items ctx (e.search ctx w.atNode)
  | .inQuery e s, ctx, w =>
    let w := w.atNode
    e.search ctx (if w.isOver then w else w.look (s.fault (ctx.allowing false)))
  | .inTable e n, ctx, w =>
    let w := w.atNode
    e.search ctx (if w.isOver then w else w.look (faultOf (ctx.find n)))
  | .choice base cases otherwise, ctx, w =>
    searchOption otherwise ctx (searchCases cases ctx (searchOption base ctx w.atNode))
  | .call function _ arguments order filter window, ctx, w =>
    if w.isOver then w
    else
      let isOver := window.isSome
      let own := callFault ctx function arguments.length (!order.isEmpty) filter.isSome isOver
      let w := { w with fault := own.orElse fun _ => w.fault }
      let isGroup := isOver || (Signature.find? Signature.scalars function arguments.length).isNone
      let inner := if isGroup then ctx.allowing (ctx.aggregates && isOver) false else ctx
      let w := (searchList arguments inner w).goesOn
      let w := if isGroup then (searchTerms order inner w).goesOn else w
      let w := (searchOver window inner w).goesOn
      (searchOption filter inner w).goesOn
  | .callStar function filter window, ctx, w =>
    if w.isOver then w
    else
      let isOver := window.isSome
      let own :=
        if sameName function "count" then callFault ctx function 0 false filter.isSome isOver
        else some (.argumentCount function)
      let w := { w with fault := own.orElse fun _ => w.fault }
      let inner := ctx.allowing (ctx.aggregates && isOver) false
      (searchOption filter inner (searchOver window inner w).goesOn).goesOn
  | .exist s, ctx, w | .query s, ctx, w =>
    let w := w.atNode
    if w.isOver then w else w.look (s.fault (ctx.allowing false))
  | .row items, ctx, w => searchList items ctx w.atNode

def searchOption : Option Expr → Context → Search → Search
  | none, _, w => w
  | some e, ctx, w => e.search ctx w

def searchList : List Expr → Context → Search → Search
  | [], _, w => w
  | e :: es, ctx, w => searchList es ctx (e.search ctx w)

def searchCases : List (Expr × Expr) → Context → Search → Search
  | [], _, w => w
  | (condition, e) :: cases, ctx, w => searchCases cases ctx (e.search ctx (condition.search ctx w))

def searchTerms : List OrderTerm → Context → Search → Search
  | [], _, w => w
  | .mk e _ _ :: terms, ctx, w => searchTerms terms ctx (e.search ctx w)

/-- Looks for faults in a window. -/
def searchOver : Option Window → Context → Search → Search
  | none, _, w => w
  | some (.named name), ctx, w =>
    match ctx.window name with
    | .error e => { w with fault := some e }
    | .ok _ => w
  | some (.given base partition order ..), ctx, w =>
    let w := match base.map ctx.window with
      | some (.error e) => { w with fault := some e }
      | _ => w
    searchTerms order ctx (searchList partition ctx w).goesOn

/-- The fault of the first expression that has one. -/
def firstFault : List Expr → Context → Option Failure
  | [], _ => none
  | e :: es, ctx => (e.search ctx {}).fault.orElse fun _ => firstFault es ctx

def optionFault : Option Expr → Context → Option Failure
  | none, _ => none
  | some e, ctx => (e.search ctx {}).fault

def itemFault : List SelectItem → Context → Option Failure
  | [], _ => none
  | .value e _ _ :: items, ctx => (e.search ctx {}).fault.orElse fun _ => itemFault items ctx
  | _ :: items, ctx => itemFault items ctx

/-- The fault of the rows of values, the last of which comes first. -/
def rowFault : List (List Expr) → Context → Option Failure
  | [], _ => none
  | r :: rs, ctx => (rowFault rs ctx).orElse fun _ => firstFault r ctx

/-- The faults of queries that a query reads from. -/
def Source.fault : Source → Context → Option Failure
  | .table n _, ctx => faultOf (ctx.find n)
  | .query s _, ctx => s.fault (ctx.allowing false)
  | .join _ left right _ _, ctx => (left.fault ctx).orElse fun _ => right.fault ctx

def sourceFault : Option Source → Context → Option Failure
  | none, _ => none
  | some s, ctx => s.fault ctx

/-- The faults of the conditions of joins. -/
def Source.faultOn : Source → Context → Option Failure
  | .table .., _ | .query .., _ => none
  | .join _ left right condition _, ctx =>
    (left.faultOn ctx).orElse fun _ => (right.faultOn ctx).orElse fun _ => optionFault condition ctx

def conditionFault : Option Source → Context → Option Failure
  | none, _ => none
  | some s, ctx => s.faultOn ctx

/-- The faults of terms of an order. Names of results stand for those. -/
def termFault : List OrderTerm → List Output → Context → Option Failure
  | [], _, _ => none
  | .mk e _ _ :: terms, outputs, ctx =>
    let isResult := (ordinal? e).isSome || e.bareColumn?.any fun n =>
      n.table.isNone && outputs.any fun o => o.label.any (sameName n.name)
    (if isResult then none else (e.search ctx {}).fault).orElse fun _ => termFault terms outputs ctx

/-- The faults of a part of a compound. `order` tells those of its order, from the results. -/
def SelectCore.fault : SelectCore → (order : List Output → Context → Option Failure) → Context → Option Failure
  | .values rows, _, ctx => rowFault rows ({ ctx with windows := [] }.allowing true true)
  | .rows _ items source condition groups having windows, order, ctx =>
    let found : Except Failure (List ScopeSource) := match source with
      | some s => do return (← s.pendingJoin ctx).sources
      | none => .ok []
    match found with
    | .error e => (sourceFault source ctx).orElse fun _ => some e
    | .ok sources =>
      let plain := (ctx.enter { sources }).allowing true true
      let plain := { plain with windows := namedWindows windows plain }
      let outputs := (itemOutputs items plain sources).toOption.getD []
      let isGrouped := !groups.isEmpty || outputs.any fun o => o.meaning.hasAggregate
      let inner := { ctx.enter { sources, labels := scopeLabels outputs } with windows := plain.windows }
      let clause := inner.allowing isGrouped
      let ordering := inner.innermost.allowing true true
      (starFault items sources).orElse fun _ => (itemFault items plain).orElse fun _ =>
        (if having.isSome && !isGrouped then some (.invalid "HAVING clause on a non-aggregate query") else none).orElse
          fun _ => (optionFault having clause).orElse fun _ => (optionFault condition clause).orElse fun _ =>
            (conditionFault source clause).orElse fun _ => (order outputs ordering).orElse fun _ =>
              (farOrdinalFault "GROUP" outputs groups).orElse fun _ =>
                (firstFault groups (ordering.allowing true)).orElse fun _ => ordinalFault "GROUP" outputs groups

/-- The faults of the parts of a compound after the first. -/
def partFault : List (CompoundOperator × SelectCore) → Context → Option Failure
  | [], _ => none
  | (_, core) :: rest, ctx => (partFault rest ctx).orElse fun _ => core.fault (fun _ _ => none) ctx

/-- What is wrong with the names in a query whose tables are all there. -/
def Select.fault : Select → Context → Option Failure
  | .mk tables first rest order limit offset, ctx =>
    let ctx := commonContext tables ctx
    let alone := { ctx with scopes := [] }
    (optionFault limit alone).orElse fun _ => (optionFault offset alone).orElse fun _ =>
      (partFault rest ctx).orElse fun _ => first.fault (fun outputs inner =>
        let places := order.map OrderTerm.expr
        if !rest.isEmpty then none
        else (farOrdinalFault "ORDER" outputs places).orElse fun _ => (termFault order outputs inner).orElse fun _ =>
          ordinalFault "ORDER" outputs places) ctx

end

/-- What a query gives, or else the fault of it that is told. -/
def Select.relationOrFault (s : Select) (ctx : Context) : Except Failure Relation :=
  match s.relation ctx with
  | .ok rel => .ok rel
  | .error e => .error (((s.missing fun n => faultOf (ctx.find n)).orElse fun _ => s.fault ctx).getD e)

end SchemaEditor.Store
