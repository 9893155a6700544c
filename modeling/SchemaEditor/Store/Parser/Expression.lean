import SchemaEditor.Store.Affinity
import SchemaEditor.Store.Reader

/-!
# The grammar of expressions and queries

Operators bind by level, the tightest last: OR, AND, NOT, equality and its like, order, bits, sums, products,
concatenation, COLLATE, signs. The grammar calls itself at most as deep as there are tokens.
-/

namespace SchemaEditor.Store

/-! ## Literals -/

/-- The value of a number, with a minus before it or not. -/
def literalValue (negative : Bool) (text : List Char) : Except Failure Value :=
  let digits := text.filter (· != '_')
  let sign := if negative then "-" else ""
  match hexDigits digits with
  | some hex =>
    let n := ofBits (hex.foldl (fun n c => n * 16 + hexValue c) 0)
    if hex.length ≤ 16 ∧ ¬(negative ∧ n = minInteger) then .ok (.integer (if negative then -n else n))
    else .error (.invalid ("hex literal too big: " ++ sign ++ String.ofList text))
  | none =>
    match Numeral.scan digits with
    | some (n, _) => .ok (numeralValue { n with negative })
    | none => .error (.syntaxError (String.ofList text))

/-! ## Levels -/

/-- How tight an operator binds. -/
abbrev Level := Nat

namespace Level

def or : Level := 1
def and : Level := 2
def not : Level := 3
def equality : Level := 4
def order : Level := 5
def bits : Level := 7
def sum : Level := 8
def product : Level := 9
def concat : Level := 10
def collate : Level := 11
def sign : Level := 12

end Level

/-- The operators between two operands that are a single token, with their levels. -/
def binaryOperator? (t : Token) : Option (Level × BinaryOperator) :=
  match t.kind with
  | .eq => some (.equality, .compare .equal)
  | .notEq => some (.equality, .compare .notEqual)
  | .lt => some (.order, .compare .less)
  | .ltEq => some (.order, .compare .lessEqual)
  | .gt => some (.order, .compare .greater)
  | .gtEq => some (.order, .compare .greaterEqual)
  | .bitAnd => some (.bits, .bitAnd)
  | .bitOr => some (.bits, .bitOr)
  | .leftShift => some (.bits, .shiftLeft)
  | .rightShift => some (.bits, .shiftRight)
  | .plus => some (.sum, .add)
  | .minus => some (.sum, .subtract)
  | .star => some (.product, .multiply)
  | .slash => some (.product, .divide)
  | .percent => some (.product, .remainder)
  | .concat => some (.concat, .concat)
  | _ =>
    match bareWord? t with
    | some "AND" => some (.and, .and)
    | some "OR" => some (.or, .or)
    | _ => none

def patternOperator? : String → Option PatternOperator
  | "LIKE" => some .like
  | "GLOB" => some .glob
  | "REGEXP" => some .regexp
  | "MATCH" => some .match
  | _ => none

/-- The readers that expressions and queries use for their parts. -/
structure Grammar where
  /-- Reads an expression of operators that bind at least as tight as a level. -/
  expr : Level → Reader Expr
  select : Reader Select

namespace Grammar

variable (g : Grammar)

open Store.Reader

def whole : Reader Expr := do
  let e ← g.expr .or
  if Expr.maxHeight < e.height then
    throw (.invalid ("Expression tree is too large (maximum depth " ++ toString Expr.maxHeight ++ ")"))
  return e

/-! ## Orders and windows -/

def sortOrder : Reader Bool := return (← takeOneOf ["ASC", "DESC"]) == some "DESC"

/-- Reads where NULL goes in an order. By itself it is the least value. -/
def nullsLast (descending : Bool) : Reader Bool := do
  if ← takeWord "NULLS" then
    match ← takeOneOf ["FIRST", "LAST"] with
    | some w => return w == "LAST"
    | none => fail
  else return descending

def orderTerm : Reader OrderTerm := do
  let e ← g.whole
  let descending ← sortOrder
  return .mk e descending (← nullsLast descending)

def order : Reader (List OrderTerm) := do
  if ← takeWord "ORDER" then
    expect "BY"
    listOf g.orderTerm
  else return []

def frameUnit : Reader (Option FrameUnit) := do
  match ← takeOneOf ["ROWS", "RANGE", "GROUPS"] with
  | some "ROWS" => return some .rows
  | some "RANGE" => return some .range
  | some _ => return some .groups
  | none => return none

/-- Reads a bound of a window. If it has none, then on the side that a word tells. -/
def frameBound (side : String) : Reader FrameBound := do
  if ← takeWord "UNBOUNDED" then
    expect side
    return .unbounded
  if ← takeWord "CURRENT" then
    expect "ROW"
    return .current
  let e ← g.whole
  match ← takeOneOf ["PRECEDING", "FOLLOWING"] with
  | some "PRECEDING" => return .before e
  | some _ => return .after e
  | none => fail

def frameBounds : Reader (FrameBound × FrameBound) := do
  if ← takeWord "BETWEEN" then
    let first ← g.frameBound "PRECEDING"
    expect "AND"
    return (first, ← g.frameBound "FOLLOWING")
  else return (← g.frameBound "PRECEDING", .current)

def exclusion : Reader Exclusion := do
  if !(← takeWord "EXCLUDE") then return .nothing
  match ← takeOneOf ["NO", "CURRENT", "GROUP", "TIES"] with
  | some "NO" =>
    expect "OTHERS"
    return .nothing
  | some "CURRENT" =>
    expect "ROW"
    return .current
  | some "GROUP" => return .group
  | some _ => return .ties
  | none => fail

/-- Whether a window ends before it begins. -/
def isReversed : FrameBound → FrameBound → Bool
  | .current, .before _ | .after _, .before _ | .after _, .current => true
  | _, _ => false

def windowBody : Reader Window := do
  let isClause := (bareWord? (← peek)).any ["PARTITION", "ROWS", "RANGE", "GROUPS"].contains
  let base ← if isClause then pure none else takeName
  let partition ← if ← takeWord "PARTITION" then
      expect "BY"
      listOf g.whole
    else pure []
  let order ← g.order
  let unit ← frameUnit
  if unit.isNone then return .given base partition order none .unbounded .current .nothing
  let (first, last) ← g.frameBounds
  if isReversed first last then throw (.invalid "unsupported frame specification")
  return .given base partition order unit first last (← exclusion)

/-- Reads the window that a function ranges over. -/
def overClause : Reader (Option Window) := do
  match ← get with
  | t :: next :: _ =>
    if bareWord? t == some "OVER" && (next.kind == .leftParen || (nameOf? next).isSome) then
      skip
      if next.kind == .leftParen then return some (← parenthesized g.windowBody)
      return some (.named (← name))
    else return none
  | _ => return none

/-- Whether windows with names follow. -/
def atWindows : Reader Bool := do
  match ← get with
  | t :: n :: as :: _ =>
    return bareWord? t == some "WINDOW" && (nameOf? n).isSome && bareWord? as == some "AS"
  | _ => return false

def windows : Reader (List (String × Window)) := do
  if !(← atWindows) then return []
  skip
  listOf do
    let n ← name
    expect "AS"
    return (n, ← parenthesized g.windowBody)

/-! ## Operands -/

def atQuery : Reader Bool := return (bareWord? (← peek)).any ["SELECT", "VALUES", "WITH"].contains

/-- Reads the type of a column, as it is written: any words, and up to two numbers in parentheses. -/
def typeName : Reader String := do
  let (_, ts) ← withTokens do
    let parts ← many takePlainName
    if !parts.isEmpty && (← atKind .leftParen) then
      parenthesized do
        number
        if ← takeKind .comma then number
  return String.ofList (Token.source ts)
where
  number : Reader Unit := do
    if !(← takeKind .minus) then
      let _ ← takeKind .plus
    kind .number

/-- Reads an expression in parentheses, a row of several, or a query. -/
def inParentheses : Reader Expr := parenthesized do
  if ← atQuery then return .query (← g.select)
  match ← listOf g.whole with
  | [e] => return e
  | es => return .row es

def choice : Reader Expr := do
  let base ← if ← atWord "WHEN" then pure none else some <$> g.whole
  let cases ← many do
    if ← takeWord "WHEN" then
      let condition ← g.whole
      expect "THEN"
      return some (condition, ← g.whole)
    else return none
  if cases.isEmpty then fail
  let otherwise ← after "ELSE" g.whole
  expect "END"
  return .choice base cases otherwise

def raise : Reader Expr := parenthesized do
  match ← takeOneOf ["IGNORE", "ROLLBACK", "ABORT", "FAIL"] with
  | some "IGNORE" => return .raise .ignore ""
  | some w =>
    kind .comma
    let message ← name
    return .raise (if w = "ROLLBACK" then .rollback else if w = "ABORT" then .abort else .fail) message
  | none => fail

/-- Reads the condition on the rows that an aggregate counts. -/
def filter : Reader (Option Expr) := do
  match ← get with
  | t :: next :: _ =>
    if bareWord? t == some "FILTER" && next.kind == .leftParen then
      skip
      parenthesized do
        expect "WHERE"
        return some (← g.whole)
    else return none
  | _ => return none

/-- Reads the arguments of a function. -/
def call (function : String) : Reader Expr := do
  kind .leftParen
  if ← takeKind .star then
    kind .rightParen
    return .callStar function (← g.filter) (← g.overClause)
  let distinct := (← takeOneOf ["DISTINCT", "ALL"]) == some "DISTINCT"
  let arguments ← if ← atKind .rightParen then pure [] else listOf g.whole
  let order ← if arguments.isEmpty then pure [] else g.order
  kind .rightParen
  if Expr.maxArguments < arguments.length then throw (.invalid ("too many arguments on function " ++ function))
  return .call function distinct arguments order (← g.filter) (← g.overClause)

/-- Reads the name of a column, after those of its schema and table if they are given, or a function. -/
def named : Reader Expr := do
  let t ← peek
  let first ← name
  if t.kind matches .identifier _ then
    if ← atKind .leftParen then return ← g.call first
  if ← takeKind .dot then
    let second ← columnName
    if ← takeKind .dot then
      return .column { ← columnName with schema := some first, table := some second.name, tablePlace := second.place }
    return .column { second with table := some first, tablePlace := some t.span.start }
  match t.kind with
  | .string s => return .literal (.text s)
  | _ => return .column { name := first, loose := isLooseName t, place := some t.span.start }

def maxParameter : Nat := 32766

/-- Reads a parameter. A number after a hash is not for callers. -/
def parameter : Reader Expr := do
  let t ← peek
  let digits := t.text.tail
  if t.kind = .question then
    let n := Numeral.ofDigits digits
    if !digits.isEmpty && (n = 0 || maxParameter < n) then
      throw (.invalid ("variable number must be between ?1 and ?" ++ toString maxParameter))
  else if t.text.head? == some '#' && digits.head?.any Char.isDigit then fail
  skip
  return .parameter

def signed (negative : Bool) : Reader Expr := do
  let t ← peek
  if negative && t.kind == .number then
    skip
    return .literal (← literalValue true t.text)
  return .unary (if negative then .negate else .keep) (← g.expr .sign)

def operand : Reader Expr := do
  let t ← peek
  match t.kind with
  | .number =>
    skip
    return .literal (← literalValue false t.text)
  | .blob bytes =>
    skip
    return .literal (.blob bytes)
  | .question | .dollar => parameter
  | .leftParen => g.inParentheses
  | .minus =>
    skip
    g.signed true
  | .plus =>
    skip
    g.signed false
  | .bitNot =>
    skip
    return .unary .complement (← g.expr .sign)
  | _ =>
    match ← takeOneOf ["NULL", "NOT", "CASE", "CAST", "EXISTS", "RAISE", "CURRENT_DATE", "CURRENT_TIME",
        "CURRENT_TIMESTAMP"] with
    | none => g.named
    | some "NULL" => return .literal .null
    | some "NOT" => return .unary .not (← g.expr .not)
    | some "CASE" => g.choice
    | some "CAST" => parenthesized do
      let e ← g.whole
      expect "AS"
      return .cast e (← typeName)
    | some "EXISTS" => return .exist (← parenthesized g.select)
    | some "RAISE" => raise
    | some w => return .call w false [] [] none none

/-! ## Operators -/

/-- A condition that is never met. -/
def never : Expr := .isNull (.literal (.integer 0))

/-- The rows that a row can be among. -/
def rowsOf (width : Nat) (items : List Expr) : Except Failure (List (List Expr)) :=
  items.mapM fun e => do
    let row := match e with
      | .row es => es
      | e => [e]
    if row.length ≠ width then throw (.elementWidth row.length width)
    return row

/-- Whether an expression is among others. A single constant is what it is equal to, and a single query is what
gives the others. -/
def among (e : Expr) (items : List Expr) : Except Failure Expr :=
  match e, items with
  | e, [.query s] => .ok (.inQuery e s)
  | .row es, items => do
    return .inQuery e (.mk [] (.values (← rowsOf es.length items)) [] [] none none)
  | e, [item] => .ok (if item.isConstant false then .binary (.compare .equal) e (.unary .keep item) else .inList e [item])
  | e, items => .ok (.inList e items)

def inside (e : Expr) : Reader Expr := do
  if ← atKind .leftParen then
    parenthesized do
      if ← atQuery then return .inQuery e (← g.select)
      if ← atKind .rightParen then return never
      among e (← listOf g.whole)
  else return .inTable e (← objectName)

/-- Reads what follows an operand and a word, of which the operand may be negated. -/
def predicate (e : Expr) (w : String) : Reader Expr := do
  match w, patternOperator? w with
  | "BETWEEN", _ =>
    let low ← g.expr .not
    expect "AND"
    return .between e low (← g.expr .order)
  | "IN", _ => g.inside e
  | _, some op =>
    let pattern ← g.expr .order
    return .pattern op e pattern (← after "ESCAPE" (g.expr .order))
  | _, none => fail

def predicateWords : List String := ["BETWEEN", "IN", "LIKE", "GLOB", "REGEXP", "MATCH"]

/-- Reads what follows IS. -/
def identity (e : Expr) : Reader Expr := do
  let negative ← takeWord "NOT"
  let isDistinct ← atWords ["DISTINCT", "FROM"]
  if isDistinct then expectAll ["DISTINCT", "FROM"]
  return .binary (.compare (if negative == isDistinct then .same else .different)) e (← g.expr .order)

/-- Reads an operator of the level of equality that is a word, and the rest of its operands. -/
def equalityWord (e : Expr) : Reader (Option Expr) := do
  match ← takeOneOf ("IS" :: "ISNULL" :: "NOTNULL" :: predicateWords) with
  | some "IS" => return some (← g.identity e)
  | some "ISNULL" => return some (.isNull e)
  | some "NOTNULL" => return some (.notNull e)
  | some w => return some (← g.predicate e w)
  | none =>
    if !(← takeWord "NOT") then return none
    if ← takeWord "NULL" then return some (.notNull e)
    match ← takeOneOf predicateWords with
    | some w => return some (.unary .not (← g.predicate e w))
    | none => fail

def isNever : Expr → Bool
  | .literal (.integer 0) | .isNull (.literal (.integer 0)) => true
  | _ => false

/-- An operator between two operands. What is joined by AND to something that is never true is not looked at. -/
def joined (op : BinaryOperator) (a b : Expr) : Expr :=
  if op = .and && (isNever a || isNever b) then .literal (.integer 0) else .binary op a b

/-- Reads one operator after an operand, if one follows that binds tight enough. -/
def extend (least : Level) (e : Expr) : Reader (Option Expr) := do
  if least ≤ Level.concat ∧ (← atKinds [.minus, .rightShift]) then
    skip; skip
    return some (.binary .memberValue e (← g.expr .collate))
  if least ≤ Level.concat ∧ (← atKinds [.minus, .gt]) then
    skip; skip
    return some (.binary .member e (← g.expr .collate))
  match binaryOperator? (← peek) with
  | some (level, op) =>
    if level < least then return none
    skip
    return some (joined op e (← g.expr (level + 1)))
  | none =>
    if least ≤ Level.collate then
      if ← takeWord "COLLATE" then return some (.collate e (← plainName))
    if least ≤ Level.equality then g.equalityWord e else return none

/-- Reads an expression of operators that bind at least as tight as a level. -/
def exprFrom (least : Level) : Reader Expr := do repeatFrom (g.extend least) (← g.operand)

/-! ## Queries -/

def label : Reader (Option String) := do
  if ← atWindows then return none
  if ← takeWord "AS" then return some (← name) else takePlainName

def item : Reader SelectItem := do
  if ← takeKind .star then return .all
  match ← get with
  | t :: dot :: star :: _ =>
    if dot.kind == .dot && star.kind == .star then
      if let some table := nameOf? t then
        skip; skip; skip
        return .allOf { name := table, place := some t.span.start }
  | _ => pure ()
  let (e, ts) ← withTokens g.whole
  return .value e (← label) (String.ofList (Token.source ts))

/-- Reads how a source is joined to those before it. -/
def joinKind : Reader (Option JoinKind) := do
  if ← takeKind .comma then return some {}
  let kinds ← many (takeOneOf ["CROSS", "FULL", "INNER", "LEFT", "NATURAL", "OUTER", "RIGHT"])
  if kinds.isEmpty && !(← atWord "JOIN") then return none
  expect "JOIN"
  let isOuter := ["LEFT", "RIGHT", "FULL"].any kinds.contains
  let isBad := (kinds.contains "OUTER" && !isOuter) || (isOuter && ["CROSS", "INNER"].any kinds.contains)
  if isBad then throw (.invalid ("unknown join type: " ++ " ".intercalate kinds))
  let has (w : String) : Bool := kinds.contains w || kinds.contains "FULL"
  return some { keepsLeft := has "LEFT", keepsRight := has "RIGHT", natural := kinds.contains "NATURAL" }

/-- Skips which index is to be used. -/
def indexHint : Reader Unit := do
  if ← takeWord "INDEXED" then
    expect "BY"
    let _ ← name
  else if ← atWords ["NOT", "INDEXED"] then expectAll ["NOT", "INDEXED"]

def sourceItem (source : Reader Source) : Reader Source := do
  if ← takeKind .leftParen then
    if ← atQuery then
      let s ← g.select
      kind .rightParen
      return .query s (← label)
    let inner ← source
    kind .rightParen
    let _ ← label
    return inner
  let n ← objectName
  let label ← label
  indexHint
  return .table n label

/-- Reads sources that are joined, of which those in parentheses are at most `depth` deep. -/
def sourceUpTo : Nat → Reader Source
  | 0 => fail
  | depth + 1 => do
    let first ← g.sourceItem (sourceUpTo depth)
    if (← after "ON" g.whole).isSome then throw (.invalid "a JOIN clause is required before ON")
    if ← takeWord "USING" then
      let _ ← parenthesized (listOf name)
      throw (.invalid "a JOIN clause is required before USING")
    repeatFrom (fun left => do
      let some kind ← joinKind | return none
      let right ← g.sourceItem (sourceUpTo depth)
      let condition ← after "ON" g.whole
      let columns ← if ← takeWord "USING" then parenthesized (listOf name) else pure []
      return some (.join kind left right condition columns)) first

def source : Reader Source := do g.sourceUpTo (← get).length

def core : Reader SelectCore := do
  if ← takeWord "VALUES" then
    let rows ← listOf (parenthesized (listOf g.whole))
    let width := (rows.headD []).length
    if !rows.all fun r => r.length == width then
      throw (.invalid "all VALUES must have the same number of terms")
    return .values rows
  expect "SELECT"
  let distinct := (← takeOneOf ["DISTINCT", "ALL"]) == some "DISTINCT"
  let items ← listOf g.item
  let source ← after "FROM" g.source
  let condition ← after "WHERE" g.whole
  let groups ← if ← takeWord "GROUP" then
      expect "BY"
      listOf g.whole
    else pure []
  let having ← after "HAVING" g.whole
  return .rows distinct items source condition groups having (← g.windows)

def compoundOperator : Reader (Option CompoundOperator) := do
  match ← takeOneOf ["UNION", "EXCEPT", "INTERSECT"] with
  | some "UNION" => return some (if ← takeWord "ALL" then .unionAll else .union)
  | some "EXCEPT" => return some .except
  | some _ => return some .intersect
  | none => return none

def commonTable : Reader CommonTable := do
  let n ← name
  let labels ← names
  expect "AS"
  let _ ← takeWord "NOT"
  let _ ← takeWord "MATERIALIZED"
  return .mk n labels (← parenthesized g.select)

/-- Reads the tables that a statement defines for itself. -/
def commonTables : Reader (List CommonTable) := do
  if !(← takeWord "WITH") then return []
  let _ ← takeWord "RECURSIVE"
  let tables ← listOf g.commonTable
  let names := tables.map CommonTable.name
  let isRepeated (n : String) : Bool := decide (1 < (names.filter (sameName n)).length)
  match names.find? isRepeated with
  | some n => throw (.invalid ("duplicate WITH table name: " ++ n))
  | none => return tables

def limit : Reader (Option Expr × Option Expr) := do
  if !(← takeWord "LIMIT") then return (none, none)
  let first ← g.whole
  if ← takeKind .comma then return (some (← g.whole), some first)
  return (some first, ← after "OFFSET" g.whole)

def selectFrom : Reader Select := do
  let tables ← g.commonTables
  let first ← g.core
  let rest ← many do
    match ← compoundOperator with
    | some op => return some (op, ← g.core)
    | none => return none
  if Select.maxParts < rest.length + 1 then throw (.invalid "too many terms in compound SELECT")
  let isValues := (((rest.map Prod.snd).getLast?).getD first) matches .values _
  let order ← if isValues then pure [] else g.order
  let (limit, offset) ← if isValues then pure (none, none) else g.limit
  if (!order.isEmpty || limit.isSome) && (← compoundOperator).isSome then
    let clause := if limit.isSome then "LIMIT" else "ORDER BY"
    throw (.invalid (clause ++ " clause should come after UNION not before"))
  return .mk tables first rest order limit offset

/-- The grammar, for texts in which it calls itself at most this deep. -/
def upTo : Nat → Grammar
  | 0 => ⟨fun _ => fail, fail⟩
  | depth + 1 => ⟨fun least ts => (upTo depth).exprFrom least ts, fun ts => (upTo depth).selectFrom ts⟩

end Grammar

namespace Reader

/-- The grammar for the tokens that are left. -/
def grammar : Reader Grammar := return .upTo (2 * (← get).length + 2)

def expr : Reader Expr := do (← grammar).whole

def select : Reader Select := do (← grammar).select

end Reader

end SchemaEditor.Store
