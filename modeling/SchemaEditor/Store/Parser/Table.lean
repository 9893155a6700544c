import SchemaEditor.Store.Parser.Expression
import SchemaEditor.Store.Statement

/-!
# The grammar of tables

Columns, constraints and options, as they stand in the body of a CREATE TABLE statement.
-/

namespace SchemaEditor.Store

/-- Removes a word from the end of a type, and the blanks before it. -/
def withoutLastWord (word : String) (sqlType : List Char) : Option (List Char) :=
  let kept := sqlType.length - word.length
  if foldCase (String.ofList (sqlType.drop kept)) = foldCase word then
    some ((sqlType.take kept).reverse.dropWhile isBlank).reverse
  else none

/-- The words that announce a generated column can stand where its type ends, but do not belong to it. -/
def withoutAnnouncement (sqlType : String) : String :=
  let cs := sqlType.toList
  if cs.length < 16 then sqlType
  else
    match withoutLastWord "ALWAYS" cs with
    | some cs => String.ofList ((withoutLastWord "GENERATED" cs).getD cs)
    | none => sqlType

namespace Reader

/-! ## Clauses of columns -/

def conflict? : String → Option Conflict
  | "ROLLBACK" => some .rollback
  | "ABORT" => some .abort
  | "FAIL" => some .fail
  | "IGNORE" => some .ignore
  | "REPLACE" => some .replace
  | _ => none

def conflict : Reader Conflict := do
  match ((← takeOneOf ["ROLLBACK", "ABORT", "FAIL", "IGNORE", "REPLACE"]).bind conflict?) with
  | some c => return c
  | none => fail

def conflictClause : Reader (Option Conflict) := do
  if ← takeWord "ON" then
    expect "CONFLICT"
    return some (← conflict)
  else return none

def referenceAction : Reader ReferenceAction := do
  match ← takeOneOf ["SET", "CASCADE", "RESTRICT", "NO"] with
  | some "SET" =>
    match ← takeOneOf ["NULL", "DEFAULT"] with
    | some "NULL" => return .setNull
    | some _ => return .setDefault
    | none => fail
  | some "CASCADE" => return .cascade
  | some "RESTRICT" => return .refuse
  | some _ =>
    expect "ACTION"
    return .wait
  | none => fail

/-- Reads one more property of a reference, if there is one. -/
def referenceOption (r : ReferenceClause) : Reader (Option ReferenceClause) := do
  if ← takeWord "ON" then
    match ← takeOneOf ["DELETE", "UPDATE", "INSERT"] with
    | some "DELETE" => return some { r with onDelete := ← referenceAction }
    | some "UPDATE" => return some { r with onUpdate := ← referenceAction }
    | some _ =>
      let _ ← referenceAction
      return some r
    | none => fail
  else if ← takeWord "MATCH" then
    let _ ← name
    return some r
  else return none

/-- Reads when a reference is checked, as whether that is at the end of the transaction. -/
def deferral : Reader (Option Bool) := do
  let negative ← atWords ["NOT", "DEFERRABLE"]
  if !negative && !(← atWord "DEFERRABLE") then return none
  if negative then skip
  expect "DEFERRABLE"
  if ← takeWord "INITIALLY" then
    match ← takeOneOf ["DEFERRED", "IMMEDIATE"] with
    | some w => return some (!negative && w == "DEFERRED")
    | none => fail
  else return some false

def references : Reader ReferenceClause := do
  let parent ← plainObject
  let parentColumns ← columnNames
  repeatFrom referenceOption
    { parent, parentColumns, onDelete := .wait, onUpdate := .wait, deferred := false }

/-- Reads a default value that is no expression in parentheses; a bare name is a text. -/
def simpleDefault : Reader Expr := do
  let t ← peek
  match t.kind with
  | .identifier n =>
    match bareWord? t with
    | some w =>
      if ["NULL", "CURRENT_DATE", "CURRENT_TIME", "CURRENT_TIMESTAMP"].contains w then (← grammar).operand
      else
        let _ ← plainName
        return if w = "TRUE" then .literal (.integer 1) else if w = "FALSE" then .literal (.integer 0)
          else .literal (.text n)
    | none =>
      skip
      return .literal (.text n)
  | .string s =>
    skip
    return .literal (.text s)
  | .number | .blob _ => (← grammar).operand
  | _ => fail

def defaultValue : Reader Expr := do
  if ← atKind .leftParen then parenthesized expr
  else if ← takeKind .minus then
    let t ← peek
    if t.kind = .number then
      skip
      return .literal (← literalValue true t.text)
    else return .unary .negate (← simpleDefault)
  else if ← takeKind .plus then return .unary .keep (← simpleDefault)
  else simpleDefault

/-- The number that a default is, as it is written. -/
def numeral? (ts : List Token) : Option String :=
  match ts.filter fun t => !([.leftParen, .plus, .rightParen] : List TokenKind).contains t.kind with
  | [t] => if t.kind = .number then some (text t) else none
  | [sign, t] => if sign.kind = .minus && t.kind = .number then some ("-" ++ text t) else none
  | _ => none
where
  text (t : Token) : String := String.ofList (t.text.filter (· != '_'))

/-- The text of a default, without the parentheses around it. -/
def defaultText (ts : List Token) : String :=
  match ts with
  | t :: inner =>
    if t.kind = .leftParen then
      let gap := (inner.getLast?.map Token.gap).getD []
      (Text.trimmed (String.ofList (Token.source inner.dropLast ++ gap)))
    else String.ofList (Token.source ts)
  | [] => ""

/-- Reads the condition of a CHECK. Its name is that of the constraint, or else its text. -/
def check (constraint : Option String) : Reader Condition := parenthesized do
  let (e, ts) ← withTokens expr
  return ⟨constraint.getD (String.ofList (Token.source ts)), e⟩

/-- Reads how a generated column is computed. -/
def generated : Reader ColumnClause := do
  let e ← parenthesized expr
  match ← takePlainName with
  | none => return .generated e false
  | some w =>
    if sameName w "STORED" then return .generated e true
    else if sameName w "VIRTUAL" then return .generated e false
    else throw (.invalid "error in generated column")

/-- Reads a clause of a column, after the name of the constraint if there is one. -/
def columnClause : Reader (Option ColumnClause) := do
  if let some deferred ← deferral then return some (.deferral deferred)
  let constraint ← after "CONSTRAINT" name
  match ← takeOneOf ["DEFAULT", "NULL", "NOT", "PRIMARY", "UNIQUE", "CHECK", "REFERENCES", "COLLATE", "GENERATED",
      "AS"] with
  | some "DEFAULT" =>
    let (e, ts) ← withTokens defaultValue
    return some (.default e (numeral? ts) (defaultText ts))
  | some "NULL" =>
    let _ ← conflictClause
    return some .ignored
  | some "NOT" =>
    expect "NULL"
    return some (.notNull (← conflictClause))
  | some "PRIMARY" =>
    expect "KEY"
    let descending ← Grammar.sortOrder
    let onConflict ← conflictClause
    return some (.primaryKey descending (← takeWord "AUTOINCREMENT") onConflict)
  | some "UNIQUE" => return some (.unique (← conflictClause))
  | some "CHECK" => return some (.check (← check constraint))
  | some "REFERENCES" => return some (.references (← references))
  | some "COLLATE" => return some (.collate (← plainName))
  | some "GENERATED" =>
    expectAll ["ALWAYS", "AS"]
    return some (← generated)
  | some _ => return some (← generated)
  | none => return if constraint.isSome then some .ignored else none

def columnDefinition : Reader ColumnDefinition := do
  let place := (← peek).span.start
  let name ← name
  let sqlType := withoutAnnouncement (← Grammar.typeName)
  return { name, place := some place, sqlType, clauses := ← many columnClause }

/-! ## Constraints of tables -/

/-- Reads a term of a key or an index. A text in single quotes names a column. -/
def indexTerm : Reader IndexTerm := do
  let place := (← peek).span.start
  let e ← expr
  let descending ← Grammar.sortOrder
  if ← takeWord "NULLS" then
    match ← takeOneOf ["FIRST", "LAST"] with
    | some w => throw (.invalid ("unsupported use of NULLS " ++ w))
    | none => fail
  return { expr := asColumn place e, descending }
where
  asColumn (place : Nat) : Expr → Expr
    | .literal (.text s) => .column { name := s, place := some place }
    | .collate e collation => .collate (asColumn place e) collation
    | e => e

/-- The words that start a constraint of a table. -/
def startsTableClause (w : String) : Bool := ["CONSTRAINT", "PRIMARY", "UNIQUE", "CHECK", "FOREIGN"].contains w

/-- Reads a constraint of a table; the name of one counts as none. -/
def tableClause : Reader (Option (Option TableClause)) := do
  let _ ← takeKind .comma
  let constraint ← after "CONSTRAINT" name
  match ← takeOneOf ["PRIMARY", "UNIQUE", "CHECK", "FOREIGN"] with
  | some "PRIMARY" =>
    expect "KEY"
    kind .leftParen
    let terms ← listOf indexTerm
    let autoIncrement ← takeWord "AUTOINCREMENT"
    kind .rightParen
    return some (some (.primaryKey terms autoIncrement (← conflictClause)))
  | some "UNIQUE" =>
    let terms ← parenthesized (listOf indexTerm)
    return some (some (.unique terms (← conflictClause)))
  | some "CHECK" =>
    let c ← check constraint
    let _ ← conflictClause
    return some (some (.check c))
  | some _ =>
    expect "KEY"
    let columns ← parenthesized (listOf columnName)
    expect "REFERENCES"
    let r ← references
    return some (some (.foreignKey columns { r with deferred := (← deferral).getD false }))
  | none => return if constraint.isSome then some none else none

/-- Whether a comma and a constraint of the table follow. -/
def atTableClause : Reader Bool := do
  match ← get with
  | comma :: t :: _ => return comma.kind == .comma && (bareWord? t).any startsTableClause
  | _ => return false

def laterColumn : Reader (Option ColumnDefinition) := do
  if ← atTableClause then return none
  if ← takeKind .comma then return some (← columnDefinition) else return none

/-! ## Bodies -/

/-- Reads an option of a table: whether it is WITHOUT ROWID, or STRICT. -/
def tableOption : Reader Bool := do
  let isWithout ← takeWord "WITHOUT"
  let option ← name
  if sameName option (if isWithout then "ROWID" else "STRICT") then return isWithout
  throw (.invalid ("unknown table option: " ++ option))

/-- Reads the body of a table. Also tells whether options follow the closing parenthesis. -/
def tableBody : Reader (TableBody × Bool) := do
  kind .leftParen
  let first ← columnDefinition
  let others ← many laterColumn
  let clauses ← many tableClause
  kind .rightParen
  let options ← if (nameOf? (← peek)).isSome then listOf tableOption else pure ([] : List Bool)
  let body : TableBody :=
    ⟨first :: others, clauses.filterMap id, options.contains true, options.contains false⟩
  return (body, !options.isEmpty)

end Reader

end SchemaEditor.Store
