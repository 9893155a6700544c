import SchemaEditor.Table.Basic
import SchemaEditor.Table.Reader

/-!
# Reading table definitions

`Table.parse` reads a CREATE TABLE statement. Types, defaults and checks are kept as text; clauses that
the model has no place for are discarded, and `Table.discardedClauses` gives their source.
-/

namespace SchemaEditor

namespace Reader

/-! ## Clauses -/

/-- The keywords that begin a column constraint, and so end a type. -/
def startsConstraint : Keyword → Bool
  | .constraint | .primary | .not | .null | .unique | .check | .default | .collate | .references
  | .generated | .as => true
  | _ => false

def sortOrder : Reader Unit := do
  if (← atKeyword .asc) || (← atKeyword .desc) then skip

def isResolution : Option Keyword → Bool
  | some .rollback | some .abort | some .fail | some .ignore | some .replace => true
  | _ => false

def conflictClause : Reader Unit := do
  if ← atKeyword .on then
    skip
    expectKeyword .conflict
    if isResolution (← current).keyword? then skip else unexpected .resolution

/-- Discards what was read since `mark`, under the name of its column if it has one. -/
def discardSince (mark : Nat) (column : Option String) : Reader Unit := do
  let text ← sourceSince mark
  discard (match column with | some name => name ++ " " ++ text | none => text)

/-! ### Types, defaults and checks -/

def isTypeWord (t : Token) : Bool :=
  match t.kind with
  | .identifier _ => true
  | .keyword k => !startsConstraint k
  | _ => false

/-- Reads the words of a type. -/
def typeWords : Reader Unit := fun c =>
  .ok () (c.jump (c.rest.takeWhile isTypeWord) (c.rest.dropWhile isTypeWord))

/-- Reads a type: any number of words, with a size in parentheses after them. -/
def typeName : Reader String := do
  let m ← mark
  if isTypeWord (← current) then
    typeWords
    if ← atKind .leftParen then parenthesized
  sourceSince m

/-- Whether two neighbouring tokens need a blank between them: two words, or what would start a comment. -/
def needsBlank (a b : Token) : Bool :=
  (a.isWordLike && b.isWordLike)
    || (a.text.getLast? == some '-' && b.text.head? == some '-')
    || (a.text.getLast? == some '/' && b.text.head? == some '*')

/-- The tokens of an expression with no more blanks than needed. -/
def compact : List Token → List Char
  | [] => []
  | [t] => t.text
  | a :: b :: ts => a.text ++ (if needsBlank a b then [' '] else []) ++ compact (b :: ts)

/-- Reads an expression up to the parenthesis that closes it, in compact form. -/
def compactExpression : Reader String := return String.ofList (compact (← inside))

/-- Reads an expression and the parenthesis that closes it. -/
def closedExpression : Reader String := do
  let expression ← compactExpression
  expectKind .rightParen
  return expression

/-- Reads a check that stands inside another one, after the name of its column. -/
def innerCheck : Reader String := do
  skip
  skip
  expectKind .leftParen
  let expression ← closedExpression
  expectKind .rightParen
  return expression

/-- Reads a check. A check that consists of the column's own name and one more check is the inner one. -/
def checkExpression (column : String) : Reader String := do
  expectKind .leftParen
  let first ← current
  let second ← following
  if nameOf? first == some column && second.keyword? == some .check then innerCheck else closedExpression

/-- What a default value may begin with. -/
inductive DefaultStart where
  | group
  | sign
  | single
  | none
deriving DecidableEq

def defaultStart : TokenKind → DefaultStart
  | .leftParen => .group
  | .plus | .minus => .sign
  | .number | .string _ | .blob _ | .identifier _ => .single
  | .keyword k => if k != .null && startsConstraint k then .none else .single
  | _ => .none

/-- Reads a default value: an expression in parentheses, a number with a sign, or a single word. -/
def defaultValue : Reader String := do
  let first ← current
  match defaultStart first.kind with
  | .group =>
    skip
    return "(" ++ (← closedExpression) ++ ")"
  | .sign =>
    skip
    let number ← current
    if number.kind == .number then
      skip
      return String.ofList (first.text ++ number.text)
    else unexpected .number
  | .single =>
    skip
    return String.ofList first.text
  | .none => unexpected .defaultValue

/-! ### Clauses that are discarded -/

/-- Whether a token ends a foreign key clause, with `previous` before it and `following` after it. Words
that begin a constraint also occur inside the clause: in SET NULL, SET DEFAULT and NOT DEFERRABLE. -/
def endsForeignKey (previous : TokenKind) (following : Option TokenKind) : TokenKind → Bool
  | .comma | .rightParen | .eof => true
  | .keyword .null | .keyword .default => !previous.isWord "SET"
  | .keyword .not => following.bind TokenKind.keyword? == some .null
  | .keyword k => startsConstraint k
  | _ => false

/-- The tokens of a foreign key clause after the table name, and what remains. -/
structure ForeignKeyTail where
  taken : List Token
  rest : List Token
  /-- How many parentheses the end of the statement leaves open. -/
  depth : Nat

def takeForeignKey (previous : TokenKind) (depth : Nat) : List Token → ForeignKeyTail
  | [] => ⟨[], [], depth⟩
  | t :: ts =>
    match depth with
    | 0 =>
      if endsForeignKey previous (ts.head?.map Token.kind) t.kind then ⟨[], t :: ts, 0⟩
      else
        let tail := takeForeignKey t.kind (depthAfter 0 t.kind) ts
        { tail with taken := t :: tail.taken }
    | n + 1 =>
      if t.kind.isEnd then ⟨[], t :: ts, n + 1⟩
      else
        let tail := takeForeignKey t.kind (depthAfter (n + 1) t.kind) ts
        { tail with taken := t :: tail.taken }

def foreignKeyTail : Reader Unit := fun c =>
  let tail := takeForeignKey ((c.read.head?.map Token.kind).getD .eof) 0 c.rest
  let c := c.jump tail.taken tail.rest
  if tail.depth == 0 then .ok () c else .error ⟨.unexpected .closing c.current.kind, c.current.span⟩ c

/-- The part of a generated column after AS. -/
def generatedTail : Reader Unit := do
  parenthesized
  if (← atWord "STORED") || (← atWord "VIRTUAL") then skip

/-! ## Columns -/

/-- What follows the first keyword of a column constraint, if that keyword begins one. `mark` is the place
before it. -/
def constraintTail (m : Nat) (f : Field) : Keyword → Option (Reader Field)
  | .constraint => some do
    let _ ← expectName
    return f
  | .primary => some do
    expectKeyword .key
    sortOrder
    conflictClause
    if ← atKeyword .autoincrement then
      skip
      return { f with primaryKey := true, autoIncrement := true }
    else return { f with primaryKey := true }
  | .not => some do
    expectKeyword .null
    conflictClause
    return { f with notNull := true }
  | .null => some do
    conflictClause
    return f
  | .unique => some do
    conflictClause
    return { f with unique := true }
  | .check => some do
    let check ← checkExpression f.name
    return { f with check }
  | .default => some do
    let defaultValue ← defaultValue
    return { f with defaultValue }
  | .collate => some do
    let _ ← expectName
    discardSince m f.name
    return f
  | .references => some do
    let _ ← expectName
    foreignKeyTail
    discardSince m f.name
    return f
  | .generated => some do
    expectWord "ALWAYS"
    expectKeyword .as
    generatedTail
    discardSince m f.name
    return f
  | .as => some do
    generatedTail
    discardSince m f.name
    return f
  | _ => none

instance : Keeps sortOrder := by unfold sortOrder; infer_instance
instance : Keeps conflictClause := by unfold conflictClause; infer_instance
instance (m : Nat) (column : Option String) : Keeps (discardSince m column) := by
  unfold discardSince; infer_instance

instance : Keeps typeWords := by
  constructor
  intro c a c' h
  cases h
  simpa [Cursor.jump] using (List.dropWhile_sublist isTypeWord).length_le

instance : Keeps typeName := by unfold typeName; infer_instance
instance : Keeps compactExpression := by unfold compactExpression; infer_instance
instance : Keeps closedExpression := by unfold closedExpression; infer_instance
instance : Keeps innerCheck := by unfold innerCheck; infer_instance
instance (column : String) : Keeps (checkExpression column) := by unfold checkExpression; infer_instance

instance : Keeps defaultValue := by
  unfold defaultValue
  have (t : Token) : Keeps (match defaultStart t.kind with
      | .group => do skip; return "(" ++ (← closedExpression) ++ ")"
      | .sign => do
        skip
        let number ← current
        if number.kind == .number then
          skip
          return String.ofList (t.text ++ number.text)
        else unexpected .number
      | .single => do skip; return String.ofList t.text
      | .none => unexpected .defaultValue : Reader String) := by split <;> infer_instance
  infer_instance

theorem takeForeignKey_append (previous : TokenKind) (depth : Nat) (ts : List Token) :
    (takeForeignKey previous depth ts).taken ++ (takeForeignKey previous depth ts).rest = ts := by
  fun_induction takeForeignKey previous depth ts <;> simp_all +zetaDelta

instance : Keeps foreignKeyTail := by
  constructor
  intro c a c' h
  unfold foreignKeyTail at h
  simp only at h
  split at h
  · cases h
    have happ := congrArg List.length
      (takeForeignKey_append ((c.read.head?.map Token.kind).getD .eof) 0 c.rest)
    simp only [List.length_append] at happ
    simp only [Cursor.jump]
    omega
  · cases h

instance : Keeps generatedTail := by unfold generatedTail; infer_instance

theorem keeps_constraintTail {m : Nat} {f : Field} {k : Keyword} {r : Reader Field}
    (h : constraintTail m f k = some r) : Keeps r := by
  cases k <;> simp only [constraintTail, Option.some.injEq, reduceCtorEq] at h <;> subst h <;> infer_instance

/-- Reads one more constraint of a column, if there is one. -/
def columnConstraint (f : Field) : Reader (Turn Field Field) := fun c =>
  match c.current.keyword?.bind (constraintTail c.read.length f) with
  | some tail => (do skip; return Turn.again (← tail) : Reader (Turn Field Field)) c
  | none => .ok (.done f) c

theorem kind_ne_eof_of_keyword? {t : Token} {k : Keyword} (h : t.keyword? = some k) : t.kind ≠ .eof := by
  intro he
  simp [Token.keyword?, TokenKind.keyword?, he] at h

instance (f : Field) : Progresses (columnConstraint f) := by
  constructor
  intro c f' c' h
  unfold columnConstraint at h
  split at h
  · next tail ht =>
    obtain ⟨k, hk, ht⟩ := Option.bind_eq_some_iff.mp ht
    have := keeps_constraintTail ht
    exact length_skip_bind (kind_ne_eof_of_keyword? hk) h
  · cases h

instance (f : Field) : Keeps (columnConstraint f) := by
  constructor
  intro c a c' h
  unfold columnConstraint at h
  split at h
  · next tail ht =>
    obtain ⟨k, hk, ht⟩ := Option.bind_eq_some_iff.mp ht
    have := keeps_constraintTail ht
    exact Nat.le_of_lt (length_skip_bind (kind_ne_eof_of_keyword? hk) h)
  · cases h; exact Nat.le_refl _

/-- Reads a column: its name, its type and its constraints. -/
def columnDefinition : Reader Field := do
  let name ← expectName
  let sqlType ← typeName
  loop columnConstraint { name, sqlType }

instance : Keeps columnDefinition := by unfold columnDefinition; infer_instance

/-! ## Table constraints -/

/-- Whether the current token begins a table constraint and not a column. -/
def atTableConstraint : Reader Bool := do
  let following ← following
  match (← current).keyword? with
  | some .constraint => return true
  | some .primary | some .foreign => return following.keyword? == some .key
  | some .unique | some .check => return following.kind == .leftParen
  | _ => return false

/-- A table that is being read, and the columns that its key lists so far. -/
structure KeyList where
  table : Table
  listed : List String

/-- Reads a column of a key and marks it in the table. -/
def keyColumn (keys : KeyList) : Reader KeyList := do
  let start ← current
  let column ← expectName
  if ← atKeyword .collate then
    skip
    let _ ← expectName
  sortOrder
  match keys.table.field? column, keys.table.modifyField? column Field.asPrimaryKey with
  | some field, some table => return { table, listed := keys.listed ++ [field.name] }
  | _, _ => fail (.unknownKeyColumn column) start.span

instance (keys : KeyList) : Keeps (keyColumn keys) := by
  unfold keyColumn
  have (start : Token) (column : String) :
      Keeps (match keys.table.field? column, keys.table.modifyField? column Field.asPrimaryKey with
        | some field, some table => return { table, listed := keys.listed ++ [field.name] }
        | _, _ => fail (.unknownKeyColumn column) start.span : Reader KeyList) := by split <;> infer_instance
  infer_instance

/-- Reads the columns of a key and the parenthesis after them. -/
def keyColumns (t : Table) : Reader Table := do
  let keys ← loop (fun keys => do turnAtComma (← keyColumn keys)) { table := t, listed := [] }
  expectKind .rightParen
  return keys.table.setPrimaryKeyOrder keys.listed

instance (t : Table) : Keeps (keyColumns t) := by unfold keyColumns; infer_instance

/-- What follows the first keyword of a table constraint. `mark` is the place where the constraint begins.
Only a key concerns the model. -/
def tableConstraintTail (m : Nat) (t : Table) : Option Keyword → Reader Table
  | some .primary => do
    skip
    expectKeyword .key
    expectKind .leftParen
    let t ← keyColumns t
    conflictClause
    return t
  | some .unique => do
    skip
    parenthesized
    conflictClause
    discardSince m none
    return t
  | some .check => do
    skip
    parenthesized
    discardSince m none
    return t
  | some .foreign => do
    skip
    expectKeyword .key
    parenthesized
    toNextDefinition
    discardSince m none
    return t
  | _ => unexpected .tableConstraint

instance (m : Nat) (t : Table) (k : Option Keyword) : Keeps (tableConstraintTail m t k) := by
  unfold tableConstraintTail; split <;> infer_instance

def tableConstraint (t : Table) : Reader Table := do
  let m ← mark
  if ← atKeyword .constraint then
    skip
    let _ ← expectName
  tableConstraintTail m t (← current).keyword?

instance (t : Table) : Keeps (tableConstraint t) := by unfold tableConstraint; infer_instance

/-! ## Tables -/

/-- Reads a column or a table constraint. -/
def definition (t : Table) : Reader Table := do
  if ← atTableConstraint then tableConstraint t else return t.addField (← columnDefinition)

instance : Keeps atTableConstraint := by
  unfold atTableConstraint
  have (following first : Token) : Keeps (match first.keyword? with
      | some .constraint => return true
      | some .primary | some .foreign => return following.keyword? == some .key
      | some .unique | some .check => return following.kind == .leftParen
      | _ => return false : Reader Bool) := by split <;> infer_instance
  infer_instance

instance (t : Table) : Keeps (definition t) := by unfold definition; infer_instance

/-- Reads a table option and says whether there may be another. -/
def tableOption (withoutRowid : Bool) : Reader (Turn Bool Bool) := do
  if ← atKeyword .without then
    skip
    expectWord "ROWID"
    turnAtComma true
  else if ← atWord "STRICT" then
    skip
    turnAtComma withoutRowid
  else return .done withoutRowid

instance (withoutRowid : Bool) : Progresses (tableOption withoutRowid) := by unfold tableOption; infer_instance

/-- Reads CREATE TABLE, with all that may stand before the name. -/
def createTable : Reader Unit := do
  expectKeyword .create
  if (← atKeyword .temp) || (← atKeyword .temporary) then skip
  expectKeyword .table
  if ← atKeyword .if then
    skip
    expectKeyword .not
    expectKeyword .exists

/-- Reads a name, and a second one if the first is the name of a schema. -/
def tableName : Reader String := do
  let name ← expectName
  if ← atKind .dot then
    skip
    expectName
  else return name

/-- Reads the end of the statement; a semicolon may come before it. -/
def endOfStatement : Reader Unit := do
  if ← atKind .semicolon then skip
  if !(← atKind .eof) then unexpected .endOfStatement

/-- The span of the token before the place. -/
def previousSpan : Reader Span := fun c => .ok ((c.read.head?.map Token.span).getD ⟨0, 0⟩) c

def table : Reader Table := do
  createTable
  let name ← tableName
  if ← atKeyword .as then fail .noColumns (← current).span
  expectKind .leftParen
  let t ← loop (fun t => do turnAtComma (← definition t)) { name }
  expectKind .rightParen
  let withoutRowid ← loop tableOption false
  endOfStatement
  if withoutRowid then
    if t.primaryKey.isEmpty then fail .withoutRowidWithoutKey (← previousSpan)
    return t.setWithoutRowid true
  else return t

end Reader

namespace Table

/-- Reads a statement to its end; also gives the place where the reading stopped. -/
def readStatement (s : String) : EStateM.Result ParseError Cursor Table := Reader.table (Cursor.start s)

def parse (s : String) : Except ParseError Table :=
  match readStatement s with
  | .ok t _ => .ok t
  | .error e _ => .error e

/-- The clauses that were discarded, also before an error, in the order of the statement. -/
def discardedClauses (s : String) : List String :=
  match readStatement s with
  | .ok _ c | .error _ c => c.discarded.reverse

/-- The table of a statement, or the empty table if there is none. -/
def parseLenient (s : String) : Table :=
  match parse s with
  | .ok t => t
  | .error _ => {}

end Table

end SchemaEditor
