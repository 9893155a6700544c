import SchemaEditor.Engine.Basic

/-!
# Expressions and queries

What expressions and queries say, as they are written. Names mean nothing yet: which column or table one
stands for depends on where the expression is used.
-/

namespace SchemaEditor.Store

/-- The name of an object, with the schema that it is looked up in, if there is one. -/
structure ObjectName where
  schema : Option String := none
  name : String
  /-- Where the name stands in the text that it was read from. -/
  place : Option Nat := none
deriving DecidableEq, Repr

/-- A column as an expression names it. -/
structure ColumnName where
  schema : Option String := none
  table : Option String := none
  name : String
  /-- Whether it stands for a text if there is no such column, as it does in double quotes. -/
  loose : Bool := false
  /-- Where the name of the column stands in the text that it was read from. -/
  place : Option Nat := none
  tablePlace : Option Nat := none
deriving DecidableEq, Repr

inductive UnaryOperator where
  | negate
  | keep
  | complement
  | not
deriving DecidableEq, Repr

inductive ComparisonOperator where
  | equal
  | notEqual
  | less
  | lessEqual
  | greater
  | greaterEqual
  /-- Like `equal`, but NULL is the same as NULL. -/
  | same
  | different
deriving DecidableEq, Repr

inductive BinaryOperator where
  | or
  | and
  | compare (op : ComparisonOperator)
  | bitAnd
  | bitOr
  | shiftLeft
  | shiftRight
  | add
  | subtract
  | multiply
  | divide
  | remainder
  | concat
  /-- Part of a JSON text, as JSON. -/
  | member
  /-- Part of a JSON text, as a value. -/
  | memberValue
deriving DecidableEq, Repr

inductive PatternOperator where
  | like
  | glob
  | regexp
  | «match»
deriving DecidableEq, Repr

/-- What a statement does when a row breaks a rule. -/
inductive Conflict where
  | rollback
  | abort
  | fail
  | ignore
  | replace
deriving DecidableEq, Repr

inductive CompoundOperator where
  | union
  | unionAll
  | except
  | intersect
deriving DecidableEq, Repr

/-- Which rows of a join are kept although they have no partner, and whether columns of one name are joined. -/
structure JoinKind where
  keepsLeft : Bool := false
  keepsRight : Bool := false
  natural : Bool := false
deriving DecidableEq, Repr

/-- What the bounds of a window count. -/
inductive FrameUnit where
  | rows
  | range
  | groups
deriving DecidableEq, Repr

/-- Which rows near the current one a window leaves out. -/
inductive Exclusion where
  | nothing
  | current
  /-- The current row and those of the same order. -/
  | group
  /-- Those of the same order, but not the current row. -/
  | ties
deriving DecidableEq, Repr

mutual

inductive Expr where
  | literal (v : Value)
  | column (n : ColumnName)
  /-- A value that is given when the statement runs; none is ever given, so it is NULL. -/
  | parameter
  | unary (op : UnaryOperator) (e : Expr)
  | binary (op : BinaryOperator) (a b : Expr)
  | isNull (e : Expr)
  | notNull (e : Expr)
  | between (e low high : Expr)
  | pattern (op : PatternOperator) (subject pattern : Expr) (escape : Option Expr)
  | inList (e : Expr) (items : List Expr)
  | inQuery (e : Expr) (s : Select)
  | inTable (e : Expr) (n : ObjectName)
  | collate (e : Expr) (collation : String)
  | cast (e : Expr) (sqlType : String)
  | choice (base : Option Expr) (cases : List (Expr × Expr)) (otherwise : Option Expr)
  /-- A function applied to arguments, of which an aggregate counts equal ones once if they are `distinct`. -/
  | call (function : String) (distinct : Bool) (arguments : List Expr) (order : List OrderTerm) (filter : Option Expr)
    (window : Option Window)
  /-- A function applied to rows as a whole. -/
  | callStar (function : String) (filter : Option Expr) (window : Option Window)
  | exist (s : Select)
  | query (s : Select)
  | row (items : List Expr)
  /-- Ends the statement that fired a trigger. -/
  | raise (action : Conflict) (message : String)

inductive SelectItem where
  | all
  | allOf (table : ObjectName)
  /-- An expression with its label, if it has one, and its text. -/
  | value (e : Expr) (label : Option String) (text : String)

inductive Source where
  | table (n : ObjectName) (label : Option String)
  | query (s : Select) (label : Option String)
  | join (kind : JoinKind) (left right : Source) (condition : Option Expr) («using» : List String)

inductive OrderTerm where
  | mk (e : Expr) (descending : Bool) (nullsLast : Bool)

/-- Where a window begins or ends. -/
inductive FrameBound where
  /-- At the first or last row. -/
  | unbounded
  | before (e : Expr)
  | current
  | after (e : Expr)

/-- The rows that a function ranges over for each row. -/
inductive Window where
  | named (name : String)
  | given (base : Option String) (partition : List Expr) (order : List OrderTerm) (unit : Option FrameUnit)
    (first last : FrameBound) (exclusion : Exclusion)

/-- A query without the clauses that come after the last part of a compound. -/
inductive SelectCore where
  | rows (distinct : Bool) (items : List SelectItem) (source : Option Source) (condition : Option Expr)
    (groups : List Expr) (having : Option Expr) (windows : List (String × Window))
  | values (rows : List (List Expr))

/-- A table that a query defines for itself. -/
inductive CommonTable where
  | mk (name : String) (labels : List String) (s : Select)

inductive Select where
  | mk (tables : List CommonTable) (first : SelectCore) (rest : List (CompoundOperator × SelectCore))
    (order : List OrderTerm) (limit offset : Option Expr)

end

deriving instance Repr for Expr

deriving instance BEq for Expr, SelectItem, Source, OrderTerm, FrameBound, Window, SelectCore, CommonTable, Select

def CommonTable.name : CommonTable → String
  | .mk name _ _ => name

/-- A query on one table that gives all columns. -/
def Select.all (n : ObjectName) : Select := .mk [] (.rows false [.all] (some (.table n none)) none [] none []) [] [] none none

instance : Inhabited Expr := ⟨.parameter⟩

/-! ## Constants -/

mutual

/-- Whether an expression names no column and asks no query, so that it can be worked out by itself. `calls` tells
whether it may call functions. -/
def Expr.isConstant (calls : Bool) : Expr → Bool
  | .literal _ => true
  | .column n => n.table.isNone && !n.loose && ["TRUE", "FALSE"].contains n.name.toUpper
  | .unary _ e | .isNull e | .notNull e | .collate e _ | .cast e _ => e.isConstant calls
  | .binary _ a b => a.isConstant calls && b.isConstant calls
  | .between a b c => a.isConstant calls && b.isConstant calls && c.isConstant calls
  | .pattern _ a b c => calls && a.isConstant calls && b.isConstant calls && isConstantOption calls c
  | .inList e es => e.isConstant calls && areConstant calls es
  | .choice base cases otherwise =>
    isConstantOption calls base && areConstantCases calls cases && isConstantOption calls otherwise
  | .call _ _ es _ filter window => calls && window.isNone && areConstant calls es && isConstantOption calls filter
  | .callStar _ filter window => calls && window.isNone && isConstantOption calls filter
  | .row es => areConstant calls es
  | .parameter | .inQuery .. | .inTable .. | .exist _ | .query _ | .raise .. => false

def isConstantOption (calls : Bool) : Option Expr → Bool
  | none => true
  | some e => e.isConstant calls

def areConstant (calls : Bool) : List Expr → Bool
  | [] => true
  | e :: es => e.isConstant calls && areConstant calls es

def areConstantCases (calls : Bool) : List (Expr × Expr) → Bool
  | [] => true
  | (a, b) :: cases => a.isConstant calls && b.isConstant calls && areConstantCases calls cases

end

/-! ## Heights -/

mutual

/-- How deep the parts of an expression are nested. -/
def Expr.height : Expr → Nat
  | .literal _ | .column _ | .parameter | .raise .. => 1
  | .unary _ e | .isNull e | .notNull e | .collate e _ | .cast e _ | .inTable e _ => e.height + 1
  | .binary _ a b => max a.height b.height + 1
  | .between a b c => max a.height (max b.height c.height) + 1
  | .pattern _ a b c => max a.height (max b.height (heightOption c)) + 1
  | .inList e es => max e.height (heights es) + 1
  | .inQuery e s => max e.height s.height + 1
  | .choice base cases otherwise => max (heightOption base) (max (heightCases cases) (heightOption otherwise)) + 1
  | .call _ _ es order filter _ => max (heights es) (max (heightTerms order) (heightOption filter)) + 1
  | .callStar _ filter _ => heightOption filter + 1
  | .exist s | .query s => s.height + 1
  | .row es => heights es + 1

def heightOption : Option Expr → Nat
  | none => 0
  | some e => e.height

def heights : List Expr → Nat
  | [] => 0
  | e :: es => max e.height (heights es)

def heightCases : List (Expr × Expr) → Nat
  | [] => 0
  | (a, b) :: cases => max (max a.height b.height) (heightCases cases)

def heightItems : List SelectItem → Nat
  | [] => 0
  | .value e _ _ :: items => max e.height (heightItems items)
  | _ :: items => heightItems items

def heightRows : List (List Expr) → Nat
  | [] => 0
  | r :: rows => max (heights r) (heightRows rows)

def heightTerms : List OrderTerm → Nat
  | [] => 0
  | .mk e _ _ :: terms => max e.height (heightTerms terms)

def SelectCore.height : SelectCore → Nat
  | .rows _ items _ condition groups having _ =>
    max (heightItems items) (max (heightOption condition) (max (heights groups) (heightOption having)))
  | .values rows => heightRows rows

def heightParts : List (CompoundOperator × SelectCore) → Nat
  | [] => 0
  | (_, core) :: rest => max core.height (heightParts rest)

def Select.height : Select → Nat
  | .mk _ first rest order limit offset =>
    max (max first.height (heightParts rest)) (max (heightTerms order) (max (heightOption limit) (heightOption offset)))

end

/-- How deep expressions may be nested. -/
def Expr.maxHeight : Nat := 1000

/-- Of how many parts a compound may consist. -/
def Select.maxParts : Nat := 500

/-- How many arguments a function may have. -/
def Expr.maxArguments : Nat := 127

end SchemaEditor.Store
