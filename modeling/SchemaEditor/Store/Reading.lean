import SchemaEditor.Store.Statement

/-!
# What queries read

The tables that a query names anywhere, and the parameters that it waits for. An object keeps its queries beyond the
statement that creates it, so they may not wait for anything, and one that is not temporary cannot read what is.
-/

namespace SchemaEditor.Store

/-- Something outside of a query that it refers to. -/
inductive Reading where
  | table (n : ObjectName)
  | parameter

mutual

def Expr.readings : Expr → List Reading
  | .literal _ | .column _ | .raise .. => []
  | .parameter => [.parameter]
  | .unary _ e | .isNull e | .notNull e | .collate e _ | .cast e _ => e.readings
  | .binary _ a b => a.readings ++ b.readings
  | .between e low high => e.readings ++ low.readings ++ high.readings
  | .pattern _ subject pattern escape => subject.readings ++ pattern.readings ++ optionReadings escape
  | .inList e items => e.readings ++ listReadings items
  | .inQuery e s => e.readings ++ s.readings
  | .inTable e n => .table n :: e.readings
  | .choice base cases otherwise => optionReadings base ++ caseReadings cases ++ optionReadings otherwise
  | .call _ _ arguments order filter window =>
    listReadings arguments ++ orderReadings order ++ optionReadings filter ++ overReadings window
  | .callStar _ filter window => optionReadings filter ++ overReadings window
  | .exist s | .query s => s.readings
  | .row items => listReadings items

def optionReadings : Option Expr → List Reading
  | none => []
  | some e => e.readings

def listReadings : List Expr → List Reading
  | [] => []
  | e :: es => e.readings ++ listReadings es

def caseReadings : List (Expr × Expr) → List Reading
  | [] => []
  | (condition, e) :: cases => condition.readings ++ e.readings ++ caseReadings cases

def rowReadings : List (List Expr) → List Reading
  | [] => []
  | r :: rs => listReadings r ++ rowReadings rs

def itemReadings : List SelectItem → List Reading
  | [] => []
  | .value e _ _ :: items => e.readings ++ itemReadings items
  | _ :: items => itemReadings items

def Source.readings : Source → List Reading
  | .table n _ => [.table n]
  | .query s _ => s.readings
  | .join _ left right condition _ => left.readings ++ right.readings ++ optionReadings condition

def sourceReadings : Option Source → List Reading
  | none => []
  | some s => s.readings

def SelectCore.readings : SelectCore → List Reading
  | .values rows => rowReadings rows
  | .rows _ items source condition groups having windows =>
    itemReadings items ++ sourceReadings source ++ optionReadings condition ++ listReadings groups ++ optionReadings having
      ++ windowReadings windows

def partReadings : List (CompoundOperator × SelectCore) → List Reading
  | [] => []
  | (_, core) :: rest => core.readings ++ partReadings rest

def orderReadings : List OrderTerm → List Reading
  | [] => []
  | .mk e _ _ :: terms => e.readings ++ orderReadings terms

def FrameBound.readings : FrameBound → List Reading
  | .before e | .after e => e.readings
  | .unbounded | .current => []

def Window.readings : Window → List Reading
  | .named _ => []
  | .given _ partition order _ first last _ =>
    listReadings partition ++ orderReadings order ++ first.readings ++ last.readings

def overReadings : Option Window → List Reading
  | none => []
  | some w => w.readings

def windowReadings : List (String × Window) → List Reading
  | [] => []
  | (_, w) :: ws => w.readings ++ windowReadings ws

def commonReadings : List CommonTable → List Reading
  | [] => []
  | .mk _ _ s :: tables => s.readings ++ commonReadings tables

def Select.readings : Select → List Reading
  | .mk tables first rest order limit offset =>
    commonReadings tables ++ first.readings ++ partReadings rest ++ orderReadings order ++ optionReadings limit
      ++ optionReadings offset

end

/-! ## Statements -/

def assignmentReadings (as : List Assignment) : List Reading := as.flatMap fun a => a.expr.readings

def Upsert.readings (u : Upsert) : List Reading :=
  (u.target.flatMap fun t => t.expr.readings) ++ optionReadings u.targetFilter
    ++ (u.update.map fun (as, condition) => assignmentReadings as ++ optionReadings condition).getD []

/-- What a statement reads, apart from the table that it changes. -/
def RowStatement.readings : RowStatement → List Reading
  | insert i => (i.source.map Select.readings).getD [] ++ i.upserts.flatMap Upsert.readings
  | update u => assignmentReadings u.assignments ++ sourceReadings u.source ++ optionReadings u.condition
  | delete d => optionReadings d.condition
  | select s => s.readings

def TriggerBody.readings (body : TriggerBody) : List Reading :=
  optionReadings body.condition ++ body.steps.flatMap RowStatement.readings

/-! ## Objects -/

/-- Fails if an object cannot keep what reads this. -/
def Reading.check (kind : ObjectKind) (name : String) (temporary : Bool) : Reading → Except Failure Unit
  | .parameter =>
    .error (.invalid (if kind = .view then "parameters are not allowed in views" else "trigger cannot use variables"))
  | .table n =>
    match n.schema with
    | some s =>
      if temporary || sameName s "main" then .ok ()
      else .error (.invalid (kind.tag ++ " " ++ name ++ " cannot reference objects in database " ++ s))
    | none => .ok ()

end SchemaEditor.Store
