import SchemaEditor.Store.Meaning

/-!
# Orders of rows

Rows are sorted by terms, the first of which decides unless it is the same. Rows in the same place keep the order in
which they came.
-/

namespace SchemaEditor.Store

structure SortTerm where
  meaning : Meaning
  descending : Bool
  nullsLast : Bool

def SortTerm.compare (t : SortTerm) (v w : Value) : Ordering :=
  match v, w with
  | .null, .null => .eq
  | .null, _ => if t.nullsLast then .gt else .lt
  | _, .null => if t.nullsLast then .lt else .gt
  | v, w =>
    let o := compareValues (t.meaning.collation.getD .binary) v w
    if t.descending then o.swap else o

def compareTerms : List SortTerm → List Value → List Value → Ordering
  | [], _, _ => .eq
  | t :: ts, vs, ws => (t.compare (vs.headD .null) (ws.headD .null)).then (compareTerms ts vs.tail ws.tail)

/-- Compares rows by all columns. -/
def compareColumns : List Collation → List Value → List Value → Ordering
  | [], _, _ => .eq
  | k :: ks, vs, ws => (compareValues k (vs.headD .null) (ws.headD .null)).then (compareColumns ks vs.tail ws.tail)

def sortBy {α : Type} (compare : α → α → Ordering) (rows : List α) : List α :=
  rows.mergeSort fun a b => compare a b != .gt

end SchemaEditor.Store
