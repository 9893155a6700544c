import SchemaEditor.Name
import SchemaEditor.Store.Affinity

/-!
# The order of values

NULL comes first, then numbers, texts and blobs. Texts are compared as a collation has it.
-/

namespace SchemaEditor.Store

/-- How texts are compared. -/
inductive Collation where
  | binary
  | noCase
  /-- Blanks at the end do not count. -/
  | trimEnd
deriving DecidableEq, Repr

namespace Collation

def ofName? (name : String) : Option Collation :=
  match name.toUpper with
  | "BINARY" => some .binary
  | "NOCASE" => some .noCase
  | "RTRIM" => some .trimEnd
  | _ => none

def fold : Collation → String → List Char
  | .binary, s => s.toList
  | .noCase, s => foldCase s
  | .trimEnd, s => (s.toList.reverse.dropWhile (· == ' ')).reverse

end Collation

/-- The place of a value among those of other kinds. -/
def rank : Value → Nat
  | .null => 0
  | .integer _ | .real _ => 1
  | .text _ => 2
  | .blob _ => 3

def compareLists {α : Type} [Ord α] : List α → List α → Ordering
  | [], [] => .eq
  | [], _ :: _ => .lt
  | _ :: _, [] => .gt
  | a :: as, b :: bs => (compare a b).then (compareLists as bs)

def compareValues (k : Collation) : Value → Value → Ordering
  | .integer a, .integer b => compare a b
  | .integer a, .real b => Decimal.compareInteger a b
  | .real a, .integer b => (Decimal.compareInteger b a).swap
  | .real a, .real b => Decimal.compareFloats a b
  | .text a, .text b => compareLists (k.fold a) (k.fold b)
  | .blob a, .blob b => compareLists a b
  | a, b => compare (rank a) (rank b)

/-- Whether two values count as the same in a key. NULL is the same as nothing. -/
def sameValue (k : Collation) (a b : Value) : Bool := a != .null && compareValues k a b == .eq

/-! ## Keys -/

/-- A column of a key or an index, by its place. -/
structure KeyColumn where
  place : Nat
  collation : Collation
  descending : Bool
deriving DecidableEq, Repr

/-- Compares rows by some of their columns. -/
def compareBy : List KeyColumn → List Value → List Value → Ordering
  | [], _, _ => .eq
  | k :: ks, a, b =>
    let o := compareValues k.collation (a.getD k.place .null) (b.getD k.place .null)
    (if k.descending then o.swap else o).then (compareBy ks a b)

/-- Whether two rows have the same values in all of some columns. -/
def agree (key : List KeyColumn) (a b : List Value) : Bool :=
  key.all fun k => sameValue k.collation (a.getD k.place .null) (b.getD k.place .null)

end SchemaEditor.Store
