import SchemaEditor.FreshName
import SchemaEditor.Sql.Identifier

/-!
# The savepoint ledger

The ledger lists the savepoints that are open on a connection. While it is not empty the connection is
dirty: there are changes that are neither committed nor reverted. Whoever watches the connection hears of
every change to the list.
-/

namespace SchemaEditor

structure Ledger where
  /-- The open savepoints, the outermost first. -/
  active : List String := []
  /-- What was last announced: whether the connection is dirty. -/
  announced : Bool := false
  announcements : Nat := 0
deriving DecidableEq, Repr

namespace Ledger

def isDirty (l : Ledger) : Bool := !l.active.isEmpty

def isActive (l : Ledger) (name : String) : Bool := l.active.contains name

/-- `base`, with a number after it if that name is active. -/
def uniqueName (l : Ledger) (base : String) : String := freshName l.isActive l.active.length base

def announce (l : Ledger) : Ledger :=
  { l with announced := l.isDirty, announcements := l.announcements + 1 }

def push (l : Ledger) (name : String) : Ledger := { l with active := l.active ++ [name] }.announce

/-- Forgets all savepoints from the `n`th on. -/
def truncate (l : Ledger) (n : Nat) : Ledger := { l with active := l.active.take n }.announce

def clear (l : Ledger) : Ledger := l.truncate 0

/-- The place of a savepoint from the outside. -/
def position? (l : Ledger) (name : String) : Option Nat := l.active.findIdx? (· == name)

theorem position?_lt {l : Ledger} {name : String} {i : Nat} (h : l.position? name = some i) :
    i < l.active.length :=
  (List.findIdx?_eq_some_iff_getElem.mp h).1

/-- The last savepoint is active. -/
theorem position?_isSome_of_getLast? {l : Ledger} {name : String} (h : l.active.getLast? = some name) :
    (l.position? name).isSome := by
  simp only [position?, List.findIdx?_isSome, List.any_eq_true]
  exact ⟨name, List.mem_of_getLast? h, by simp⟩

end Ledger

def quoteSavepoint (name : String) : String := quoteWith '"' name

def savepointSql (name : String) : String := "SAVEPOINT " ++ quoteSavepoint name

def releaseSql (name : String) : String := "RELEASE SAVEPOINT " ++ quoteSavepoint name

def rollbackSql (name : String) : String := "ROLLBACK TO SAVEPOINT " ++ quoteSavepoint name

/-- Opened by every change, and held until the changes are committed or reverted. -/
def restorePoint : String := "oxide_restore_point"

end SchemaEditor
