import SchemaEditor.Store.Failure

/-!
# Flows

Items that come one by one, until there are no more or one fails. The items before a failure are there all the same,
and who needs no more of them never meets it.
-/

namespace SchemaEditor.Store

structure Flow (α : Type) where
  items : List α
  /-- What came instead of the next item. -/
  failure : Option Failure := none

namespace Flow

variable {α β : Type}

/-- Items that come all at once or not at all. -/
def ofExcept : Except Failure (List α) → Flow α
  | .ok items => ⟨items, none⟩
  | .error e => ⟨[], some e⟩

/-- All items, if none fails. -/
def whole (f : Flow α) : Except Failure (List α) :=
  match f.failure with
  | none => .ok f.items
  | some e => .error e

/-- The first item, if there is one. -/
def head? (f : Flow α) : Except Failure (Option α) :=
  match f.items, f.failure with
  | a :: _, _ => .ok (some a)
  | [], none => .ok none
  | [], some e => .error e

def map (g : α → β) (f : Flow α) : Flow β := ⟨f.items.map g, f.failure⟩

def append (f : Flow α) (g : Unit → Flow α) : Flow α :=
  match f.failure with
  | some _ => f
  | none => let next := g (); ⟨f.items ++ next.items, next.failure⟩

/-- Follows items with what each gives, after those that came before, which are in reverse. -/
def bindItems (g : α → Flow β) (failure : Option Failure) (done : List β) : List α → Flow β
  | [] => ⟨done.reverse, failure⟩
  | a :: as =>
    let next := g a
    let done := next.items.reverse ++ done
    match next.failure with
    | some e => ⟨done.reverse, some e⟩
    | none => bindItems g failure done as

/-- What each item gives, one after the other. -/
def bind (f : Flow α) (g : α → Flow β) : Flow β := bindItems g f.failure [] f.items

def mapM (f : Flow α) (g : α → Except Failure β) : Flow β := f.bind fun a => ofExcept ((g a).map fun b => [b])

def filterM (f : Flow α) (p : α → Except Failure Bool) : Flow α :=
  f.bind fun a => ofExcept ((p a).map fun keeps => if keeps then [a] else [])

/-- Leaves items out that depend only on those before them. -/
def filterItems (f : Flow α) (g : List α → List α) : Flow α := ⟨g f.items, f.failure⟩

/-- Changes all items together, when there are no more. -/
def gather (f : Flow α) (g : List α → List β) : Flow β := ofExcept (f.whole.map g)

def take (n : Nat) (f : Flow α) : Flow α := ⟨f.items.take n, if n ≤ f.items.length then none else f.failure⟩

def drop (n : Nat) (f : Flow α) : Flow α := ⟨f.items.drop n, f.failure⟩

end Flow

end SchemaEditor.Store
