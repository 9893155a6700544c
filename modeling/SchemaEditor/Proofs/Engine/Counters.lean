import SchemaEditor.Proofs.Engine.Rows

/-!
# Tables that count their keys

The key of a table may be one that the engine assigns. The engine then keeps a counter for the table: it is raised to the
largest key that is inserted, stays when rows are deleted, and a row that comes without a key gets the next one. So the
counter of a table is the largest key that the table ever held.
-/

namespace SchemaEditor

variable {σ δ : Type}

/-! ## The largest key -/

/-- The largest of some keys, if one is positive, and 0 otherwise. -/
def largest : List Int → Int
  | [] => 0
  | k :: ks => max k (largest ks)

theorem largest_nonneg (ks : List Int) : 0 ≤ largest ks := by
  induction ks with
  | nil => exact Int.le_refl 0
  | cons k ks ih => exact Int.le_trans ih (Int.le_max_right k _)

theorem largest_append (ks ls : List Int) : largest (ks ++ ls) = max (largest ks) (largest ls) := by
  induction ks with
  | nil =>
    have := largest_nonneg ls
    rw [List.nil_append, largest]
    omega
  | cons k ks ih =>
    rw [List.cons_append, largest, largest, ih]
    omega

theorem le_largest {ks : List Int} {k : Int} (h : k ∈ ks) : k ≤ largest ks := by
  induction ks with
  | nil => cases h
  | cons l ks ih =>
    rcases List.mem_cons.mp h with rfl | h
    · exact Int.le_max_left _ _
    · exact Int.le_trans (ih h) (Int.le_max_right l _)

theorem largest_le {ks : List Int} {n : Int} (hn : 0 ≤ n) (h : ∀ k ∈ ks, k ≤ n) : largest ks ≤ n := by
  induction ks with
  | nil => exact hn
  | cons l ks ih =>
    have hl := h l List.mem_cons_self
    have hks := ih fun k hk => h k (List.mem_cons_of_mem l hk)
    rw [largest]
    omega

/-! ## Rows and their counter -/

/-- What a table holds, and how far its keys have been counted. -/
structure CountedRows extends TableRows where
  counter : Int := 0
deriving DecidableEq, Repr

/-- What befalls the rows of a table. -/
inductive RowEvent where
  | insert (row : List Value)
  | delete (gone : List Value → Bool)

namespace CountedRows

/-- A new table. -/
def fresh (columns : List String) : CountedRows := { columns, rows := [] }

variable (key : String)

/-- The key of a row. -/
def key? (r : CountedRows) (row : List Value) : Option Int :=
  match r.value? row key with
  | some (.integer n) => some n
  | _ => none

def keys (r : CountedRows) : List Int := r.rows.filterMap (r.key? key)

/-- The key of the next row that comes without one. -/
def nextKey (r : CountedRows) : Int := r.counter + 1

/-- The row as it is stored: if it has no key, it gets the next one. -/
def keyed (r : CountedRows) (row : List Value) : List Value :=
  if r.value? row key = some .null then row.set (r.columns.findIdx fun column => sameName column key) (.integer r.nextKey) else row

/-- Inserts a row. What is no key is refused. -/
def insert (r : CountedRows) (row : List Value) : CountedRows :=
  match r.key? key (r.keyed key row) with
  | some n => { r with rows := r.rows ++ [r.keyed key row], counter := max r.counter n }
  | none => r

def step (r : CountedRows) : RowEvent → CountedRows
  | .insert row => r.insert key row
  | .delete gone => { r with rows := r.rows.filter fun row => !gone row }

def after (r : CountedRows) (events : List RowEvent) : CountedRows := events.foldl (step key) r

/-- All keys that rows have had, from the beginning to the end. -/
def held (r : CountedRows) : List RowEvent → List Int
  | [] => r.keys key
  | e :: events => r.keys key ++ held (r.step key e) events

variable {key}

/-! ## One row -/

theorem keyed_of_key? {r : CountedRows} {row : List Value} {n : Int} (h : r.key? key row = some n) : r.keyed key row = row := by
  rw [keyed, if_neg]
  intro hnull
  rw [key?, hnull] at h
  cases h

theorem insert_of_key? {r : CountedRows} {row : List Value} {n : Int} (h : r.key? key row = some n) :
    r.insert key row = { r with rows := r.rows ++ [row], counter := max r.counter n } := by
  rw [insert, keyed_of_key? h, h]

theorem keys_append (r : CountedRows) (row : List Value) (n c : Int) (h : r.key? key row = some n) :
    keys key { r with rows := r.rows ++ [row], counter := c } = r.keys key ++ [n] := by
  show (r.rows ++ [row]).filterMap (r.key? key) = _
  rw [List.filterMap_append, keys, List.filterMap_cons, h]
  rfl

/-- A row that comes without a key gets the next one. -/
theorem keys_insert_of_null {r : CountedRows} {row : List Value} (h : r.value? row key = some .null) :
    (r.insert key row).keys key = r.keys key ++ [r.nextKey] := by
  have hkeyed : r.keyed key row = row.set (r.columns.findIdx fun column => sameName column key) (.integer r.nextKey) := by
    rw [keyed, if_pos h]
  have hkey : r.key? key (r.keyed key row) = some r.nextKey := by
    rw [TableRows.value?] at h
    obtain ⟨k, hk, hvalue⟩ := Option.bind_eq_some_iff.mp h
    have hplace : (r.columns.findIdx fun column => sameName column key) = k := by
      rw [List.findIdx_eq_getD_findIdx?, hk]
      rfl
    have hlt : k < row.length := (List.getElem?_eq_some_iff.mp hvalue).1
    rw [key?, hkeyed, TableRows.value?, hk, hplace]
    simp [hlt]
  rw [insert, hkey]
  exact keys_append r _ _ _ hkey

/-! ## The history of a counter -/

/-- Each row has a key, and none that was not counted. -/
structure IsCounted (key : String) (r : CountedRows) : Prop where
  nonneg : 0 ≤ r.counter
  largest_keys_le : largest (r.keys key) ≤ r.counter
  keyed : ∀ row ∈ r.rows, ∃ n, r.key? key row = some n

theorem isCounted_fresh (columns : List String) : (fresh columns).IsCounted key :=
  ⟨Int.le_refl 0, Int.le_refl 0, nofun⟩

/-- What one event does: the counter is raised to the keys that are there afterwards. -/
theorem counter_step {r : CountedRows} (h : r.IsCounted key) (e : RowEvent) :
    (r.step key e).IsCounted key ∧ (r.step key e).counter = max r.counter (largest ((r.step key e).keys key)) := by
  obtain ⟨hnonneg, hkeys, hkeyed⟩ := h
  cases e with
  | delete gone =>
    have hleft : largest ((r.step key (.delete gone)).keys key) ≤ r.counter := by
      refine largest_le hnonneg fun k hk => Int.le_trans (le_largest ?_) hkeys
      obtain ⟨row, hrow, hk⟩ := List.mem_filterMap.mp hk
      exact List.mem_filterMap.mpr ⟨row, (List.mem_filter.mp hrow).1, hk⟩
    exact ⟨⟨hnonneg, hleft, fun row hrow => hkeyed row (List.mem_filter.mp hrow).1⟩, show r.counter = _ by omega⟩
  | insert row =>
    rw [step]
    cases hkey : r.key? key (r.keyed key row) with
    | none =>
      rw [insert, hkey]
      exact ⟨⟨hnonneg, hkeys, hkeyed⟩, by dsimp only; omega⟩
    | some n =>
      have hinserted : r.insert key row = { r with rows := r.rows ++ [r.keyed key row], counter := max r.counter n } := by
        rw [insert, hkey]
      have hlargest : largest (r.keys key ++ [n]) = max (largest (r.keys key)) (max n 0) := largest_append _ _
      rw [hinserted, keys_append _ _ _ _ hkey, hlargest]
      refine ⟨⟨?_, ?_, fun old hold => ?_⟩, ?_⟩
      · dsimp only
        omega
      · rw [keys_append _ _ _ _ hkey, hlargest]
        dsimp only
        omega
      · rcases List.mem_append.mp hold with hold | hold
        · exact hkeyed old hold
        · rw [List.mem_singleton.mp hold]
          exact ⟨n, hkey⟩
      · dsimp only
        omega

theorem isCounted_after {r : CountedRows} (h : r.IsCounted key) (events : List RowEvent) : (r.after key events).IsCounted key := by
  induction events generalizing r with
  | nil => exact h
  | cons e events ih => exact ih (counter_step h e).1

theorem counter_after {r : CountedRows} (h : r.IsCounted key) (events : List RowEvent) :
    (r.after key events).counter = max r.counter (largest (r.held key events)) := by
  induction events generalizing r with
  | nil =>
    have := h.largest_keys_le
    show r.counter = max r.counter (largest (r.keys key))
    omega
  | cons e events ih =>
    obtain ⟨hstep, hcounter⟩ := counter_step h e
    have hrest : (r.after key (e :: events)).counter = max (r.step key e).counter (largest ((r.step key e).held key events)) := ih hstep
    have hfirst : largest ((r.step key e).keys key) ≤ largest ((r.step key e).held key events) := by
      cases events with
      | nil => exact Int.le_refl _
      | cons => rw [held, largest_append]; exact Int.le_max_left _ _
    have hkeys := h.largest_keys_le
    rw [hrest, hcounter, held, largest_append]
    omega

/-- The counter of a table is the largest key that it ever held. -/
theorem counter_fresh (columns : List String) (events : List RowEvent) :
    ((fresh columns).after key events).counter = largest ((fresh columns).held key events) := by
  rw [counter_after (isCounted_fresh columns)]
  have := largest_nonneg ((fresh columns).held key events)
  show max 0 (largest ((fresh columns).held key events)) = _
  omega

/-! ## Copies -/

/-- Rows that have their keys are inserted as they are. -/
theorem foldl_insert {r : CountedRows} (hnonneg : 0 ≤ r.counter) {rows : List (List Value)} (h : ∀ row ∈ rows, ∃ n, r.key? key row = some n) :
    rows.foldl (insert key) r =
      { r with rows := r.rows ++ rows, counter := max r.counter (largest (rows.filterMap (r.key? key))) } := by
  induction rows generalizing r with
  | nil =>
    have hsame : max r.counter (largest []) = r.counter := by
      rw [largest]
      omega
    rw [List.foldl_nil, List.filterMap_nil, hsame, List.append_nil]
  | cons row rows ih =>
    obtain ⟨n, hn⟩ := h row List.mem_cons_self
    have hraised : 0 ≤ max r.counter n := Int.le_trans hnonneg (Int.le_max_left _ _)
    -- keys are found by the columns, which stay the same
    have hrest := ih (r := { r with rows := r.rows ++ [row], counter := max r.counter n }) hraised
      fun row hrow => h row (List.mem_cons_of_mem _ hrow)
    have hkey : key? key { r with rows := r.rows ++ [row], counter := max r.counter n } = r.key? key := rfl
    rw [hkey] at hrest
    have hcounter (m : Int) : max (max r.counter n) m = max r.counter (max n m) := by omega
    rw [List.foldl_cons, insert_of_key? hn, hrest, List.filterMap_cons, hn, largest]
    dsimp only
    rw [hcounter, List.append_assoc, List.singleton_append]

end CountedRows

/-! ## Plans -/

/-- Copies are inserted one after the other, and counted if a column counts its keys. -/
def RebuildPlan.CountsCopies (p : RebuildPlan) (t : Table) (old new filled : CountedRows) : Prop :=
  ∃ copies, List.Forall₂ (p.CopiesRow t old.toTableRows) old.rows copies ∧
    ∀ f ∈ p.rebuilt.fields, f.autoIncrement = true → filled = copies.foldl (CountedRows.insert f.name) new

/-- The engine takes the statements of a plan as they are meant, and counts keys: from 0 in a new table, on through the rows
that are copied. The counter of a table goes when it is dropped, and goes with it when it is renamed. -/
def RebuildPlan.IsCounted [Engine σ] (v : EngineView σ δ) (counted : δ → String → Option CountedRows) (p : RebuildPlan)
    (t : Table) (dependents : List SchemaObject) : Prop :=
  p.Carries v counted dependents (.fresh p.rebuilt.fieldNames) (p.CountsCopies t)

/-- A journal that is read as counted rows counts them. -/
theorem Journal.isCounted_looked {p : RebuildPlan} (hne : p.table ≠ p.temporary) (t : Table) {key : String}
    (hkey : ∀ f ∈ p.rebuilt.fields, f.autoIncrement = true → f.name = key) (start : String → Option CountedRows) :
    p.IsCounted view (looked p (.fresh p.rebuilt.fieldNames)
      (fun old new => (old.rows.map (copyRow p old.toTableRows)).foldl (CountedRows.insert key) new) start) t [] where
  create h := (carries_looked hne _ _ start).create h
  copy h hold hnew := by
    obtain ⟨filled, rfl, hfilled⟩ := (carries_looked hne _ _ start).copy h hold hnew
    exact ⟨_, ⟨_, forall₂_copyRow p t _, fun f hf hauto => by rw [hkey f hf hauto]⟩, hfilled⟩
  drop h := (carries_looked hne _ _ start).drop h
  rename h := (carries_looked hne _ _ start).rename h
  dependents := nofun

end SchemaEditor
