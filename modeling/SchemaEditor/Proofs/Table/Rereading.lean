import SchemaEditor.Catalog
import SchemaEditor.Proofs.Table.RoundTrip

/-!
# What a table is read back as

Print says nothing of a declared key order but the order of the key, and nothing of a row column but what the key says. So
a table that declares more is read back as one that declares no more than it must, and has the same columns, the same key and
the same print. A definition is stored with the name of the table in quotes of one kind or the other, and without its
semicolon; it is read all the same.
-/

namespace SchemaEditor

/-! ## Carriage returns -/

theorem mem_doubled {q c : Char} {cs : List Char} : c ∈ doubled q cs ↔ c ∈ cs := by
  induction cs with
  | nil => exact Iff.rfl
  | cons d cs ih =>
    rw [doubled]
    split
    · next heq => simp [ih, heq]
    · simp [ih]

theorem mem_quoteWith {q c : Char} (hne : c ≠ q) (name : String) : c ∈ (quoteWith q name).toList ↔ c ∈ name.toList := by
  simp [quoteWith, mem_doubled, hne]

/-- A text without carriage returns stays as it is. -/
theorem withoutReturns_eq_self {sql : String} (h : '\r' ∉ sql.toList) : withoutReturns sql = sql := by
  have hkept : sql.toList.filter (· != '\r') = sql.toList :=
    List.filter_eq_self.mpr fun c hc => bne_iff_ne.mpr fun heq => h (heq ▸ hc)
  rw [withoutReturns, hkept, String.ofList_toList]

namespace Table

variable {t : Table} {q : Char}

/-- No quotes bring a carriage return along. -/
theorem not_mem_storedAs (h : '\r' ∉ t.sql.toList) (hq : q = '"' ∨ q = '\x60') :
    '\r' ∉ (t.storedAs (quoteWith q t.name)).toList := by
  have hne : '\r' ≠ q := by rcases hq with rfl | rfl <;> decide
  rw [sql_eq_storedAs, storedAs, quoteIdentifier] at h
  rw [storedAs]
  simp only [String.toList_append, List.mem_append, not_or, mem_quoteWith hne] at h ⊢
  exact ⟨⟨h.1.1.1, fun hname => h.1.1.2 ((mem_quoteWith (by decide) t.name).mpr hname)⟩, h.1.2⟩

/-! ## Key and row column -/

/-- The table as it is read from its print. -/
def reread (t : Table) : Table :=
  (({ name := t.name, fields := t.fields } : Table).setPrimaryKeyOrder (t.primaryKeyOrder.map Field.name)).setWithoutRowid t.withoutRowid

/-- The definition `u` has the columns and the key of `t`, and the row column that follows from the key. -/
structure Restates (u t : Table) : Prop where
  fields : u.fields = t.fields
  primaryKeyOrder : u.primaryKeyOrder.map Field.name = t.primaryKeyOrder.map Field.name
  withoutRowid : u.withoutRowid = t.withoutRowid
  rowidColumn : if t.withoutRowid then t.primaryKey.head?.map Field.name = some u.rowidColumn else u.rowidColumn = defaultRowidColumn

theorem keyOrder_reread (t : Table) : t.reread.keyOrder =
    if t.primaryKey.map Field.name = t.primaryKeyOrder.map Field.name then [] else t.primaryKeyOrder.map Field.name := rfl

theorem canonicalKeyOrder_reread (hd : Distinct t.fields) : t.reread.CanonicalKeyOrder := by
  unfold CanonicalKeyOrder
  rw [keyOrder_reread]
  by_cases hsame : t.primaryKey.map Field.name = t.primaryKeyOrder.map Field.name
  · exact .inl (if_pos hsame)
  · rw [if_neg hsame]
    exact .inr ⟨primaryKeyOrder_perm hd, Ne.symm hsame⟩

/-- The order of the key is what is printed, whatever of it is declared. -/
theorem map_name_primaryKeyOrder_reread (hd : Distinct t.fields) :
    t.reread.primaryKeyOrder.map Field.name = t.primaryKeyOrder.map Field.name := by
  rw [map_name_primaryKeyOrder (t := t.reread) hd (canonicalKeyOrder_reread hd), keyOrder_reread]
  by_cases hsame : t.primaryKey.map Field.name = t.primaryKeyOrder.map Field.name
  · rw [if_pos hsame, if_pos rfl]
    exact hsame
  · rw [if_neg hsame]
    split
    · next hnil =>
      -- a key without columns is in their order
      have hperm := primaryKeyOrder_perm hd
      rw [hnil] at hperm
      exact absurd (List.nil_perm.mp hperm ▸ hnil.symm) hsame
    · rfl

theorem rowidColumn_reread (hv : t.Valid) :
    if t.withoutRowid then t.primaryKey.head?.map Field.name = some t.reread.rowidColumn
      else t.reread.rowidColumn = defaultRowidColumn := by
  have hkey : (({ name := t.name, fields := t.fields } : Table).setPrimaryKeyOrder
      (t.primaryKeyOrder.map Field.name)).primaryKey = t.primaryKey := rfl
  unfold reread setWithoutRowid
  rw [hkey]
  cases hw : t.withoutRowid with
  | false => rfl
  | true =>
    obtain ⟨key, keys, hkeys⟩ := List.exists_cons_of_ne_nil (hv.rowid hw)
    rw [hkeys]
    rfl

theorem restates_reread (hv : t.Valid) : t.reread.Restates t :=
  ⟨rfl, map_name_primaryKeyOrder_reread hv.distinct, rfl, rowidColumn_reread hv⟩

theorem legible_reread (hne : t.fields ≠ []) (hv : t.Valid) (hfields : ∀ f ∈ t.fields, f.Canonical) : t.reread.Legible where
  fields_ne_nil := hne
  valid := ⟨hv.distinct, hv.autoIncrement, hv.rowid⟩
  rowid hw := by
    have hcolumn := rowidColumn_reread hv
    rwa [show t.withoutRowid = false from hw, if_neg Bool.false_ne_true] at hcolumn
  withoutRowid hw := by
    have hcolumn := rowidColumn_reread hv
    rwa [show t.withoutRowid = true from hw, if_pos rfl] at hcolumn
  keyOrder := canonicalKeyOrder_reread hv.distinct
  fields := hfields

/-! ## Stored definitions -/

theorem tail_reread (hd : Distinct t.fields) : t.reread.tail = t.tail := by
  have hclause : t.reread.keyClause = t.keyClause := by
    unfold keyClause
    rw [map_name_primaryKeyOrder_reread hd]
    rfl
  unfold tail definitionLines
  rw [hclause]
  rfl

/-- A definition is read as it was stored. -/
theorem parse_storedAs (hq : q = '"' ∨ q = '\x60') (h : t.Legible) : parse (t.storedAs (quoteWith q t.name)) = .ok t := by
  have hspelling (cs : List Char) : IsToken (quoteWith q t.name).toList (.identifier t.name) (' ' :: cs) :=
    isToken_quoteWith hq t.name (by rcases hq with rfl | rfl <;> simp)
  have hstart := Cursor.before_start (t.storedAs (quoteWith q t.name))
  obtain ⟨c, hc, -⟩ := Reader.reads_statement h hspelling (.inl rfl) _ (by simpa using hstart)
  rw [parse, readStatement, hc]

theorem parse_sql_reread (hne : t.fields ≠ []) (hv : t.Valid) (hfields : ∀ f ∈ t.fields, f.Canonical) : parse t.sql = .ok t.reread := by
  have hend : ";".toList = [';'] := by decide
  have hsql : t.sql.toList = (t.reread.storedAs (quoteIdentifier t.name)).toList ++ [';'] := by
    rw [sql_eq_storedAs, String.toList_append, hend, storedAs, storedAs, tail_reread hv.distinct]
  have hstart := Cursor.before_start t.sql
  rw [hsql] at hstart
  obtain ⟨c, hc, -⟩ := Reader.reads_statement (legible_reread hne hv hfields)
    (fun cs => isToken_quoteIdentifier t.name (by simp)) (.inr rfl) _ (by simpa using hstart)
  rw [parse, readStatement, hc]

/-- The definition of a valid table with canonical columns is read as one that restates it, under the name it is stored with. -/
theorem parse_storedAs_reread (hq : q = '"' ∨ q = '\x60') (hne : t.fields ≠ []) (hv : t.Valid) (hfields : ∀ f ∈ t.fields, f.Canonical) :
    parse (t.storedAs (quoteWith q t.name)) = .ok t.reread := by
  have hstored : t.storedAs (quoteWith q t.name) = t.reread.storedAs (quoteWith q t.reread.name) := by
    rw [storedAs, storedAs, tail_reread hv.distinct]
    rfl
  rw [hstored]
  exact parse_storedAs hq (legible_reread hne hv hfields)

end Table

end SchemaEditor
