import SchemaEditor.Proofs.Table.Definitions

/-!
# Printing and reading a table

A table in canonical form is read back from its print as it is, and nothing of the print is discarded. The form
is what the print can hold: the row column that follows from the key, a key order only where it differs from
the order of the columns, and texts that are read back as they are.
-/

namespace SchemaEditor

namespace Table

/-- The tables that print keeps whole. -/
structure Canonical (t : Table) : Prop where
  fields_ne_nil : t.fields ≠ []
  validate : t.validate = .ok ()
  rowid : t.withoutRowid = false → t.rowidColumn = defaultRowidColumn
  withoutRowid : t.withoutRowid = true → t.primaryKey.head?.map Field.name = some t.rowidColumn
  keyOrder : t.CanonicalKeyOrder
  fields : ∀ f ∈ t.fields, f.Canonical

/-- A table that is found by its row number and has its key in the order of its columns. -/
theorem canonical_of_fields {name : String} {fields : List Field} (hne : fields ≠ [])
    (hvalidate : ({ name, fields } : Table).validate = .ok ()) (hfields : ∀ f ∈ fields, f.Canonical) : ({ name, fields } : Table).Canonical where
  fields_ne_nil := hne
  validate := hvalidate
  rowid _ := rfl
  withoutRowid := nofun
  keyOrder := .inl rfl
  fields := hfields

/-- The same, but for the name: the empty name is read back as well. -/
structure Legible (t : Table) : Prop where
  fields_ne_nil : t.fields ≠ []
  valid : t.Valid
  rowid : t.withoutRowid = false → t.rowidColumn = defaultRowidColumn
  withoutRowid : t.withoutRowid = true → t.primaryKey.head?.map Field.name = some t.rowidColumn
  keyOrder : t.CanonicalKeyOrder
  fields : ∀ f ∈ t.fields, f.Canonical

theorem Canonical.legible {t : Table} (h : t.Canonical) : t.Legible :=
  ⟨h.fields_ne_nil, valid_of_validate h.validate, h.rowid, h.withoutRowid, h.keyOrder, h.fields⟩

/-! ## Where the key stands -/

theorem inlineKey_of_autoIncrement {t : Table} (h : t.Valid) {f : Field} (hf : f ∈ t.fields) (hauto : f.autoIncrement = true) :
    t.hasInlineKey = true ∧ f.primaryKey = true := by
  have hmay := h.autoIncrement f hf hauto
  simp only [mayAutoIncrement, Bool.and_eq_true, beq_iff_eq] at hmay
  obtain ⟨⟨⟨hlen, hpk⟩, hint⟩, -⟩ := hmay
  obtain ⟨key, hkey⟩ := List.length_eq_one_iff.mp hlen
  have hmem : f ∈ t.primaryKey := mem_primaryKey.mpr ⟨hf, hpk⟩
  rw [hkey] at hmem
  obtain rfl := List.mem_singleton.mp hmem
  exact ⟨by rw [hasInlineKey, hkey]; exact hint, hpk⟩

/-- A column keeps its key in its own definition if that is where the key is printed, and has none otherwise. -/
theorem withInlineKey_eq {t : Table} (h : t.Valid) {f : Field} (hf : f ∈ t.fields) {inlineKey : Bool}
    (hkey : f.primaryKey = inlineKey) : f.withInlineKey inlineKey = f := by
  subst hkey
  have hauto : (f.primaryKey && f.autoIncrement) = f.autoIncrement := by
    by_cases ha : f.autoIncrement = true
    · rw [(inlineKey_of_autoIncrement h hf ha).2, ha]
      rfl
    · simp [ha]
  rw [Field.withInlineKey, hauto]

theorem keyOrder_of_inlineKey {t : Table} (hk : t.CanonicalKeyOrder) (h : t.hasInlineKey = true) : t.keyOrder = [] := by
  refine hk.resolve_right ?_
  rintro ⟨hperm, hne⟩
  unfold hasInlineKey at h
  split at h
  · next key hkey =>
    rw [hkey] at hperm hne
    exact hne (List.perm_singleton.mp hperm)
  · cases h

theorem keyOrder_of_no_key {t : Table} (hk : t.CanonicalKeyOrder) (h : t.primaryKey = []) : t.keyOrder = [] := by
  refine hk.resolve_right ?_
  rintro ⟨hperm, hne⟩
  rw [h] at hperm hne
  exact hne (List.perm_nil.mp hperm)

theorem keyClause_cases (t : Table) : t.keyClause = [] ∨
    t.keyClause = ["PRIMARY KEY(" ++ quoteIdentifierList (t.primaryKeyOrder.map Field.name) ++ ")"] ∧
      t.primaryKeyOrder.map Field.name ≠ [] := by
  by_cases hnone : (t.hasInlineKey || (t.primaryKeyOrder.map Field.name).isEmpty) = true
  · exact .inl (if_pos hnone)
  · refine .inr ⟨if_neg hnone, ?_⟩
    simp only [Bool.or_eq_true, not_or, List.isEmpty_iff] at hnone
    exact hnone.2

/-- Marking the names of the key gives a column its key back. -/
theorem markKey_unmarked {t : Table} (h : t.Valid) (hinline : t.hasInlineKey = false)
    {f : Field} (hf : f ∈ t.fields) :
    (if (t.primaryKeyOrder.map Field.name).any f.isNamed then (f.withInlineKey false).asPrimaryKey
      else f.withInlineKey false) = f := by
  have hnames : (t.primaryKeyOrder.map Field.name).any f.isNamed = f.primaryKey := by
    rw [Bool.eq_iff_iff, List.any_eq_true]
    constructor
    · rintro ⟨n, hn, hnamed⟩
      obtain ⟨g, hg, rfl⟩ := List.mem_map.mp ((primaryKeyOrder_perm h.distinct).mem_iff.mp hn)
      obtain ⟨hgf, hgk⟩ := mem_primaryKey.mp hg
      rw [eq_of_isNamed h.distinct hf hgf hnamed]
      exact hgk
    · intro hpk
      have hmem : f.name ∈ t.primaryKey.map Field.name := List.mem_map_of_mem (mem_primaryKey.mpr ⟨hf, hpk⟩)
      exact ⟨f.name, (primaryKeyOrder_perm h.distinct).mem_iff.mpr hmem, isNamed_self f⟩
  have hauto : f.autoIncrement = false := by
    by_contra ha
    rw [(inlineKey_of_autoIncrement h hf (by simpa using ha)).1] at hinline
    cases hinline
  rw [hnames]
  by_cases hpk : f.primaryKey = true
  · rw [if_pos hpk, ← withInlineKey_eq h hf hpk]
    simp [Field.withInlineKey, Field.asPrimaryKey, hauto]
  · rw [if_neg hpk, withInlineKey_eq h hf (by simpa using hpk)]

end Table

namespace Reader

/-! ## Definitions -/

theorem readsEach_columns (inlineKey : Field → Bool) {fs : List Field} (hfs : ∀ f ∈ fs, f.Canonical) (t : Table) :
    ReadsEach definition t (fs.map fun f => (f.render "\t" (inlineKey f)).toList)
      { t with fields := t.fields ++ fs.map fun f => f.withInlineKey (inlineKey f) } := by
  induction fs generalizing t with
  | nil => simpa using ReadsEach.nil (r := definition) t
  | cons f fs ih =>
    have hih := ih (fun g hg => hfs g (List.mem_cons_of_mem f hg)) (t.addField (f.withInlineKey (inlineKey f)))
    refine .cons (fun rest hrest => reads_columnLine t (hfs f List.mem_cons_self) (inlineKey f) hrest) ?_
    simpa [Table.addField] using hih

theorem distinct_unmarked {t : Table} (h : Distinct t.fields) : Distinct (t.fields.map fun f => f.withInlineKey false) := by
  rw [Distinct, List.map_map]
  exact h

/-- The line of the key puts back what the lines of the columns leave out. -/
theorem readsEach_keyLine {t : Table} (h : t.Valid) (hk : t.CanonicalKeyOrder) (hinline : t.hasInlineKey = false)
    (hne : t.primaryKeyOrder.map Field.name ≠ []) :
    ReadsEach definition { name := t.name, fields := t.fields.map fun f => f.withInlineKey false }
      [("PRIMARY KEY(" ++ quoteIdentifierList (t.primaryKeyOrder.map Field.name) ++ ")").toList]
      { name := t.name, fields := t.fields, keyOrder := t.keyOrder } := by
  have hnames : ∀ n ∈ t.primaryKeyOrder.map Field.name, ∃ f ∈ t.fields.map (fun f => f.withInlineKey false), f.name = n := by
    intro n hn
    obtain ⟨f, hf, rfl⟩ := List.mem_map.mp ((Table.primaryKeyOrder_perm h.distinct).mem_iff.mp hn)
    exact ⟨_, List.mem_map_of_mem (Table.mem_primaryKey.mp hf).1, rfl⟩
  have hmarked : (t.primaryKeyOrder.map Field.name).foldl markKey
      { name := t.name, fields := t.fields.map fun f => f.withInlineKey false } = { name := t.name, fields := t.fields } := by
    have hback := List.map_congr_left fun f hf => Table.markKey_unmarked h hinline (f := f) hf
    rw [foldl_markKey, List.map_map]
    rw [List.map_id'] at hback
    exact congrArg (fun fs => ({ name := t.name, fields := fs } : Table)) hback
  have horder : ({ name := t.name, fields := t.fields } : Table).setPrimaryKeyOrder (t.primaryKeyOrder.map Field.name) =
      { name := t.name, fields := t.fields, keyOrder := t.keyOrder } := by
    have hset := congrArg Table.keyOrder (Table.setPrimaryKeyOrder_names h.distinct hk)
    exact congrArg (fun order => ({ name := t.name, fields := t.fields, keyOrder := order } : Table)) hset
  rw [← horder, ← hmarked]
  exact .cons (fun rest hrest => reads_keyLine hne (distinct_unmarked h.distinct) hnames hrest) (.nil _)

theorem readsEach_definitions {t : Table} (h : t.Legible) :
    ReadsEach definition { name := t.name } (t.definitionLines.map String.toList)
      { name := t.name, fields := t.fields, keyOrder := t.keyOrder } := by
  have hvalid := h.valid
  have hcolumns := readsEach_columns (fun f => t.hasInlineKey && f.primaryKey) h.fields { name := t.name }
  have hperm := Table.primaryKeyOrder_perm hvalid.distinct
  rw [List.nil_append] at hcolumns
  rw [Table.definitionLines, List.map_append, List.map_map]
  refine hcolumns.append ?_
  have hwhole (horder : t.keyOrder = []) (hclause : t.keyClause = [])
      (hkeys : ∀ f ∈ t.fields, f.primaryKey = (t.hasInlineKey && f.primaryKey)) :
      ReadsEach definition { name := t.name, fields := t.fields.map fun f => f.withInlineKey (t.hasInlineKey && f.primaryKey) }
        (t.keyClause.map String.toList) { name := t.name, fields := t.fields, keyOrder := t.keyOrder } := by
    have hsame := List.map_congr_left fun f hf => Table.withInlineKey_eq hvalid hf (hkeys f hf)
    rw [hsame, List.map_id', hclause, horder]
    exact .nil _
  by_cases hinline : t.hasInlineKey = true
  · refine hwhole (Table.keyOrder_of_inlineKey h.keyOrder hinline) ?_ fun f _ => ?_
    · rw [Table.keyClause, hinline]
      rfl
    · rw [hinline, Bool.true_and]
  · have hinline : t.hasInlineKey = false := by simpa using hinline
    by_cases hnone : t.primaryKeyOrder.map Field.name = []
    · have hkeys : t.primaryKey = [] := List.map_eq_nil_iff.mp (List.nil_perm.mp (hnone ▸ hperm))
      refine hwhole (Table.keyOrder_of_no_key h.keyOrder hkeys) ?_ fun f hf => ?_
      · rw [Table.keyClause, hnone, hinline]
        rfl
      · by_contra hpk
        have hmem : f ∈ t.primaryKey := Table.mem_primaryKey.mpr ⟨hf, by simpa [hinline] using hpk⟩
        rw [hkeys] at hmem
        cases hmem
    · have hclause : t.keyClause = ["PRIMARY KEY(" ++ quoteIdentifierList (t.primaryKeyOrder.map Field.name) ++ ")"] := by
        rw [Table.keyClause, hinline]
        exact if_neg (by simpa using hnone)
      rw [hclause, hinline]
      exact readsEach_keyLine hvalid h.keyOrder hinline hnone

/-! ## Head and tail of a statement -/

theorem reads_createTable {name : String} {rest : List Char} (hrest : Delimited rest) (h : Starts rest (.identifier name)) :
    Reads createTable "CREATE TABLE".toList () rest := by
  show Reads createTable (Keyword.create.word.toList ++ (' ' :: Keyword.table.word.toList)) () rest
  have htable : Starts (' ' :: Keyword.table.word.toList ++ rest) (.keyword .table) :=
    (isToken_keyword .table hrest).starts.space
  refine Reads.bind (reads_expectKeyword (isToken_keyword .create (delimited_space _))) ?_
  refine .look (reads_atKeyword htable .temp) (.look (reads_atKeyword htable .temporary) ?_)
  refine (reads_keyword_space hrest).andThen ((reads_atKeyword h .if).andThen ?_)
  exact Reads.pure () rest

theorem reads_tableName {w rest : List Char} {name : String} (hw : IsToken w (.identifier name) rest) (h : Starts rest .leftParen) :
    Reads tableName w name rest :=
  (reads_nameToken hw).andThen ((reads_atKind h .dot).andThen (Reads.pure name rest))

/-- What stands behind a statement: nothing, or a semicolon. -/
def EndsStatement (cs : List Char) : Prop := cs = [] ∨ cs = [';']

theorem EndsStatement.endsWord {cs : List Char} (h : EndsStatement cs) : EndsWord cs :=
  h.imp id fun h => ⟨';', [], h, rfl⟩

theorem EndsStatement.starts {cs : List Char} (h : EndsStatement cs) : Starts cs .eof ∨ Starts cs .semicolon := by
  rcases h with rfl | rfl
  · exact .inl starts_nil
  · exact .inr (isToken_semicolon []).starts

theorem reads_tableOption_none {rest : List Char} (h : EndsStatement rest) : Reads (tableOption false) [] (.done false) rest := by
  rcases h.starts with h | h <;>
    exact (reads_atKeyword h .without).andThen ((reads_atWord h "STRICT").andThen (Reads.pure _ rest))

theorem reads_tableOption_withoutRowid {rest : List Char} (hrest : EndsStatement rest) :
    Reads (tableOption false) " WITHOUT ROWID".toList (.done true) rest := by
  have hwithout := isToken_keyword .without (delimited_space ("ROWID".toList ++ rest))
  have hstarts : Starts (" WITHOUT ROWID".toList ++ rest) (.keyword .without) := hwithout.starts.space
  refine .look (reads_atKeyword hstarts .without) ?_
  show Reads _ ([' '] ++ (Keyword.without.word.toList ++ ([' '] ++ "ROWID".toList))) _ _
  refine Reads.blank isBlank_space (Reads.bind (reads_skip hwithout) ?_)
  refine Reads.andThen (.blank isBlank_space (reads_expectWord (isToken_rowid hrest.endsWord) (by decide))) ?_
  intro c hc
  have hk : ¬c.current.kind = .comma := by
    rcases hrest.starts with h | h <;> rw [h c hc] <;> decide
  exact ⟨c, if_neg hk, hc, rfl⟩

theorem reads_endOfStatement {cs : List Char} (h : EndsStatement cs) : Reads endOfStatement cs () [] := by
  rcases h with rfl | rfl
  · refine .look (reads_atKind starts_nil .semicolon) ?_
    exact (reads_atKind starts_nil .eof).andThen (Reads.pure () [])
  · have hsemicolon := isToken_semicolon []
    refine .look (reads_atKind hsemicolon.starts .semicolon) ?_
    exact (reads_skip hsemicolon).andThen ((reads_atKind starts_nil .eof).andThen (Reads.pure () []))

/-! ## Whole statements -/

theorem starts_closingLine (cs : List Char) : Starts (['\n', ')'] ++ cs) .rightParen :=
  Starts.blank (g := ['\n']) isBlank_newline (isToken_rightParen cs).starts

theorem reads_definitions {t : Table} (h : t.Legible) (rest : List Char) :
    Reads (loop (fun t => definition t >>= turnAtComma) { name := t.name })
      (",\n\t".intercalate t.definitionLines).toList { name := t.name, fields := t.fields, keyOrder := t.keyOrder }
      (['\n', ')'] ++ rest) := by
  have hne : t.definitionLines.map String.toList ≠ [] := by
    have hfields := h.fields_ne_nil
    simp [Table.definitionLines, hfields]
  rw [String.toList_intercalate]
  exact reads_list isBlank_newline_tab ⟨'\n', _, rfl, rfl⟩ (starts_closingLine rest) (readsEach_definitions h) hne

theorem setWithoutRowid_eq {t : Table} (h : t.Legible) (hw : t.withoutRowid = true) :
    ({ name := t.name, fields := t.fields, keyOrder := t.keyOrder } : Table).setWithoutRowid true = t := by
  obtain ⟨key, hkey, hname⟩ := Option.map_eq_some_iff.mp (h.withoutRowid hw)
  obtain ⟨keys, hkeys⟩ := List.head?_eq_some_iff.mp hkey
  have hpk : ({ name := t.name, fields := t.fields, keyOrder := t.keyOrder } : Table).primaryKey = key :: keys := hkeys
  unfold Table.setWithoutRowid
  rw [hpk]
  show ({ t with rowidColumn := key.name, withoutRowid := true } : Table) = t
  rw [hname, ← hw]

end Reader

namespace Table

/-- What is printed behind the name. -/
def tail (t : Table) : String :=
  " (\n\t" ++ ",\n\t".intercalate t.definitionLines ++ "\n)" ++ (if t.withoutRowid then " WITHOUT ROWID" else "")

/-- The statement without its semicolon, with the name as it is spelled. -/
def storedAs (t : Table) (spelling : String) : String := "CREATE TABLE " ++ spelling ++ t.tail

theorem sql_eq_storedAs (t : Table) : t.sql = t.storedAs (quoteIdentifier t.name) ++ ";" := by
  unfold sql storedAs tail
  generalize " (\n\t" = opening
  generalize "\n)" = closing
  simp only [String.append_assoc]

end Table

namespace Reader

/-- What is printed behind the definitions. -/
def optionText (t : Table) : List Char := if t.withoutRowid = true then " WITHOUT ROWID".toList else []

theorem toList_storedAs (t : Table) (spelling : String) :
    (t.storedAs spelling).toList = "CREATE TABLE".toList ++ ((' ' :: spelling.toList) ++ ([' ', '('] ++
      ((['\n', '\t'] ++ (",\n\t".intercalate t.definitionLines).toList) ++ (['\n', ')'] ++ optionText t)))) := by
  have hoption : (if t.withoutRowid = true then " WITHOUT ROWID" else "").toList = optionText t := apply_ite String.toList ..
  have hhead : "CREATE TABLE ".toList = "CREATE TABLE".toList ++ [' '] := by decide
  have hopen : " (\n\t".toList = [' ', '('] ++ ['\n', '\t'] := by decide
  have hclose : "\n)".toList = ['\n', ')'] := by decide
  unfold Table.storedAs Table.tail
  rw [String.toList_append, String.toList_append, String.toList_append, String.toList_append, String.toList_append, hoption, hhead,
    hopen, hclose]
  generalize ",\n\t".intercalate t.definitionLines = lines
  generalize "CREATE TABLE".toList = head
  simp only [List.append_assoc, List.cons_append, List.nil_append]

theorem toList_sql (t : Table) :
    t.sql.toList = "CREATE TABLE".toList ++ ((' ' :: (quoteIdentifier t.name).toList) ++ ([' ', '('] ++
      ((['\n', '\t'] ++ (",\n\t".intercalate t.definitionLines).toList) ++ (['\n', ')'] ++
        (optionText t ++ [';']))))) := by
  have hend : ";".toList = [';'] := by decide
  rw [Table.sql_eq_storedAs, String.toList_append, toList_storedAs, hend]
  generalize "CREATE TABLE".toList = head
  simp only [List.append_assoc, List.cons_append, List.nil_append]

theorem reads_tableOptions (t : Table) {rest : List Char} (hrest : EndsStatement rest) :
    Reads (loop tableOption false) (optionText t) t.withoutRowid rest := by
  unfold optionText
  by_cases hw : t.withoutRowid = true
  · rw [if_pos hw, hw]
    exact reads_loop_done (reads_tableOption_withoutRowid hrest)
  · rw [if_neg hw, Bool.eq_false_iff.mpr hw]
    exact reads_loop_done (reads_tableOption_none hrest)

/-- However the name is spelled, and whether there is a semicolon or not. -/
theorem reads_statement {t : Table} (h : t.Legible) {spelling : String} {ending : List Char}
    (hspelling : ∀ cs, IsToken spelling.toList (.identifier t.name) (' ' :: cs)) (hending : EndsStatement ending) :
    Reads table ((t.storedAs spelling).toList ++ ending) t [] := by
  have hdefinitions := reads_definitions h (optionText t ++ ending)
  have htext : (t.storedAs spelling).toList ++ ending = "CREATE TABLE".toList ++ ((' ' :: spelling.toList) ++ ([' ', '('] ++
      ((['\n', '\t'] ++ (",\n\t".intercalate t.definitionLines).toList) ++ (['\n', ')'] ++ (optionText t ++ ending))))) := by
    rw [toList_storedAs]
    generalize "CREATE TABLE".toList = head
    simp only [List.append_assoc]
  rw [htext]
  generalize (",\n\t".intercalate t.definitionLines).toList = lines at hdefinitions ⊢
  have hend := reads_tableOptions t hending
  generalize optionText t = option at hdefinitions hend ⊢
  have hname (cs : List Char) : Starts ((' ' :: spelling.toList) ++ ' ' :: cs) (.identifier t.name) := (hspelling cs).starts.space
  have hparen (cs : List Char) : Starts (' ' :: '(' :: cs) .leftParen := (isToken_leftParen cs).starts.space
  unfold table
  refine Reads.bind (@reads_createTable t.name _ (delimited_space _) ?_) ?_
  · rw [List.append_nil]
    exact hname _
  refine Reads.bind (.blank isBlank_space (@reads_tableName _ _ t.name ?_ ?_)) ?_
  · rw [List.append_nil]
    exact hspelling _
  · rw [List.append_nil]
    exact hparen _
  refine .look (reads_atKeyword (hparen _) .as) ?_
  refine Reads.bind (.blank isBlank_space (reads_expectKind (isToken_leftParen _))) ?_
  refine Reads.bind (.blank isBlank_newline_tab (by simpa using hdefinitions)) ?_
  refine Reads.bind (.blank isBlank_newline (reads_expectKind (isToken_rightParen _))) ?_
  refine Reads.bind (by rwa [List.append_nil]) ((reads_endOfStatement hending).andThen ?_)
  by_cases hw : t.withoutRowid = true
  · have hkeys : t.primaryKey.isEmpty = false := by
      have := h.valid.rowid hw
      simpa using this
    have hempty : ({ name := t.name, fields := t.fields, keyOrder := t.keyOrder } : Table).primaryKey.isEmpty = false := hkeys
    rw [if_pos hw]
    simp only [hempty, Bool.false_eq_true, if_false, setWithoutRowid_eq h hw]
    exact Reads.pure t []
  · have hsame : ({ name := t.name, fields := t.fields, keyOrder := t.keyOrder } : Table) = t := by
      have hw : t.withoutRowid = false := by simpa using hw
      rw [← h.rowid hw, ← hw]
    rw [if_neg hw, hsame]
    exact Reads.pure t []

theorem reads_table {t : Table} (h : t.Canonical) : Reads table t.sql.toList t [] := by
  have hend : ";".toList = [';'] := by decide
  rw [Table.sql_eq_storedAs, String.toList_append, hend]
  exact reads_statement h.legible (fun cs => isToken_quoteIdentifier t.name (by simp)) (.inr rfl)

end Reader

namespace Table

theorem readStatement_sql {t : Table} (h : t.Canonical) : ∃ c, readStatement t.sql = .ok t c ∧ c.discarded = [] := by
  have hstart : (Cursor.start t.sql).Before (t.sql.toList ++ []) := by
    rw [List.append_nil]
    exact Cursor.before_start t.sql
  obtain ⟨c, hc, -, hdiscarded⟩ := Reader.reads_table h (Cursor.start t.sql) hstart
  exact ⟨c, hc, hdiscarded⟩

/-- A table in canonical form is read back from its print, with nothing discarded. -/
theorem parse_sql {t : Table} (h : t.Canonical) : parse t.sql = .ok t ∧ discardedClauses t.sql = [] := by
  obtain ⟨c, hc, hdiscarded⟩ := readStatement_sql h
  refine ⟨by rw [parse, hc], ?_⟩
  rw [discardedClauses, hc]
  exact congrArg List.reverse hdiscarded

/-- A table with a key in an order of its own, a quote in its name, and texts of each kind. -/
def hero : Table where
  name := "hero `of` the day"
  fields := [
    { name := "id", sqlType := "integer", primaryKey := true, notNull := true },
    { name := "Name", sqlType := "varchar (20 /* wide */)", primaryKey := true, defaultValue := "'it''s'" },
    { name := "check", unique := true, defaultValue := "(1+(2))", check := "length(\"check\")>0 AND x''<>y" },
    { name := "née", sqlType := "double precision", defaultValue := "-1.5e3" }]
  rowidColumn := "id"
  withoutRowid := true
  keyOrder := ["Name", "id"]

theorem parse_sql_hero : parse hero.sql = .ok hero ∧ discardedClauses hero.sql = [] :=
  parse_sql {
    fields_ne_nil := by decide
    validate := by decide
    rowid := by decide
    withoutRowid := by decide
    keyOrder := .inr ⟨by decide, by decide⟩
    fields := by decide +kernel }

end Table

end SchemaEditor
