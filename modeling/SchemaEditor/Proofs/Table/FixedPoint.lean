import SchemaEditor.Proofs.Table.Results
import SchemaEditor.Proofs.Table.RoundTrip

/-!
# Printing what was read

The print of a table that was read is itself read as that table, if the key is recorded in canonical order and the
expressions are read back as they are. Neither follows from the table having been read: a key may name a column
twice, and compact text may be cut into other tokens. Then reading the print gives another table or none.
-/

namespace SchemaEditor

/-! ## Key lines -/

namespace Table

/-- What the line of the key, if there is one, makes of the columns in front of it. -/
def withKeyLine (t : Table) (gs : List Field) : Table :=
  if t.keyClause = [] then { name := t.name, fields := gs }
  else ((t.primaryKeyOrder.map Field.name).foldl Reader.markKey { name := t.name, fields := gs }).setPrimaryKeyOrder
    (t.primaryKeyOrder.map Field.name)

/-- The columns of a print as they are read. -/
def Rereads (t : Table) (gs : List Field) : Prop :=
  List.Forall₂ (fun f g => f.Resembles (t.hasInlineKey && f.primaryKey) g) t.fields gs

theorem Rereads.names {t : Table} {gs : List Field} (h : t.Rereads gs) : gs.map Field.name = t.fields.map Field.name := by
  have hnames {inlineKey : Field → Bool} {fs gs : List Field}
      (h : List.Forall₂ (fun f g => f.Resembles (inlineKey f) g) fs gs) : gs.map Field.name = fs.map Field.name := by
    induction h with
    | nil => rfl
    | cons hg _ ih =>
      rw [List.map_cons, List.map_cons, ih, hg.same]
      rfl
  exact hnames h

end Table

namespace Reader

theorem givesEach_columns {inlineKey : Field → Bool} {fs : List Field} (hfs : ∀ f ∈ fs, f.Spelled) {P : Table → Prop}
    {more : List (List Char)} {t : Table}
    (h : ∀ gs, List.Forall₂ (fun f g => f.Resembles (inlineKey f) g) fs gs →
      GivesEach definition P { t with fields := t.fields ++ gs } more) :
    GivesEach definition P t (fs.map (fun f => (f.render "\t" (inlineKey f)).toList) ++ more) := by
  induction fs generalizing t with
  | nil => simpa using h [] .nil
  | cons f fs ih =>
    refine .cons _ (fun rest hrest => gives_columnLine t (hfs f List.mem_cons_self) (inlineKey f) hrest) ?_
    rintro _ ⟨g, rfl, hg⟩
    refine ih (fun f' hf' => hfs f' (List.mem_cons_of_mem f hf')) fun gs hgs => ?_
    simpa [Table.addField] using h (g :: gs) (.cons hg hgs)

theorem givesEach_definitions {t : Table} (hd : Distinct t.fields) (hspelled : ∀ f ∈ t.fields, f.Spelled) :
    GivesEach definition (fun t' => ∃ gs, t.Rereads gs ∧ t' = t.withKeyLine gs) { name := t.name }
      (t.definitionLines.map String.toList) := by
  rw [Table.definitionLines, List.map_append, List.map_map]
  refine givesEach_columns hspelled fun gs hgs => ?_
  rw [List.nil_append]
  have hnames := Table.Rereads.names hgs
  rcases t.keyClause_cases with hclause | ⟨hclause, hne⟩
  · rw [hclause]
    exact .nil ⟨gs, hgs, by rw [Table.withKeyLine, if_pos hclause]⟩
  · have hline : t.keyClause ≠ [] := by
      rw [hclause]
      exact List.cons_ne_nil _ _
    have hdistinct : Distinct gs := by
      have hfold (fs : List Field) : fs.map (fun f => foldCase f.name) = (fs.map Field.name).map foldCase := by
        rw [List.map_map]
        rfl
      rw [Distinct, hfold, hnames, ← hfold]
      exact hd
    have hfound : ∀ n ∈ t.primaryKeyOrder.map Field.name, ∃ f ∈ gs, f.name = n := by
      intro n hn
      obtain ⟨f, hf, rfl⟩ := List.mem_map.mp ((Table.primaryKeyOrder_perm hd).mem_iff.mp hn)
      have hmem : f.name ∈ gs.map Field.name := hnames ▸ List.mem_map_of_mem (Table.mem_primaryKey.mp hf).1
      exact List.mem_map.mp hmem
    rw [hclause]
    refine .cons _ (fun rest hrest => (reads_keyLine hne hdistinct hfound hrest).gives) ?_
    rintro _ rfl
    exact .nil ⟨gs, hgs, by rw [Table.withKeyLine, if_neg hline]⟩

/-! ## Statements -/

/-- What the definitions are read as decides what the whole print is read as. -/
theorem gives_sql {t : Table} {P : Table → Prop}
    (hdefinitions : Gives (loop (fun t => definition t >>= turnAtComma) { name := t.name })
      (",\n\t".intercalate t.definitionLines).toList P (['\n', ')'] ++ (optionText t ++ [';']))) :
    Gives table t.sql.toList (fun t' => ∃ t₁, P t₁ ∧ t'.fields = t₁.fields ∧ t'.keyOrder = t₁.keyOrder) [] := by
  rw [toList_sql]
  generalize (",\n\t".intercalate t.definitionLines).toList = lines at hdefinitions ⊢
  have hend := reads_tableOptions t (.inr rfl)
  generalize optionText t = option at hdefinitions hend ⊢
  have hname (cs : List Char) : Starts ((' ' :: (quoteIdentifier t.name).toList) ++ ' ' :: cs) (.identifier t.name) :=
    (isToken_quoteIdentifier t.name (by simp)).starts.space
  have hparen (cs : List Char) : Starts (' ' :: '(' :: cs) .leftParen := (isToken_leftParen cs).starts.space
  unfold table
  refine Reads.bind_gives (@reads_createTable t.name _ (delimited_space _) ?_) ?_
  · rw [List.append_nil]
    exact hname _
  refine Reads.bind_gives (.blank isBlank_space (reads_tableName (isToken_quoteIdentifier t.name ?_) ?_)) ?_
  · simp
  · rw [List.append_nil]
    exact hparen _
  refine (reads_atKeyword (hparen _) .as).look_gives ?_
  refine Reads.bind_gives (.blank isBlank_space (reads_expectKind (isToken_leftParen _))) ?_
  refine Gives.bind (.blank isBlank_newline_tab (by simpa using hdefinitions)) fun t₁ ht₁ => ?_
  refine Reads.bind_gives (.blank isBlank_newline (reads_expectKind (isToken_rightParen _))) ?_
  refine Reads.bind_gives hend ((reads_endOfStatement (.inr rfl)).gives.andThen fun _ _ => ?_)
  intro c t' c' hc h
  obtain ⟨ts, rest, hrest, ⟨hfinish, rfl⟩, rfl⟩ := (takes_finish t₁ t.withoutRowid c t' c').mp h
  obtain ⟨hfields, horder⟩ := fields_finish? hfinish
  rw [List.nil_append] at hrest
  rw [← hrest]
  exact ⟨hc, t₁, ht₁, hfields, horder⟩

/-- Reading the print of a table gives the columns as they are read, with the key that their line makes. -/
theorem gives_columns {t : Table} (hfields : t.fields ≠ []) (hd : Distinct t.fields) (hspelled : ∀ f ∈ t.fields, f.Spelled)
    (cs : List Char) :
    Gives (loop (fun t => definition t >>= turnAtComma) { name := t.name }) (",\n\t".intercalate t.definitionLines).toList
      (fun t' => ∃ gs, t.Rereads gs ∧ t' = t.withKeyLine gs) (['\n', ')'] ++ cs) := by
  rw [String.toList_intercalate]
  refine gives_list isBlank_newline_tab ⟨'\n', _, rfl, rfl⟩ (starts_closingLine cs) (givesEach_definitions hd hspelled) ?_
  simp [Table.definitionLines, hfields]

/-- A list without definitions is not read at all. -/
theorem gives_no_definitions (t : Table) {rest : List Char} (h : Starts rest .rightParen) :
    Gives (loop (fun t => definition t >>= turnAtComma) t) [] (fun _ : Table => False) rest := by
  have hname : Gives expectName [] (fun _ => False) rest := by
    intro c n c' hc hn
    obtain ⟨_, rest', hrest, ⟨t, rfl, ht⟩, -⟩ := (takes_expectName c n c').mp hn
    have hkind : t.kind = .rightParen := by
      rw [← h c hc, (Cursor.advance_of_rest hrest).1]
    rw [nameOf?, hkind] at ht
    cases ht
  have hdefinition : Gives (definition t) [] (fun _ => False) rest := by
    refine (reads_atTableConstraint_none rfl h).look_gives ?_
    refine Gives.andThen (P := fun _ => False) ?_ fun _ hf => hf.elim
    exact Gives.andThen hname fun _ hf => hf.elim
  exact gives_loop_done (hdefinition.andThen fun _ hf => hf.elim)

end Reader

/-! ## Tables that were read -/

namespace Table

/-- The print of the table is read as the table, and printing that gives the same text. -/
def IsFixedPoint (t : Table) : Prop := ∃ t', parse t.sql = .ok t' ∧ t' = t ∧ t'.sql = t.sql

theorem isFixedPoint_iff_parse {t : Table} : t.IsFixedPoint ↔ parse t.sql = .ok t := by
  constructor
  · rintro ⟨t', hparse, rfl, -⟩
    exact hparse
  · exact fun h => ⟨t, h, rfl, rfl⟩

/-- What the print is read as has the columns and the key order that reading it gives. -/
theorem of_parse_sql {t t' : Table} {P : Table → Prop} (h : parse t.sql = .ok t')
    (hgives : Reader.Gives (Reader.loop (fun t => Reader.definition t >>= Reader.turnAtComma) { name := t.name })
      (",\n\t".intercalate t.definitionLines).toList P (['\n', ')'] ++ (Reader.optionText t ++ [';']))) :
    ∃ t₁, P t₁ ∧ t'.fields = t₁.fields ∧ t'.keyOrder = t₁.keyOrder := by
  unfold parse readStatement at h
  split at h
  · next t₀ c hread =>
    cases h
    have hstart : (Cursor.start t.sql).Before (t.sql.toList ++ []) := by
      rw [List.append_nil]
      exact Cursor.before_start t.sql
    exact (Reader.gives_sql hgives _ _ _ hstart hread).2
  · cases h

theorem fields_ne_nil_of_parse_sql {t t' : Table} (hd : Distinct t.fields) (h : parse t.sql = .ok t') : t.fields ≠ [] := by
  intro hnil
  have hkey : t.primaryKeyOrder.map Field.name = [] := by
    have hperm := primaryKeyOrder_perm hd
    rw [primaryKey, hnil] at hperm
    exact List.perm_nil.mp hperm
  have hlines : t.definitionLines = [] := by
    rw [definitionLines, hnil]
    rcases t.keyClause_cases with hclause | ⟨-, hne⟩
    · rw [hclause]
      rfl
    · exact absurd hkey hne
  have hgives := Reader.gives_no_definitions { name := t.name } (Reader.starts_closingLine (Reader.optionText t ++ [';']))
  obtain ⟨_, hfalse, -⟩ := of_parse_sql h (by rw [hlines]; exact hgives)
  exact hfalse

/-- Marking key columns and declaring their order changes neither names nor expressions. -/
theorem map_expressions_withKeyLine (t : Table) (gs : List Field) :
    (t.withKeyLine gs).fields.map (fun g => (g.defaultValue, g.check)) = gs.map fun g => (g.defaultValue, g.check) := by
  unfold withKeyLine
  split
  · rfl
  · rw [setPrimaryKeyOrder, Reader.foldl_markKey, List.map_map]
    refine List.map_congr_left fun g _ => ?_
    simp only [Function.comp_apply]
    split <;> rfl

theorem keepsExpressions_of_rereads {t : Table} {gs : List Field} (h : t.Rereads gs)
    (hsame : t.fields = (t.withKeyLine gs).fields) : ∀ f ∈ t.fields, f.KeepsExpressions := by
  have hexpressions := map_expressions_withKeyLine t gs
  rw [← hsame] at hexpressions
  clear hsame
  unfold Rereads at h
  generalize t.fields = fs at h hexpressions
  induction h with
  | nil => simp
  | cons hg _ ih =>
    obtain ⟨hfirst, hrest⟩ := List.cons.inj hexpressions
    obtain ⟨hdefault, hcheck⟩ := Prod.mk.inj hfirst
    exact List.forall_mem_cons.mpr ⟨hg.keeps hdefault.symm hcheck.symm, ih hrest⟩

theorem canonicalKeyOrder_of_rereads {t : Table} (hd : Distinct t.fields) {gs : List Field}
    (hsame : t.fields = (t.withKeyLine gs).fields) (horder : t.keyOrder = (t.withKeyLine gs).keyOrder) : t.CanonicalKeyOrder := by
  by_cases hclause : t.keyClause = []
  · rw [withKeyLine, if_pos hclause] at horder
    exact .inl horder
  · rw [withKeyLine, if_neg hclause] at hsame horder
    have hkeys : t.keyOrder = if t.primaryKey.map Field.name = t.primaryKeyOrder.map Field.name then []
        else t.primaryKeyOrder.map Field.name := by
      rw [horder, primaryKey, hsame]
      rfl
    by_cases hcolumns : t.primaryKey.map Field.name = t.primaryKeyOrder.map Field.name
    · rw [if_pos hcolumns] at hkeys
      exact .inl hkeys
    · rw [if_neg hcolumns] at hkeys
      refine .inr ?_
      rw [hkeys]
      exact ⟨primaryKeyOrder_perm hd, Ne.symm hcolumns⟩

/-- A table that was read is a fixed point of printing and reading if and only if it has columns, its key order is
canonical and its expressions are read back as they are. -/
theorem isFixedPoint_iff {s : String} {t : Table} (h : parse s = .ok t) (hvalid : t.validate = .ok ()) :
    t.IsFixedPoint ↔ t.fields ≠ [] ∧ t.CanonicalKeyOrder ∧ ∀ f ∈ t.fields, f.KeepsExpressions := by
  have hd := (valid_of_validate hvalid).distinct
  have hspelled := spelled_of_parse h
  rw [isFixedPoint_iff_parse]
  constructor
  · intro hparse
    have hfields := fields_ne_nil_of_parse_sql hd hparse
    obtain ⟨_, ⟨gs, hgs, rfl⟩, hsame, horder⟩ := of_parse_sql hparse (Reader.gives_columns hfields hd hspelled _)
    exact ⟨hfields, canonicalKeyOrder_of_rereads hd hsame horder, keepsExpressions_of_rereads hgs hsame⟩
  · rintro ⟨hfields, hkeyOrder, hexpressions⟩
    obtain ⟨hrowid, hwithoutRowid⟩ := rowid_of_parse h
    have hcanonical : t.Canonical := ⟨hfields, hvalid, hrowid, hwithoutRowid, hkeyOrder,
      fun f hf => (hspelled f hf).canonical (hexpressions f hf)⟩
    obtain ⟨c, hread, -⟩ := readStatement_sql hcanonical
    rw [parse, hread]

/-- A key that names its column twice, and is printed with the column once. -/
def doubledKey : Table where
  name := "t"
  fields := [{ name := "a", sqlType := "text" }, { name := "b", sqlType := "text", primaryKey := true }]
  keyOrder := ["b", "b"]

/-- A key in an order of its own, and a check. -/
def reversedKey : Table where
  name := "t"
  fields := [
    { name := "a", sqlType := "text", primaryKey := true, check := "a<>'x'" },
    { name := "b", sqlType := "text", primaryKey := true }]
  keyOrder := ["b", "a"]

theorem isFixedPoint_iff_doubledKey :
    parse "CREATE TABLE t (a text, b text, PRIMARY KEY (b, b))" = .ok doubledKey ∧ ¬doubledKey.IsFixedPoint ∧
      parse "CREATE TABLE t (a text CHECK (a <> 'x'), b text, PRIMARY KEY (b, a))" = .ok reversedKey ∧
      reversedKey.IsFixedPoint := by
  have hdoubled : parse "CREATE TABLE t (a text, b text, PRIMARY KEY (b, b))" = .ok doubledKey := by decide +kernel
  have hreversed : parse "CREATE TABLE t (a text CHECK (a <> 'x'), b text, PRIMARY KEY (b, a))" = .ok reversedKey := by
    decide +kernel
  refine ⟨hdoubled, fun hfixed => ?_, hreversed, ?_⟩
  · obtain ⟨-, hkeyOrder, -⟩ := (isFixedPoint_iff hdoubled (by decide)).mp hfixed
    exact absurd hkeyOrder (by unfold CanonicalKeyOrder; decide)
  · refine (isFixedPoint_iff hreversed (by decide)).mpr ⟨by decide, ?_, by decide +kernel⟩
    exact .inr ⟨by decide, by decide⟩

end Table

end SchemaEditor
