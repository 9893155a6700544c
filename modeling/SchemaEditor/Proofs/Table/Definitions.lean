import SchemaEditor.Proofs.Table.Columns
import SchemaEditor.Proofs.Table.KeyOrder

/-!
# The parts of a table in print

The definitions of a table stand in a list with commas between them, and so do the names of its key. A list is
read item by item. The names of the key mark the columns they find, and their order is kept if it is not the
order of the columns.
-/

namespace SchemaEditor

theorem endsColumn_comma (cs : List Char) : EndsColumn (',' :: cs) :=
  ⟨⟨',', cs, rfl, rfl⟩, .inl (isToken_comma cs).starts⟩

namespace Reader

/-! ## Lists -/

/-- The reader takes the items one after the other, wherever they end. -/
inductive ReadsEach {α : Type} (r : α → Reader α) : α → List (List Char) → α → Prop where
  | nil (a : α) : ReadsEach r a [] a
  | cons {a a' b : α} {cs : List Char} {items : List (List Char)} (hitem : ∀ rest, EndsColumn rest → Reads (r a) cs a' rest)
      (hitems : ReadsEach r a' items b) : ReadsEach r a (cs :: items) b

theorem ReadsEach.append {α : Type} {r : α → Reader α} {a b d : α} {items more : List (List Char)}
    (h : ReadsEach r a items b) (hmore : ReadsEach r b more d) : ReadsEach r a (items ++ more) d := by
  induction h with
  | nil => exact hmore
  | cons hitem _ ih => exact .cons hitem (ih hmore)

theorem reads_turnAtComma_again {α : Type} (a : α) (rest : List Char) : Reads (turnAtComma a) [','] (.again a) rest := by
  intro c hc
  obtain ⟨hk, -, hadv⟩ := hc.token (isToken_comma rest)
  exact ⟨c.advance, if_pos hk, hadv, rfl⟩

theorem reads_turnAtComma_done {α : Type} (a : α) {rest : List Char} (h : Starts rest .rightParen) :
    Reads (turnAtComma a) [] (.done a) rest := by
  intro c hc
  have hk : ¬c.current.kind = .comma := by rw [h c hc]; decide
  exact ⟨c, if_neg hk, hc, rfl⟩

/-- A list with commas, and blanks behind them, up to a parenthesis. -/
theorem reads_list {α : Type} {r : α → Reader α} [∀ a, Progresses (r a >>= turnAtComma)] {g rest : List Char}
    (hg : ∀ x ∈ g, Text.isBlank x = true) (hrest : Delimited rest) (hparen : Starts rest .rightParen)
    {a b : α} {items : List (List Char)} (h : ReadsEach r a items b) (hne : items ≠ []) :
    Reads (loop (fun a => r a >>= turnAtComma) a) ((',' :: g).intercalate items) b rest := by
  induction h with
  | nil => exact absurd rfl hne
  | @cons a a' b cs items hitem hitems ih =>
    cases hitems with
    | nil =>
      rw [List.intercalate_singleton]
      exact reads_loop_done ((hitem rest ⟨hrest, .inr hparen⟩).andThen (reads_turnAtComma_done a' hparen))
    | @cons _ _ _ ds items =>
      rw [List.intercalate_cons_cons]
      have hturn : Reads (r a >>= turnAtComma) (cs ++ [',']) (.again a') (g ++ ((',' :: g).intercalate (ds :: items) ++ rest)) :=
        (hitem _ (endsColumn_comma _)).bind (reads_turnAtComma_again a' _)
      have hloop := reads_loop_again (hturn.blank_rest hg) (ih (by simp))
      simpa using hloop

/-! ## Key clauses -/

/-- Marks the columns with a name as key columns. -/
def markKey (t : Table) (name : String) : Table :=
  { t with fields := t.fields.map fun g => if g.isNamed name then g.asPrimaryKey else g }

theorem foldCase_markKey (t : Table) (name : String) :
    (markKey t name).fields.map (fun f => foldCase f.name) = t.fields.map fun f => foldCase f.name := by
  rw [markKey, List.map_map]
  refine List.map_congr_left fun g _ => ?_
  by_cases hg : g.isNamed name = true
  · simp [hg, Field.asPrimaryKey]
  · simp [hg]

theorem reads_keyColumn {t : Table} (hd : Distinct t.fields) {f : Field} (hf : f ∈ t.fields) (listed : List String)
    {rest : List Char} (h : EndsColumn rest) :
    Reads (keyColumn ⟨t, listed⟩) (quoteIdentifier f.name).toList ⟨markKey t f.name, listed ++ [f.name]⟩ rest := by
  obtain ⟨k, hk, hend⟩ := h.follows.starts
  have hcollate : (k.keyword? == some .collate) = false := by
    cases k <;> simp [TokenKind.keyword?]
    rintro rfl; cases hend
  have hhead : rest.head? ≠ some '\x60' := by
    obtain ⟨d, ds, rfl, hd⟩ := h.delimited
    simpa using (stops_of_isDelimiter hd).ne.2.2.1
  unfold keyColumn
  refine Reads.current (isToken_quoteIdentifier f.name hhead).starts fun start _ => ?_
  refine (reads_expectName f.name hhead).andThen ((reads_atKeyword hk .collate).andThen ?_)
  rw [hcollate]
  refine (reads_sortOrder hk (startsClause_of_endsPart hend)).andThen ?_
  rw [Table.field?_of_mem hd hf, Table.modifyField?_of_mem hd hf]
  exact Reads.pure _ rest

theorem exists_named_markKey {t : Table} {n : String} (h : ∃ f ∈ t.fields, f.name = n) (name : String) :
    ∃ f ∈ (markKey t name).fields, f.name = n := by
  obtain ⟨f, hf, rfl⟩ := h
  refine ⟨_, List.mem_map_of_mem hf, ?_⟩
  by_cases hn : f.isNamed name = true
  · rw [if_pos hn]; rfl
  · rw [if_neg hn]

theorem readsEach_keyColumn {names : List String} {t : Table} (hd : Distinct t.fields)
    (hnames : ∀ n ∈ names, ∃ f ∈ t.fields, f.name = n) (listed : List String) :
    ReadsEach keyColumn ⟨t, listed⟩ (names.map fun n => (quoteIdentifier n).toList)
      ⟨names.foldl markKey t, listed ++ names⟩ := by
  induction names generalizing t listed with
  | nil => simpa using ReadsEach.nil (r := keyColumn) ⟨t, listed⟩
  | cons n names ih =>
    obtain ⟨f, hf, rfl⟩ := hnames n List.mem_cons_self
    refine .cons (fun rest hrest => reads_keyColumn hd hf listed hrest) ?_
    have hd' : Distinct (markKey t f.name).fields := by
      rw [Distinct, foldCase_markKey]
      exact hd
    have hih := ih hd' (fun m hm => exists_named_markKey (hnames m (List.mem_cons_of_mem _ hm)) f.name) (listed ++ [f.name])
    rwa [List.append_assoc] at hih

/-- Marking is done once for all names. -/
theorem foldl_markKey (names : List String) (t : Table) :
    names.foldl markKey t =
      { t with fields := t.fields.map fun g => if names.any g.isNamed then g.asPrimaryKey else g } := by
  induction names generalizing t with
  | nil => simp
  | cons n names ih =>
    have hstep : ∀ g : Field, (if names.any (if g.isNamed n then g.asPrimaryKey else g).isNamed
        then (if g.isNamed n then g.asPrimaryKey else g).asPrimaryKey else if g.isNamed n then g.asPrimaryKey else g) =
        if (n :: names).any g.isNamed then g.asPrimaryKey else g := by
      intro g
      have hsame : g.asPrimaryKey.isNamed = g.isNamed := rfl
      by_cases hn : g.isNamed n = true <;> by_cases hnames : names.any g.isNamed = true <;>
        simp_all [Field.asPrimaryKey]
    rw [List.foldl_cons, ih, markKey, List.map_map]
    simp only [Function.comp_def, hstep]

theorem reads_keyColumns {names : List String} (hne : names ≠ []) {t : Table} (hd : Distinct t.fields)
    (hnames : ∀ n ∈ names, ∃ f ∈ t.fields, f.name = n) (rest : List Char) :
    Reads (keyColumns t) ((quoteIdentifierList names).toList ++ [')'])
      ((names.foldl markKey t).setPrimaryKeyOrder names) rest := by
  have htext : (quoteIdentifierList names).toList = [','].intercalate (names.map fun n => (quoteIdentifier n).toList) := by
    rw [quoteIdentifierList, String.toList_intercalate, List.map_map]
    rfl
  have hparen : Starts (')' :: rest) .rightParen := (isToken_rightParen rest).starts
  rw [htext]
  unfold keyColumns
  refine Reads.bind (reads_list (by simp) ⟨')', rest, rfl, rfl⟩ hparen (readsEach_keyColumn hd hnames []) (by simpa using hne)) ?_
  exact (reads_expectKind (isToken_rightParen rest)).andThen (Reads.pure _ rest)

theorem reads_atTableConstraint_key (cs : List Char) :
    Reads atTableConstraint [] true (Keyword.primary.word.toList ++ ' ' :: (Keyword.key.word.toList ++ '(' :: cs)) := by
  intro c hc
  obtain ⟨hk, -, hadv⟩ := hc.token (isToken_keyword .primary (delimited_space _))
  have hkey : IsToken _ _ ('(' :: cs) := isToken_keyword .key ⟨'(', cs, rfl, rfl⟩
  have hfollowing : c.following.keyword? = some .key := by
    rw [Cursor.following_eq, Token.keyword?, hkey.starts.space _ hadv]
    rfl
  have hcurrent : c.current.keyword? = some .primary := by
    rw [Token.keyword?, hk]
    rfl
  refine ⟨c, ?_, hc, rfl⟩
  unfold atTableConstraint
  rw [bind_eq_of_ok (show following c = .ok c.following c from rfl),
    bind_eq_of_ok (show current c = .ok c.current c from rfl), hcurrent, hfollowing]
  rfl

theorem reads_keyLine {names : List String} (hne : names ≠ []) {t : Table} (hd : Distinct t.fields)
    (hnames : ∀ n ∈ names, ∃ f ∈ t.fields, f.name = n) {rest : List Char} (h : EndsColumn rest) :
    Reads (definition t) ("PRIMARY KEY(" ++ quoteIdentifierList names ++ ")").toList
      ((names.foldl markKey t).setPrimaryKeyOrder names) rest := by
  have htext : ("PRIMARY KEY(" ++ quoteIdentifierList names ++ ")").toList =
      Keyword.primary.word.toList ++ ((' ' :: Keyword.key.word.toList) ++
        (['('] ++ ((quoteIdentifierList names).toList ++ [')']))) := by
    rw [String.toList_append, String.toList_append, List.append_assoc]
    rfl
  have hprimary := isToken_keyword .primary
    (delimited_space (Keyword.key.word.toList ++ '(' :: ((quoteIdentifierList names).toList ++ [')'] ++ rest)))
  obtain ⟨k, hk, hend⟩ := h.follows.starts
  rw [htext]
  refine .look (a := true) ?_ ?_
  · simpa using reads_atTableConstraint_key ((quoteIdentifierList names).toList ++ [')'] ++ rest)
  show Reads (tableConstraint t) _ _ _
  unfold tableConstraint
  refine .mark fun m => ?_
  have hstarts : Starts (Keyword.primary.word.toList ++ ((' ' :: Keyword.key.word.toList) ++
      (['('] ++ ((quoteIdentifierList names).toList ++ [')']))) ++ rest) (.keyword .primary) := by
    simpa using hprimary.starts
  refine .look (reads_atKeyword hstarts .constraint) (.current hstarts fun first hfirst => ?_)
  rw [Token.keyword?, hfirst]
  show Reads (tableConstraintTail m t (some .primary)) _ _ _
  unfold tableConstraintTail
  refine Reads.bind (reads_skip (by simpa using hprimary)) ?_
  refine Reads.bind (reads_keyword_space ⟨'(', _, rfl, rfl⟩) ?_
  refine Reads.bind (reads_expectKind (isToken_leftParen _)) ?_
  refine (reads_keyColumns hne hd hnames rest).andThen ?_
  exact (reads_conflictClause hk (startsClause_of_endsPart hend)).andThen (Reads.pure _ rest)

theorem reads_atTableConstraint_none {k : TokenKind} (hk : k.keyword? = none) {rest : List Char} (h : Starts rest k) :
    Reads atTableConstraint [] false rest := by
  refine Reads.following fun _ => Reads.current h fun t ht => ?_
  rw [Token.keyword?, ht, hk]
  exact Reads.pure false rest

theorem reads_columnLine (t : Table) {f : Field} (hf : f.Canonical) (inlineKey : Bool) {rest : List Char} (h : EndsColumn rest) :
    Reads (definition t) (f.render "\t" inlineKey).toList (t.addField (f.withInlineKey inlineKey)) rest := by
  have hname : Starts ((f.render "\t" inlineKey).toList ++ rest) (.identifier f.name) := by
    rw [toList_render, List.append_assoc]
    exact (isToken_quoteIdentifier f.name (by simp)).starts
  refine .look (reads_atTableConstraint_none rfl hname) ?_
  exact (reads_columnDefinition f hf inlineKey h).andThen (Reads.pure _ rest)

end Reader

end SchemaEditor
