import SchemaEditor.Proofs.Csv.Fields
import SchemaEditor.Proofs.Csv.Records
import SchemaEditor.Proofs.Database.Atomicity
import SchemaEditor.Proofs.Engine.Tables

/-!
# Export and import

A table of texts that is exported and imported under another name comes back with its columns and rows in order, each text
as the format reads it back. So it is the same table, unless a text has spaces and is written without quotes.
-/

namespace SchemaEditor

variable {σ δ : Type}

/-! ## Tables of texts -/

/-- A table that holds texts. -/
def textRows (columns : List String) (rows : List (List String)) : TableRows :=
  { columns, rows := rows.map fun row => row.map Value.text }

theorem textRows_inj {columns columns' : List String} {rows rows' : List (List String)} :
    textRows columns rows = textRows columns' rows' ↔ columns = columns' ∧ rows = rows' := by
  have htext : Function.Injective Value.text := fun _ _ h => Value.text.inj h
  rw [textRows, textRows, TableRows.mk.injEq, (List.map_injective_iff.mpr (List.map_injective_iff.mpr htext)).eq_iff]

/-- A table is as it was if each of its texts is. -/
theorem textRows_map_eq_self_iff {f : String → String} {columns : List String} {rows : List (List String)} :
    textRows (columns.map f) (rows.map fun row => row.map f) = textRows columns rows ↔
      ∀ field ∈ columns ++ rows.flatten, f field = field := by
  have hself {α : Type} (g : α → α) (l : List α) : l.map g = l ↔ ∀ a ∈ l, g a = a := by
    simpa using List.map_inj_left (l := l) (f := g) (g := id)
  rw [textRows_inj, hself, hself, List.forall_mem_append, List.forall_mem_flatten]
  simp only [hself]

/-- What is so of each table of an engine: it has columns, though not too many, names end before a NUL, and each row has a
value for each column. -/
structure TableRows.WellFormed (limit : Nat) (r : TableRows) : Prop where
  columns_ne_nil : r.columns ≠ []
  columns_le : r.columns.length ≤ limit
  names : ∀ name ∈ r.columns, '\x00' ∉ name.toList
  width : ∀ row ∈ r.rows, row.length = r.columns.length

instance (limit : Nat) (r : TableRows) : Decidable (r.WellFormed limit) :=
  decidable_of_iff (r.columns ≠ [] ∧ r.columns.length ≤ limit ∧ (∀ name ∈ r.columns, '\x00' ∉ name.toList) ∧
    ∀ row ∈ r.rows, row.length = r.columns.length) ⟨fun ⟨h₁, h₂, h₃, h₄⟩ => ⟨h₁, h₂, h₃, h₄⟩, fun ⟨h₁, h₂, h₃, h₄⟩ => ⟨h₁, h₂, h₃, h₄⟩⟩

theorem TableRows.WellFormed.length_eq {limit : Nat} {columns : List String} {rows : List (List String)}
    (h : (textRows columns rows).WellFormed limit) : ∀ row ∈ rows, row.length = columns.length := by
  intro row hrow
  have hlength := h.width (row.map Value.text) (List.mem_map_of_mem hrow)
  rwa [List.length_map] at hlength

/-- Names that are read back make no worse a table. -/
theorem TableRows.WellFormed.readBack {limit : Nat} {columns : List String} {rows : List (List String)}
    (h : (textRows columns rows).WellFormed limit) {o : Csv.Options} {q : Char} (hq : o.quote = some q)
    (hreturns : ∀ c ∈ columns, '\r' ∉ c.toList) : (textRows (columns.map (Csv.readBack o)) []).WellFormed limit := by
  refine ⟨by simpa [textRows] using h.columns_ne_nil, by simpa [textRows] using h.columns_le, ?_, by simp [textRows]⟩
  intro name hname hnul
  obtain ⟨c, hc, rfl⟩ := List.mem_map.mp hname
  exact h.names c hc (Csv.mem_of_mem_readBack hq (hreturns c hc) hnul)

/-- What can be seen of the tables in the data. -/
structure TableView (δ : Type) where
  contents : δ → String → Option TableRows
  /-- The names that a new table can have. -/
  free : δ → String → Prop
  /-- The tables that keep any text: all columns are of text, and nothing else is declared. -/
  keepsText : δ → String → Prop
  limit : Nat

/-- What an engine does about tables of texts: it gives all of a table, and carries out the statements of an import. -/
structure Tabular [Engine σ] (v : EngineView σ δ) (w : TableView δ) : Prop where
  savepoint : Op.OpensSavepoints σ
  wellFormed {d : δ} {name : String} {r : TableRows} (h : w.contents d name = some r) : r.WellFormed w.limit
  columns {e : σ} {name : String} {r : TableRows} (h : w.contents (v.data e) name = some r) :
    Engine.queryColumns ("SELECT * FROM " ++ quoteIdentifier name) e = .ok r.columns
  rows {e : σ} {name : String} {r : TableRows} (h : w.contents (v.data e) name = some r) :
    ∃ e', Engine.queryRows ("SELECT * FROM " ++ quoteIdentifier name) e = ({ rows := r.rows }, e') ∧ v.Same e e'
  create {e : σ} {name : String} {header : List String} {width : Nat} (hfree : w.free (v.data e) name)
    (hvalid : (importedTable name header width).validate = .ok ())
    (hcolumns : (textRows (importedTable name header width).fieldNames []).WellFormed w.limit) :
    ∃ n e', Engine.execute (importedTable name header width).sql e = (.ok n, e') ∧
      w.contents (v.data e') name = some (textRows (importedTable name header width).fieldNames []) ∧ w.keepsText (v.data e') name
  insert {e : σ} {name : String} {columns : List String} {rows : List (List String)} {row : List String}
    (h : w.contents (v.data e) name = some (textRows columns rows)) (htext : w.keepsText (v.data e) name)
    (hwidth : row.length = columns.length) :
    ∃ e', Engine.insertRow name (row.map some) e = (.ok (), e') ∧
      w.contents (v.data e') name = some (textRows columns (rows ++ [row])) ∧ w.keepsText (v.data e') name

/-! ## Imported tables -/

/-- The names of a header are those of the columns, if none has to be trimmed or made up. -/
theorem fieldNames_importedTable (name : String) {header : List String} (h : ∀ c ∈ header, Text.trimmed c = c ∧ c ≠ "") :
    (importedTable name header header.length).fieldNames = header := by
  have hnames (i : Nat) (hi : i < header.length) : importedName header i = header[i] := by
    obtain ⟨htrimmed, hne⟩ := h header[i] (List.getElem_mem hi)
    simp [importedName, hi, htrimmed, hne]
  rw [Table.fieldNames, importedTable, List.map_map]
  refine List.ext_getElem (by simp) fun i hi hi' => ?_
  simpa using hnames i hi'

theorem validate_importedTable {name : String} (hname : name ≠ "") {header : List String}
    (h : ∀ c ∈ header, Text.trimmed c = c ∧ c ≠ "") (hdistinct : (header.map foldCase).Nodup) :
    (importedTable name header header.length).validate = .ok () := by
  have hfields : (importedTable name header header.length).fields.map Field.name = header := fieldNames_importedTable name h
  refine Table.validate_eq_ok_iff.mpr ⟨hname, fun f hf => ?_, ?_, fun f hf hauto => ?_, nofun⟩
  · exact (h f.name (hfields ▸ List.mem_map_of_mem hf)).2
  · show ((importedTable name header header.length).fields.map fun f => foldCase f.name).Nodup
    rw [← hfields, List.map_map] at hdistinct
    exact hdistinct
  · obtain ⟨i, -, rfl⟩ := List.mem_map.mp hf
    cases hauto

namespace Op

variable [Engine σ] {v : EngineView σ δ} {w : TableView δ}

/-! ## Export -/

omit [Engine σ] in
/-- Without a signal all rows are written. -/
theorem ends_writeRows (o : Csv.Options) (rows : List (List String)) (s : Session σ) {E : SchemaError → Session σ → Prop} :
    (writeRows o Signal.never none (rows.map fun row => row.map Value.text)).Ends s
      (fun x t => s.Alike t ∧ x = { rows := rows.length, text := Csv.writeRecords o rows }) E := by
  induction rows generalizing s with
  | nil => exact ends_pure ⟨.refl s, rfl⟩
  | cons row rows ih =>
    have hpolled : s.Alike { s with progress := { s.progress with polls := s.progress.polls + 1 } } := ⟨rfl, rfl, rfl, rfl⟩
    refine ends_bind (ends_of_ok rfl ((ih _).bind ?_))
    rintro x t ⟨ht, rfl⟩
    refine ends_pure ⟨hpolled.trans ht, ?_⟩
    have hshown : (row.map Value.text).map Value.shown = row := by simp [Function.comp_def, Value.shown]
    simp [hshown, Csv.writeRecords]

/-- The names of the columns and the rows are written as records. -/
theorem ends_exportTable (tab : Tabular v w) {o : Csv.Options} (hheader : o.header = true) {s : Session σ} {name : String}
    {object : SchemaObject} (hobject : s.catalog.get? name = some object) {columns : List String} {rows : List (List String)}
    (hsource : w.contents (v.data s.engine) object.name = some (textRows columns rows)) {E : SchemaError → Session σ → Prop} :
    (exportTable name o Signal.never).Ends s
      (fun x t => s.Still v t ∧ x = { rows := rows.length, text := Csv.writeRecords o (columns :: rows) }) E := by
  obtain ⟨e, hrows, hsame⟩ := tab.rows hsource
  have hheaderText : exportHeader ("SELECT * FROM " ++ quoteIdentifier object.name) o s = .ok (Csv.writeRecord o columns) s := by
    unfold exportHeader
    rw [hheader, if_pos rfl]
    show (ofEngine (Engine.queryColumns ("SELECT * FROM " ++ quoteIdentifier object.name) s.engine) >>= fun names =>
      pure (Csv.writeRecord o names) : Op σ String) s = _
    rw [tab.columns hsource]
    rfl
  have hwrite : (writeTable name o Signal.never).Ends s
      (fun x t => s.Still v t ∧ x = { rows := rows.length, text := Csv.writeRecords o (columns :: rows) }) E := by
    refine ends_catalog ?_
    rw [hobject]
    refine ends_bind (ends_of_ok hheaderText (ends_bind (ends_request fun result u hu => ?_)))
    rw [hrows] at hu
    cases hu
    refine (ends_writeRows o rows _).bind ?_
    rintro x t ⟨ht, rfl⟩
    have hasked : s.Still v { s with engine := e } := ⟨hsame, rfl, rfl⟩
    have hstill : s.Still v t := hasked.trans ht.still
    refine ends_bind ((onlyReads_note _ t).mono (fun _ u hu => ?_) fun _ _ => False.elim)
    refine ends_pure ⟨hstill.trans hu.still, ?_⟩
    simp [Csv.writeRecords]
  refine hwrite.bind ?_
  rintro x t ⟨ht, rfl⟩
  exact ends_pure ⟨ht, rfl⟩

/-! ## Import -/

omit [Engine σ] in
/-- Without a signal all records are read. -/
theorem ends_decode_never {o : Csv.Options} {lines : List Csv.Line} {d : Csv.Decoded} (h : Csv.decodeLines o {} lines = .ok d)
    (s : Session σ) {E : SchemaError → Session σ → Prop} :
    (decode lines o Signal.never).Ends s (fun d' t => d' = d ∧ s.Alike t) E := by
  have hlimit : ({ cancelled := fun n => Signal.never { s.progress with polls := s.progress.polls + n } } : Csv.Limit) = {} := rfl
  have hdecode : decode lines o Signal.never s = .ok d { s with progress := { s.progress with polls := s.progress.polls + d.records } } := by
    unfold decode
    dsimp only
    rw [hlimit, h]
  exact ends_of_ok hdecode ⟨rfl, rfl, rfl, rfl, rfl⟩

/-- Rows are inserted one after the other. -/
theorem ends_insertRows_texts (tab : Tabular v w) {table : String} {columns : List String} {done rows : List (List String)}
    (hrows : ∀ row ∈ rows, row.length = columns.length) {s : Session σ}
    (hs : w.contents (v.data s.engine) table = some (textRows columns done)) (htext : w.keepsText (v.data s.engine) table) :
    (insertRows table columns.length Signal.never rows).Ends s
      (fun _ t => w.contents (v.data t.engine) table = some (textRows columns (done ++ rows))) fun _ _ => False := by
  induction rows generalizing done s with
  | nil =>
    rw [List.append_nil]
    exact ends_pure hs
  | cons row rows ih =>
    have hwidth : row.length = columns.length := hrows row List.mem_cons_self
    have hpadded : paddedRow columns.length row = row.map some := by
      rw [Csv.paddedRow_eq_recordRow (Nat.le_of_eq hwidth), Csv.recordRow, hwidth, Nat.sub_self]
      simp
    obtain ⟨e, he, hcontents, htext'⟩ := tab.insert hs htext hwidth
    refine ends_bind ((onlyReads_checkSignal_never s).mono (fun _ t ht => ?_) fun _ _ => id)
    refine ends_bind (ends_request fun r u hu => ?_)
    rw [ht.engine, hpadded, he] at hu
    cases hu
    refine ends_bind (ends_of_ok rfl ?_)
    have hrest := ih (fun q hq => hrows q (List.mem_cons_of_mem row hq)) (s := { t with engine := e }) hcontents htext'
    rw [List.append_assoc] at hrest
    exact hrest

omit [Engine σ] in
/-- A table that is missing is made. -/
theorem ends_tableForImport_missing {table : String} {header : List String} {width : Nat} {s : Session σ}
    (hmissing : s.catalog.table? table = none) (hvalid : (importedTable table header width).validate = .ok ()) :
    (tableForImport table header width).Ends s (fun created t => t = s ∧ created = some (importedTable table header width))
      fun _ _ => False := by
  refine ends_catalog ?_
  rw [hmissing]
  refine ends_bind (ends_ofExcept (fun _ _ => ends_pure ⟨rfl, rfl⟩) fun e he => ?_)
  rw [hvalid] at he
  cases he

/-- Records of one width become a table with their header. -/
theorem ends_importCsv_texts (laws : Transactional v) (tab : Tabular v w) {o : Csv.Options} (hheader : o.header = true)
    {lines : List Csv.Line} {columns : List String} {rows : List (List String)} {target : String}
    (hdecoded : Csv.decodeLines o {} lines = .ok ⟨columns :: rows⟩) (hwidth : ∀ row ∈ rows, row.length = columns.length)
    (hfits : (textRows columns []).WellFormed w.limit) (hnames : ∀ c ∈ columns, Text.trimmed c = c ∧ c ≠ "")
    (hdistinct : (columns.map foldCase).Nodup) (htarget : target ≠ "") {s : Session σ} (hs : s.Agrees v)
    (hinactive : s.ledger.isActive "oxide_csv_import" = false) (hmissing : s.catalog.table? target = none)
    (hfree : w.free (v.data s.engine) target) :
    (importCsv target lines o Signal.never).Ends s
      (fun n t => n = rows.length ∧ w.contents (v.data t.engine) target = some (textRows columns rows)) fun _ _ => False := by
  have hcolumns : 0 < columns.length := List.length_pos_iff.mpr hfits.columns_ne_nil
  have hrecords : ∀ r ∈ columns :: rows, r.length = columns.length := List.forall_mem_cons.mpr ⟨rfl, hwidth⟩
  have hsplit : splitHeader o.header (Csv.Decoded.rows ⟨columns :: rows⟩) = (columns, rows) := by
    rw [hheader, show Csv.Decoded.rows ⟨columns :: rows⟩ = columns :: rows from Csv.chunks_flatten hcolumns hrecords]
    rfl
  have hfieldNames := fieldNames_importedTable target hnames
  have hvalid := validate_importedTable htarget hnames hdistinct
  refine (ends_decode_never hdecoded s).bind ?_
  rintro d s₁ ⟨rfl, h₁⟩
  have hne : ¬(⟨columns :: rows⟩ : Csv.Decoded).isEmpty = true := by simp [Csv.Decoded.isEmpty, Csv.Decoded.records]
  rw [if_neg hne, hsplit]
  refine ends_bind ((ends_tableForImport_missing (h₁.catalog.symm ▸ hmissing) hvalid).mono ?_ fun _ _ => id)
  rintro created s₂ ⟨rfl, rfl⟩
  have hbody (t : Session σ) (hdata : v.data t.engine = v.data s₂.engine) (_ : t.catalog = s₂.catalog) :
      (do let _ ← execute (importedTable target columns columns.length).sql
          insertRows target columns.length Signal.never rows : Op σ Unit).Ends t
        (fun _ u => t.Steady v u ∧ w.contents (v.data u.engine) target = some (textRows columns rows)) fun _ _ => False := by
    have hwork := allowsWork_steady laws
    have hsteady := ((preserves_execute (hwork.createImported target columns columns.length)).bind fun _ =>
      preserves_insertRows hwork target columns.length Signal.never rows) t
    have hfree' : w.free (v.data t.engine) target := by
      rw [hdata, h₁.engine]
      exact hfree
    obtain ⟨n, e, he, hempty, htext⟩ := tab.create hfree' hvalid (by rwa [hfieldNames])
    rw [hfieldNames] at hempty
    refine (hsteady.and (ends_bind (ends_execute_ok he ?_))).mono (fun _ _ h => h) fun _ _ h => h.2
    exact ends_insertRows_texts tab hwidth (s := { t.logStatement (importedTable target columns columns.length).sql with engine := e }) hempty htext
  have hchange := ends_change_ok laws tab.savepoint (show "oxide_csv_import" ≠ restorePoint by decide) (h₁.still.open hs.open).agrees
    (show s₂.ledger.isActive "oxide_csv_import" = false by rw [h₁.ledger]; exact hinactive)
    (Q := fun d => w.contents d target = some (textRows columns rows)) hbody
  refine hchange.bind fun _ t ht => ?_
  refine ends_bind ((onlyReads_note _ t).mono (fun _ u hu => ?_) fun _ _ => id)
  refine ends_pure ⟨rfl, ?_⟩
  rw [hu.engine]
  exact ht.2

/-- What is exported of a table of texts is imported as a table with its columns and rows in order, if the names of the columns
still differ once they are read back. It is the same table exactly if each text with a space is written in quotes. -/
theorem importCsv_exportTable (laws : Transactional v) (tab : Tabular v w) {o : Csv.Options} (ho : o.Reversible)
    (hquote : o.quote ≠ none) (hheader : o.header = true) {s : Session σ} (hs : s.Agrees v)
    (hinactive : s.ledger.isActive "oxide_csv_import" = false) {name target : String} {object : SchemaObject}
    (hobject : s.catalog.get? name = some object) {columns : List String} {rows : List (List String)}
    (hsource : w.contents (v.data s.engine) object.name = some (textRows columns rows))
    (hreturns : ∀ field ∈ columns ++ rows.flatten, '\r' ∉ field.toList)
    (hnames : ∀ c ∈ columns, c ≠ "" ∧ Text.trimmed c = c) (htarget : target ≠ "") (hmissing : s.catalog.table? target = none)
    (hfree : w.free (v.data s.engine) target) :
    ∃ x t, exportTable name o Signal.never s = .ok x t ∧ x.rows = rows.length ∧
      ((columns.map fun c => foldCase (Csv.readBack o c)).Nodup →
        ∃ u, importCsv target (Csv.linesOfText x.text) o Signal.never t = .ok x.rows u ∧
          w.contents (v.data u.engine) target =
            some (textRows (columns.map (Csv.readBack o)) (rows.map fun row => row.map (Csv.readBack o)))) ∧
      (textRows (columns.map (Csv.readBack o)) (rows.map fun row => row.map (Csv.readBack o)) = textRows columns rows ↔
        ∀ field ∈ columns ++ rows.flatten, ' ' ∈ field.toList → field.toList.any (Csv.isSpecial o) = true) := by
  obtain ⟨q, hq⟩ := Option.ne_none_iff_exists'.mp hquote
  have hformed := tab.wellFormed hsource
  have hwidth := hformed.length_eq
  have hcolumns : columns ≠ [] := hformed.columns_ne_nil
  obtain ⟨x, t, hexport, hstill, rfl⟩ :=
    (ends_exportTable tab hheader hobject hsource (E := fun _ _ => False)).exists_ok
  refine ⟨_, t, hexport, rfl, fun hdistinct => ?_, ?_⟩
  · have hrecords : ∀ r ∈ columns :: rows, r ≠ [] := by
      intro r hr hnil
      have hlength : r.length = columns.length := (List.forall_mem_cons (p := fun r => r.length = columns.length)).mpr ⟨rfl, hwidth⟩ r hr
      rw [hnil, List.length_nil] at hlength
      exact hcolumns (List.length_eq_zero_iff.mp hlength.symm)
    have hread : Csv.readFrom o [] {} (Csv.writeRecords o (columns :: rows)).toList = _ :=
      Csv.readFrom_records ho hrecords fun hnone => absurd hnone hquote
    have hdecoded : Csv.decodeLines o {} (Csv.linesOfText (Csv.writeRecords o (columns :: rows))) =
        .ok ⟨(columns :: rows).map (·.map (Csv.readBack o))⟩ := hread
    have hwidth' : ∀ row ∈ rows.map (·.map (Csv.readBack o)), row.length = (columns.map (Csv.readBack o)).length := by
      simpa using hwidth
    have hfits := hformed.readBack hq fun c hc => hreturns c (List.mem_append_left _ hc)
    have hnames' : ∀ c ∈ columns.map (Csv.readBack o), Text.trimmed c = c ∧ c ≠ "" := by
      intro read hread
      obtain ⟨c, hc, rfl⟩ := List.mem_map.mp hread
      exact Csv.trimmed_readBack hq (hreturns c (List.mem_append_left _ hc)) (hnames c hc).1 (hnames c hc).2
    have hdistinct' : ((columns.map (Csv.readBack o)).map foldCase).Nodup := by
      rw [List.map_map]
      exact hdistinct
    have himport := ends_importCsv_texts laws tab hheader (s := t) hdecoded hwidth' hfits hnames' hdistinct' htarget
      (hstill.open hs.open).agrees (by rwa [hstill.ledger]) (by rwa [hstill.catalog]) (by rwa [hstill.engine.data])
    obtain ⟨n, u, hrun, hn, hcontents⟩ := himport.exists_ok
    rw [List.length_map] at hn
    exact ⟨u, by rw [hrun, hn], hcontents⟩
  · rw [textRows_map_eq_self_iff]
    exact forall₂_congr fun field hfield => Csv.readBack_eq_self_iff hq (hreturns field hfield)

end Op

/-! ## Tables of a repository -/

namespace Tables

/-- A table that holds texts takes a row of texts. -/
theorem insertRow_texts {d : Tables} {name : String} {columns : List String} {rows : List (List String)} {row : List String}
    (h : d.contents name = some (textRows columns rows)) (hwidth : row.length = columns.length) :
    ∃ d', insertRow name (row.map some) d = (.ok (), d') ∧ d'.contents name = some (textRows columns (rows ++ [row])) := by
  obtain ⟨t, ht, hcontents⟩ := Option.map_eq_some_iff.mp h
  obtain ⟨rfl, hrows⟩ := TableRows.mk.inj hcontents
  have hfields : (row.map some).length = t.definition.fields.length := by
    rw [List.length_map, hwidth, Table.fieldNames, List.length_map]
  refine ⟨_, by rw [insertRow, ht]; exact if_pos hfields, ?_⟩
  have hfound := find?_modify (f := fun t => { t with rows := t.rows ++ [(row.map some).map valueOf] }) (fun _ => rfl) ht
  rw [contents, hfound, Option.map_some, hrows]
  simp [textRows, Function.comp_def, valueOf]

/-- A new table is found, and has no rows. -/
theorem contents_create {t : Table} {d : Tables} (sql : String) (hfree : d.find? t.name = none) :
    ({ d with stored := d.stored ++ [{ definition := t, sql := storedSql sql }] } : Tables).contents t.name =
      some (textRows t.fieldNames []) := by
  have hnone : d.stored.find? (fun s => sameName s.definition.name t.name) = none := hfree
  rw [contents, find?, List.find?_append, hnone]
  simp [textRows]

/-- The tables that are as tables of an engine are. -/
def tableView (limit : Nat) : TableView Tables where
  contents d name := (d.contents name).filter fun r => r.WellFormed limit
  free d name := d.find? name = none
  keepsText _ _ := True
  limit := limit

theorem canonical_importedTable {name : String} {header : List String} {width : Nat}
    (hvalid : (importedTable name header width).validate = .ok ()) (hfields : (importedTable name header width).fields ≠ []) :
    (importedTable name header width).Canonical := by
  have htype : Reader.readsBack Reader.typeName "TEXT" "" = true := by decide +kernel
  refine Table.canonical_of_fields hfields hvalid fun f hf => ?_
  obtain ⟨i, -, rfl⟩ := List.mem_map.mp hf
  exact ⟨.inr htype, .inl rfl, .inl rfl⟩

theorem queryColumns_eq (sql : String) (e : Shell Tables) : Engine.queryColumns sql e = (query sql e.data).map TableRows.columns := rfl

theorem queryRows_eq {sql : String} {e : Shell Tables} {r : TableRows} (h : query sql e.data = .ok r) :
    Engine.queryRows sql e = ({ rows := r.rows }, e) := by
  have hrows : Repository.rows sql e.data = { rows := r.rows } := by
    simp only [Repository.rows, h]
  exact congrArg (·, e) hrows

theorem tabular (limit : Nat) : Tabular Shell.view (tableView limit) where
  savepoint name e := ⟨0, _, Shell.execute_savepoint name e⟩
  wellFormed h := of_decide_eq_true (Option.filter_eq_some_iff.mp h).2
  columns {e name r} h := by
    have hcontents : e.data.contents name = some r := (Option.filter_eq_some_iff.mp h).1
    rw [queryColumns_eq, query_eq, hcontents]
    rfl
  rows {e name r} h := by
    have hcontents : e.data.contents name = some r := (Option.filter_eq_some_iff.mp h).1
    exact ⟨e, queryRows_eq (by rw [query_eq, hcontents]), .refl e⟩
  create {e name header width} hfree hvalid hcolumns := by
    have hfields : (importedTable name header width).fields ≠ [] := fun hnil => hcolumns.columns_ne_nil (by
      rw [textRows, Table.fieldNames, hnil]
      rfl)
    have hsql := statement?_sql (canonical_importedTable hvalid hfields)
    have happly : Engine.execute (importedTable name header width).sql e = Shell.apply (importedTable name header width).sql e :=
      Shell.execute_eq_apply (Journal.head?_sql _) (by decide) e
    have hperform : apply (importedTable name header width).sql e.data =
        (.ok 0, { e.data with stored := e.data.stored ++
          [{ definition := importedTable name header width, sql := storedSql (importedTable name header width).sql }] }) := by
      have hnone : ¬(e.data.find? (importedTable name header width).name).isSome = true := by
        simp [importedTable, show e.data.find? name = none from hfree]
      rw [apply, hsql]
      dsimp only
      rw [perform, if_neg hnone]
    refine ⟨0, _, by rw [happly, Shell.apply, show Repository.apply _ e.data = _ from hperform], ?_, trivial⟩
    exact Option.filter_eq_some_iff.mpr ⟨contents_create _ hfree, decide_eq_true hcolumns⟩
  insert {e name columns rows row} h _ hwidth := by
    obtain ⟨hcontents, hformed⟩ := Option.filter_eq_some_iff.mp h
    have hformed : (textRows columns rows).WellFormed limit := of_decide_eq_true hformed
    obtain ⟨d, hd, hafter⟩ := insertRow_texts hcontents hwidth
    refine ⟨{ e with data := d }, ?_, Option.filter_eq_some_iff.mpr ⟨hafter, decide_eq_true ?_⟩, trivial⟩
    · show ((Repository.insertRow name (row.map some) e.data).1, { e with data := (Repository.insertRow name (row.map some) e.data).2 }) = _
      rw [show Repository.insertRow name (row.map some) e.data = _ from hd]
    · refine ⟨hformed.columns_ne_nil, hformed.columns_le, hformed.names, ?_⟩
      have hrows : ∀ row ∈ rows, row.length = columns.length := by simpa [textRows] using hformed.width
      simpa [textRows, or_imp, forall_and] using ⟨hrows, hwidth⟩

end Tables

namespace Op

/-- A session with a table of texts that need quotes. -/
def noted : Session (Shell Tables) where
  engine := { data := { stored := [{ definition := { name := "notes", fields := [{ name := "id" }, { name := "Note" }] }
                                     sql := "CREATE TABLE notes (id TEXT, Note TEXT)"
                                     rows := [[.text "1", .text "x, \"y\""], [.text "2", .text ""], [.text "3", .text "two\nlines"]] }] } }
  catalog := { objects := [{ kind := .table, name := "notes", tableName := "notes", sql := "CREATE TABLE notes (id TEXT, Note TEXT)",
                             fields := [{ name := "id" }, { name := "Note" }] }] }

def noteRows : List (List String) := [["1", "x, \"y\""], ["2", ""], ["3", "two\nlines"]]

/-- Texts that are written in quotes come back as they were. -/
theorem importCsv_exportTable_noted : ∃ x t u, exportTable "notes" {} Signal.never noted = .ok x t ∧ x.rows = 3 ∧
    importCsv "copy" (Csv.linesOfText x.text) {} Signal.never t = .ok 3 u ∧
      (Tables.tableView 2000).contents u.engine.data "copy" = some (textRows ["id", "Note"] noteRows) := by
  have ho : Csv.Options.Reversible {} :=
    ⟨.inl rfl, ⟨',', rfl, by decide, by decide⟩, fun q hq => by obtain rfl := Option.some.inj hq; decide⟩
  have hagrees : noted.Agrees (Shell.view (δ := Tables)) := rfl
  have hsource : (Tables.tableView 2000).contents noted.engine.data "notes" = some (textRows ["id", "Note"] noteRows) := by decide
  have hobject : ∃ object, noted.catalog.get? "notes" = some object ∧ object.name = "notes" := ⟨_, rfl, rfl⟩
  obtain ⟨object, hobject, hname⟩ := hobject
  rw [← hname] at hsource
  have hreturns : ∀ field ∈ ["id", "Note"] ++ noteRows.flatten, '\r' ∉ field.toList := by decide
  have hnames : ∀ c ∈ ["id", "Note"], c ≠ "" ∧ Text.trimmed c = c := by decide
  have hfree : (Tables.tableView 2000).free (Shell.view.data noted.engine) "copy" := rfl
  have hdistinct : (["id", "Note"].map fun c => foldCase (Csv.readBack {} c)).Nodup := by decide
  obtain ⟨x, t, hexport, hrows, himport, hsame⟩ := importCsv_exportTable Shell.transactional (Tables.tabular 2000) ho (by decide) rfl
    hagrees rfl hobject hsource hreturns hnames (by decide) rfl hfree
  obtain ⟨u, hu, hcontents⟩ := himport hdistinct
  have hquoted : ∀ field ∈ ["id", "Note"] ++ noteRows.flatten, ' ' ∈ field.toList → field.toList.any (Csv.isSpecial {}) = true := by
    decide
  rw [hsame.mpr hquoted] at hcontents
  rw [hrows] at hu
  exact ⟨x, t, u, hexport, hrows, hu, hcontents⟩

/-- A session with a table whose one text has a space. -/
def spaced : Session (Shell Tables) where
  engine := { data := { stored := [{ definition := { name := "t", fields := [{ name := "a", sqlType := "TEXT" }] }
                                     sql := "CREATE TABLE t (a TEXT)"
                                     rows := [[.text "a b"]] }] } }
  catalog := { objects := [{ kind := .table, name := "t", tableName := "t", sql := "CREATE TABLE t (a TEXT)",
                             fields := [{ name := "a", sqlType := "TEXT" }] }] }

/-- A text without quotes loses its space. -/
theorem not_importCsv_exportTable_spaced :
    spaced.engine.data.contents "t" = some (textRows ["a"] [["a b"]]) ∧ spaced.catalog.get? "u" = none ∧
      ∃ x t u, exportTable "t" {} Signal.never spaced = .ok x t ∧
        importCsv "u" (Csv.linesOfText x.text) {} Signal.never t = .ok 1 u ∧
          u.engine.data.contents "u" = some (textRows ["a"] [["ab"]]) ∧
          u.engine.data.contents "u" ≠ spaced.engine.data.contents "t" := by
  have hexport : (match exportTable "t" {} Signal.never spaced with
      | .ok x t => match importCsv "u" (Csv.linesOfText x.text) {} Signal.never t with
        | .ok n u => some (n, u.engine.data.contents "u")
        | .error .. => none
      | .error .. => none) = some (1, some (textRows ["a"] [["ab"]])) := by decide +kernel
  split at hexport
  · next x t hx =>
    split at hexport
    · next n u hu =>
      obtain ⟨rfl, hcontents⟩ := Prod.mk.inj (Option.some.inj hexport)
      exact ⟨rfl, rfl, x, t, u, hx, hu, hcontents, by rw [hcontents]; decide⟩
    · cases hexport
  · cases hexport

end Op

end SchemaEditor
