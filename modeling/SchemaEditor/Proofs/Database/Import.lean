import SchemaEditor.Proofs.Csv.Records
import SchemaEditor.Proofs.Database.Atomicity
import SchemaEditor.Proofs.Engine.Journal

/-!
# Imported records

What an import inserts is seen by an engine that keeps a list of the rows it has taken. A record becomes a row of its
own if all records before it are as wide as the first one; a record of another width shifts the fields of all that
follow it.
-/

namespace SchemaEditor

variable {σ : Type}

/-- An engine with the rows that it has taken, the first one first. -/
structure Recorded (σ : Type) where
  engine : σ
  inserted : List (String × List (Option String)) := []

namespace Recorded

def after {α : Type} (s : Recorded σ) (answer : α × σ) : α × Recorded σ := (answer.1, { s with engine := answer.2 })

variable [Engine σ]

def insertRow (table : String) (row : List (Option String)) (s : Recorded σ) : Except EngineError Unit × Recorded σ :=
  match Engine.insertRow table row s.engine with
  | (.ok (), engine) => (.ok (), { engine, inserted := s.inserted ++ [(table, row)] })
  | (.error e, engine) => (.error e, { s with engine })

theorem inserted_of_insertRow_ok {table : String} {row : List (Option String)} {s t : Recorded σ}
    (h : insertRow table row s = (.ok (), t)) : t.inserted = s.inserted ++ [(table, row)] := by
  unfold insertRow at h
  split at h
  · cases h; rfl
  · cases h

instance : Engine (Recorded σ) where
  execute sql s := s.after (Engine.execute sql s.engine)
  pragma name s := s.after (Engine.pragma name s.engine)
  schema s := Engine.schema s.engine
  viewColumns view s := Engine.viewColumns view s.engine
  queryColumns sql s := Engine.queryColumns sql s.engine
  queryRows sql s := s.after (Engine.queryRows sql s.engine)
  insertRow := insertRow
  violations s := Engine.violations s.engine

end Recorded

namespace Op

variable {α β : Type}

/-! ## Operations that insert nothing -/

def IsSilent (op : Op (Recorded σ) α) : Prop :=
  ∀ s, op.Ends s (fun _ t => t.engine.inserted = s.engine.inserted) fun _ t => t.engine.inserted = s.engine.inserted

/-- The rows that were taken stay as they are. -/
instance : Session.IsFrame fun (s t : Session (Recorded σ)) => t.engine.inserted = s.engine.inserted where
  alike h := congrArg Recorded.inserted h.engine
  trans h h' := h'.trans h

variable [Engine σ]

instance : Session.IsEngineFrame fun (s t : Session (Recorded σ)) => t.engine.inserted = s.engine.inserted where
  ledger _ _ := rfl
  catalog _ _ := rfl
  savepoint _ _ := rfl
  release _ _ := rfl
  rollback _ _ := rfl
  readLegacyAlter _ := rfl
  setLegacyAlter _ _ := rfl

theorem isSilent_execute (sql : String) : (execute sql : Op (Recorded σ) Nat).IsSilent := preserves_execute fun _ => rfl

theorem isSilent_beginOperation (savepoint : String) : (beginOperation savepoint : Op (Recorded σ) Unit).IsSilent :=
  preserves_beginOperation savepoint

theorem isSilent_finishOperation (savepoint : String) : (finishOperation savepoint : Op (Recorded σ) Unit).IsSilent := by
  have hresume : (resumeForeignKeys : Op (Recorded σ) Unit).IsSilent := preserves_resumeForeignKeys (fun _ => rfl) fun _ _ => rfl
  have hrefresh : (refreshCatalog Signal.never : Op (Recorded σ) Catalog).IsSilent :=
    preserves_refreshCatalog (fun _ _ => rfl) Signal.never
  exact Preserves.bind (Preserves.bind (preserves_releaseSavepoint savepoint) fun _ => hresume) fun _ =>
    Preserves.bind hrefresh fun _ => preserves_pure ()

/-! ## What an import inserts -/

/-- What a change inserts is what its body inserts, if it succeeds. -/
theorem ends_change_inserting {savepoint : String} {body : Op (Recorded σ) α} {s : Session (Recorded σ)}
    {rows : List (String × List (Option String))}
    (hbody : ∀ t : Session (Recorded σ), t.engine.inserted = s.engine.inserted →
      body.Ends t (fun _ u => u.engine.inserted = s.engine.inserted ++ rows) fun _ _ => True) :
    (change savepoint body).Ends s (fun _ t => t.engine.inserted = s.engine.inserted ++ rows) fun _ _ => True := by
  refine ends_bind ((isSilent_beginOperation savepoint s).mono (fun _ t ht => ?_) fun _ _ _ => trivial)
  refine ends_bind (Ends.observe ((hbody t ht).mono (fun a u hu => ?_) fun e u _ => ?_))
  · refine ends_bind ((isSilent_finishOperation savepoint u).mono (fun _ w hw => ?_) fun _ _ _ => trivial)
    exact hw.trans hu
  · refine ends_bind (Ends.observe ((preserves_revertSavepoint (R := fun _ _ => True) savepoint u).mono (fun _ _ _ => ?_) fun _ _ _ => ?_))
    · exact trivial
    · exact trivial

theorem ends_insertRows (table : String) (width : Nat) (signal : Signal) (rows : List (List String)) (s : Session (Recorded σ)) :
    (insertRows table width signal rows).Ends s
      (fun _ t => t.engine.inserted = s.engine.inserted ++ rows.map fun row => (table, paddedRow width row)) fun _ _ => True := by
  induction rows generalizing s with
  | nil => exact (List.append_nil _).symm
  | cons row rows ih =>
    refine ends_bind ((ends_checkSignal signal s).mono (fun _ t ht => ?_) fun _ _ _ => trivial)
    refine ends_bind (ends_request fun r u hr => ?_)
    cases r with
    | error e => trivial
    | ok =>
      refine ends_bind (ends_of_ok rfl ((ih { t with engine := u }).mono (fun _ w hw => ?_) fun _ _ => id))
      have hrow : u.inserted = t.engine.inserted ++ [(table, paddedRow width row)] := Recorded.inserted_of_insertRow_ok hr
      rw [hw, hrow, ht.engine, List.map_cons, ← List.append_cons]

omit [Engine σ] in
/-- What is decoded does not depend on the signal. -/
theorem decodeLines_of_decode {lines : List Csv.Line} {o : Csv.Options} {signal : Signal} {s t : Session (Recorded σ)}
    {d : Csv.Decoded} (h : decode lines o signal s = .ok d t) : Csv.decodeLines o {} lines = .ok d := by
  unfold decode at h
  simp only at h
  split at h
  · next hd => cases h; exact Csv.decodeFrom_uncancelled rfl hd
  · cases h
  · cases h

/-- The rows that an import inserts are those that its fields are cut into. -/
theorem ends_importCsv (table : String) (lines : List Csv.Line) (o : Csv.Options) (signal : Signal) (s : Session (Recorded σ)) :
    (importCsv table lines o signal).Ends s
      (fun n t => ∃ d, Csv.decodeLines o {} lines = .ok d ∧ n = (splitHeader o.header d.rows).2.length ∧
        t.engine.inserted = s.engine.inserted ++
          (splitHeader o.header d.rows).2.map fun row => (table, paddedRow d.columns row)) fun _ _ => True := by
  have hdecode := Ends.and (ends_decode lines o signal s) (ends_of_forall_ok fun d t hd => decodeLines_of_decode hd)
  refine ends_bind (hdecode.mono (fun d s₁ h₁ => ?_) fun _ _ _ => trivial)
  obtain ⟨halike, hd⟩ := h₁
  by_cases hempty : d.isEmpty = true
  · rw [if_pos hempty]
    have hrows : d.rows = [] := by
      rw [Csv.Decoded.rows, Csv.Decoded.fields, List.length_eq_zero_iff.mp (beq_iff_eq.mp hempty)]
      simp [Csv.chunks]
    refine ends_pure ⟨d, hd, ?_, ?_⟩
    · simp [splitHeader, hrows]
    · simp [splitHeader, hrows, halike.engine]
  rw [if_neg hempty]
  generalize hsplit : splitHeader o.header d.rows = split
  obtain ⟨header, rows⟩ := split
  refine ends_bind ((ends_tableForImport table header d.columns s₁).mono ?_ fun _ _ _ => trivial)
  rintro created s₂ ⟨rfl, -⟩
  have himport (body : Op (Recorded σ) Unit) (hbody : ∀ t : Session (Recorded σ), t.engine.inserted = s₂.engine.inserted →
      body.Ends t (fun _ u => u.engine.inserted = s₂.engine.inserted ++ rows.map fun row => (table, paddedRow d.columns row))
        fun _ _ => True) :
      (change "oxide_csv_import" body >>= fun _ => note (.importedCsv table rows.length) >>= fun _ => pure rows.length).Ends s₂
        (fun n t => ∃ d', Csv.decodeLines o {} lines = .ok d' ∧ n = (splitHeader o.header d'.rows).2.length ∧
          t.engine.inserted = s.engine.inserted ++
            (splitHeader o.header d'.rows).2.map fun row => (table, paddedRow d'.columns row)) fun _ _ => True := by
    refine ends_bind ((ends_change_inserting hbody).mono (fun _ t ht => ?_) fun _ _ => id)
    refine ends_bind (ends_of_ok rfl (ends_pure ⟨d, hd, ?_, ?_⟩))
    · rw [hsplit]
    · rw [hsplit]
      exact ht.trans (by rw [halike.engine])
  have hinsert (t : Session (Recorded σ)) (ht : t.engine.inserted = s₂.engine.inserted) :
      (insertRows table d.columns signal rows).Ends t
        (fun _ u => u.engine.inserted = s₂.engine.inserted ++ rows.map fun row => (table, paddedRow d.columns row))
        fun _ _ => True := by
    rw [← ht]
    exact ends_insertRows table d.columns signal rows t
  cases created with
  | none => exact himport _ hinsert
  | some made =>
    refine himport _ fun t ht => ends_bind ((isSilent_execute made.sql t).mono (fun _ u hu => ?_) fun _ _ _ => trivial)
    exact hinsert u (hu.trans ht)

/-- An import keeps the records apart exactly if no data record but the last has another width than the first record, and
the last is no wider: only then is each row one record, and their number that of the records. -/
theorem importCsv_keeps_records_iff {table : String} {lines : List Csv.Line} {o : Csv.Options} {signal : Signal}
    {s t : Session (Recorded σ)} {n : Nat} (h : importCsv table lines o signal s = .ok n t) :
    ∃ d rows, Csv.decodeLines o {} lines = .ok d ∧ t.engine.inserted = s.engine.inserted ++ rows ∧
      ((n = (d.dataRecords o).length ∧ rows = (d.dataRecords o).map fun r => (table, Csv.recordRow d.columns r)) ↔
        Csv.Aligned d.columns (d.dataRecords o)) := by
  obtain ⟨d, hd, hn, hinserted⟩ := (ends_importCsv table lines o signal s).ok h
  have hne := Csv.decodeLines_ne_nil hd
  rw [Csv.splitHeader_rows hne] at hn hinserted
  refine ⟨d, _, hd, hinserted, ?_⟩
  rw [← Csv.chunks_rows_iff fun r hr => hne r (Csv.mem_of_mem_dataRecords hr)]
  constructor
  · rintro ⟨-, hrows⟩
    simpa [Function.comp_def] using congrArg (List.map Prod.snd) hrows
  · intro hrows
    refine ⟨?_, ?_⟩
    · rw [hn]
      simpa using congrArg List.length hrows
    · simpa [Function.comp_def] using congrArg (List.map (Prod.mk table)) hrows

/-- Three records, of which the second lacks a field. -/
def ragged : List Csv.Line := Csv.linesOfText "1,2\n3\n4,5\n"

/-- The second row has taken a field of the third record. -/
theorem importCsv_ragged :
    ∃ t d, importCsv "t" ragged { header := false } .never { engine := ({ engine := {} } : Recorded Journal) } = .ok 3 t ∧
      t.engine.inserted = [("t", [some "1", some "2"]), ("t", [some "3", some "4"]), ("t", [some "5", none])] ∧
      Csv.decodeLines { header := false } {} ragged = .ok d ∧
      t.engine.inserted ≠ (d.dataRecords { header := false }).map fun r => ("t", Csv.recordRow d.columns r) := by
  have hdecoded : Csv.decodeLines { header := false } {} ragged = .ok ⟨[["1", "2"], ["3"], ["4", "5"]]⟩ := by decide
  have himport : (match importCsv "t" ragged { header := false } .never { engine := ({ engine := {} } : Recorded Journal) } with
      | .ok n t => some (n, t.engine.inserted)
      | .error .. => none) = some (3, [("t", [some "1", some "2"]), ("t", [some "3", some "4"]), ("t", [some "5", none])]) := by
    decide +kernel
  split at himport
  · next n t hrun =>
    obtain ⟨rfl, himported⟩ := Prod.mk.inj (Option.some.inj himport)
    obtain ⟨d, rows, hd, hinserted, hiff⟩ := importCsv_keeps_records_iff hrun
    cases hdecoded.symm.trans hd
    refine ⟨t, _, hrun, himported, hdecoded, fun hrows => ?_⟩
    have haligned := hiff.mp ⟨rfl, hinserted.symm.trans hrows⟩
    simp [Csv.Aligned, Csv.Decoded.columns, Csv.Decoded.dataRecords] at haligned
  · cases himport

end Op

end SchemaEditor
