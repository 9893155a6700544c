import SchemaEditor.Proofs.Database.ForeignKeys
import SchemaEditor.Proofs.Database.Listing

/-!
# The catalog is never stale

Some operations end by reading the catalog, others bring back the data that the snapshot was taken of, and the rest change
no data. So the snapshot is fresh after every call, whether it succeeds, fails or is cancelled. This rests on a ledger that
agrees with the engine, for a savepoint that is reverted in its place brings back other data.
-/

namespace SchemaEditor

variable {σ δ φ : Type} [Engine σ]

/-- A text that neither opens nor settles savepoints, whether it fails or not. -/
def EngineView.KeepsSaved (v : EngineView σ δ) (sql : String) : Prop :=
  ∀ e : σ, v.saved (Engine.execute sql e).2 = v.saved e

namespace Session

/-- Savepoints and catalog are as they were. -/
structure Holds (v : EngineView σ δ) (s t : Session σ) : Prop extends s.SameStack v t where
  catalog : t.catalog = s.catalog

instance (v : EngineView σ δ) : IsFrame (Holds v) where
  alike h := ⟨IsFrame.alike h, h.catalog⟩
  trans h h' := ⟨IsFrame.trans h.toSameStack h'.toSameStack, h'.catalog.trans h.catalog⟩

/-- The snapshot is the same. -/
def SameCatalog (s t : Session σ) : Prop := t.catalog = s.catalog

instance : IsFrame (SameCatalog : Session σ → Session σ → Prop) := ⟨Alike.catalog, fun h h' => h'.trans h⟩

/-- The snapshot is fresh, and the ledger lists no savepoint twice. -/
structure Current (s : Session σ) : Prop where
  fresh : s.IsFresh
  nodup : s.ledger.active.Nodup

variable {v : EngineView σ δ} {s t : Session σ}

omit [Engine σ] in
theorem Steady.holds (h : s.Steady v t) : s.Holds v t := ⟨⟨h.ledger, h.engine.saved⟩, h.catalog⟩

theorem Current.still (reading : v.ReadsData) (h : s.Current) (ht : s.Still v t) : t.Current :=
  ⟨h.fresh.still reading ht, ht.ledger ▸ h.nodup⟩

theorem Current.alike (h : s.Current) (ht : s.Alike t) : t.Current := ⟨h.fresh.alike ht, ht.ledger ▸ h.nodup⟩

/-- Where the data are back that the snapshot was taken of. -/
theorem Current.reaches (reading : v.ReadsData) (h : s.Current) {outer : List (String × δ)} (hnodup : (outer.map Prod.fst).Nodup)
    (ht : s.Reaches v outer (v.data s.engine) t) : t.Current :=
  ⟨h.fresh.of_data reading ht.data ht.catalog, ht.active ▸ hnodup⟩

end Session

namespace Op

variable {v : EngineView σ δ} {s : Session σ}

/-! ## Changes -/

theorem allows_holds {sql : String} (h : v.KeepsSaved sql) : Session.Allows (Session.Holds v) sql :=
  fun s => ⟨⟨rfl, h s.engine⟩, rfl⟩

theorem allowsWork_holds (laws : Transactional v) : Session.AllowsWork (Session.Holds v) where
  copy p := allows_holds fun e => (laws.copy p e).saved
  drop table := allows_holds fun e => (laws.drop table e).saved
  rename source target := allows_holds fun e => (laws.rename source target e).saved
  createImported name header width := allows_holds fun e => (laws.createImported name header width e).saved
  insertRow table row s := ⟨⟨rfl, (laws.insertRow table row s.engine).saved⟩, rfl⟩

omit [Engine σ] in
theorem ends_somehow {α : Type} (op : Op σ α) (s : Session σ) : op.Ends s (fun _ _ => True) fun _ _ => True :=
  ends_of_forall_ok fun _ _ _ => trivial

/-- An operation that ends by reading the catalog leaves it fresh if it succeeds. -/
theorem ends_refreshing {α : Type} {rest : Catalog → Op σ α} (hrest : ∀ catalog, (rest catalog).OnlyReads) (s : Session σ) :
    (refreshCatalog >>= rest).Ends s (fun _ t => t.IsFresh) fun _ _ => True := by
  refine ends_bind ((ends_refreshCatalog_fresh Signal.never s).mono (fun catalog t ht => ?_) fun _ _ _ => trivial)
  exact (hrest catalog t).mono (fun _ _ => ht.1.alike) fun _ _ => False.elim

theorem ends_change_current (laws : Transactional v) (reading : v.ReadsData) {α : Type} {savepoint : String}
    (hne : savepoint ≠ restorePoint) (hs : s.Agrees v) (h : s.Current) {body : Op σ α} (hbody : body.Preserves (Session.Holds v)) :
    (change savepoint body).Ends s (fun _ t => t.Current) fun _ t => t.Current := by
  have hnodup : (v.savepoints s.engine).Nodup := hs ▸ h.nodup
  refine ends_bind ((ends_beginOperation laws hne hs).mono (fun _ t ht => ?_) fun e t ht => h.reaches reading hnodup ht)
  obtain ⟨outer, hentered, ht⟩ := ht
  have houter := hentered.nodup hnodup
  refine ends_bind (Ends.observe ((hbody t).mono (fun a u hu => ?_) fun e u hu => ?_))
  · have hopen := hu.open ht.toOpen
    have hclosed := ends_finishOperation laws (R := fun _ _ => True) hopen hentered.fresh hentered.restorePoint (E := fun _ _ => False)
    have hfresh : (finishOperation savepoint).Ends u (fun _ t => t.IsFresh) fun _ _ => True :=
      (ends_somehow _ u).bind fun _ t _ => ends_refreshing (fun _ => onlyReads_pure ()) t
    refine ends_bind ((hclosed.and hfresh).mono (fun _ w hw => ends_pure ⟨hw.2, ?_⟩) fun _ _ hw => hw.1.elim)
    rw [hw.1.2.1.active]
    exact houter
  · have hdata : v.data t.engine = v.data s.engine := ht.data
    refine (ends_abort laws (hu.open ht.toOpen) hentered.fresh e).mono (fun _ _ => False.elim) fun _ w hw => ?_
    exact ⟨h.fresh.of_data reading hw.data (hw.catalog.trans (hu.catalog.trans ht.catalog)), hw.active ▸ houter⟩

/-! ## Savepoints -/

theorem ends_openSavepoint_current (laws : Transactional v) (reading : v.ReadsData) (hs : s.Agrees v) (h : s.Current) (name : String) :
    (openSavepoint name).Ends s (fun _ t => t.Current) fun _ t => t.Current := by
  cases hactive : s.ledger.isActive name with
  | true =>
    refine (ends_openSavepoint_active hactive).mono ?_ fun _ _ => id
    rintro - t rfl
    exact h
  | false =>
    refine ((ends_openSavepoint laws hs.open hactive).and (ends_openSavepoint_grows laws hs name)).mono (fun _ t ht => ?_) fun _ t ht =>
      h.still reading ht.1
    exact ⟨h.fresh.of_data reading ht.1.data ht.1.catalog, ht.2.nodup h.nodup⟩

/-- Releasing savepoints does not touch the snapshot. -/
theorem preserves_releaseSavepoint_catalog (name : String) :
    (releaseSavepoint name : Op σ Unit).Preserves Session.SameCatalog := by
  have hrelease : Session.Allows Session.SameCatalog (releaseSql name) := fun s : Session σ => show s.catalog = s.catalog from rfl
  exact (preserves_position name).bind fun _ => (preserves_execute hrelease).bind fun _ =>
    preserves_modifyLedger fun s => show s.catalog = s.catalog from rfl

theorem ends_commitAll_current (laws : Transactional v) (reading : v.ReadsData) (hs : s.Agrees v) (h : s.Current) :
    (commitAll).Ends s (fun _ t => t.Current) fun _ _ => False := by
  have hrelease := (ends_releaseAll laws hs h.nodup (E := fun _ _ => False)).and
    (preserves_settleAll preserves_releaseSavepoint_catalog s)
  refine ends_bind (hrelease.mono (fun _ t ht => ?_) fun _ _ ht => ht.1)
  obtain ⟨⟨hclosed, hdata⟩, hcatalog⟩ := ht
  have hcurrent : t.Current := ⟨h.fresh.of_data reading hdata hcatalog, by simp [hclosed.active]⟩
  refine (ends_resumeForeignKeys laws t).bind fun _ u hu => ?_
  exact (onlyReads_note _ u).mono (fun _ _ hw => (hcurrent.still reading hu).alike hw) fun _ _ => id

end Op

/-! ## Calls -/

variable {v : EngineView σ δ} {s : Session σ}

theorem SavepointCall.ends_run_fresh (laws : Transactional v) (reading : v.ReadsData) (hs : s.Agrees v) (h : s.Current)
    (c : SavepointCall) (hc : ¬c.Shadowed s.ledger.active) : (c.run).Ends s (fun _ t => t.IsFresh) fun _ t => t.IsFresh := by
  cases c with
  | begin name =>
    exact (Op.ends_openSavepoint_current laws reading hs h name).mono (fun _ _ ht => ht.fresh) fun _ _ ht => ht.fresh
  | commit name =>
    by_cases hmem : name ∈ s.ledger.active
    · obtain ⟨outer, d, inner, ho, hnot, hinner⟩ := split_of_mem hs hmem hc
      refine (Op.ends_releaseSavepoint laws ho hnot hinner).bind fun _ t ht => ?_
      have hfresh : t.IsFresh := h.fresh.of_data reading ht.data ht.catalog
      exact (Op.ends_resumeForeignKeys laws t).mono (fun _ _ hu => hfresh.still reading hu) fun _ _ => id
    · exact Op.ends_bind (Op.ends_bind (Op.ends_of_error (Op.position_missing hmem) h.fresh))
  | rollback name =>
    by_cases hmem : name ∈ s.ledger.active
    · obtain ⟨outer, d, inner, ho, hnot, hinner⟩ := split_of_mem hs hmem hc
      have hends := Op.ends_rollback laws ho hnot hinner (E := fun _ _ => False)
      have hfresh : (Op.rollback name).Ends s (fun _ t => t.IsFresh) fun _ _ => True :=
        (Op.ends_somehow _ s).bind fun _ t _ => (Op.ends_somehow _ t).bind fun _ u _ =>
          Op.ends_refreshing (fun _ => Op.onlyReads_pure ()) u
      exact (hends.and hfresh).mono (fun _ _ ht => ht.2) fun _ _ ht => ht.1.elim
    · exact Op.ends_bind (Op.ends_bind (Op.ends_of_error (Op.position_missing hmem) h.fresh))
  | commitAll => exact (Op.ends_commitAll_current laws reading hs h).mono (fun _ _ ht => ht.fresh) fun _ _ => False.elim
  | rollbackAll =>
    have hends := Op.ends_rollbackAll laws hs h.nodup (E := fun _ _ => False)
    have hfresh : (Op.rollbackAll : Op σ Unit).Ends s (fun _ t => t.IsFresh) fun _ _ => True :=
      (Op.ends_somehow _ s).bind fun _ t _ => (Op.ends_somehow _ t).bind fun _ u _ =>
        Op.ends_refreshing (fun _ => Op.onlyReads_note _) u
    exact (hends.and hfresh).mono (fun _ _ ht => ht.2) fun _ _ ht => ht.1.elim

theorem SavepointCall.ends_run_current (laws : Transactional v) (reading : v.ReadsData) (hs : s.Agrees v) (h : s.Current)
    (c : SavepointCall) (hc : ¬c.Shadowed s.ledger.active) : (c.run).Ends s (fun _ t => t.Current) fun _ t => t.Current := by
  have hboth := (c.ends_run_fresh laws reading hs h hc).and (c.ends_run_shifts laws hs h.nodup hc)
  exact hboth.mono (fun _ _ ht => ⟨ht.1, ht.2.nodup h.nodup⟩) fun _ _ ht => ⟨ht.1, ht.2.nodup h.nodup⟩

theorem SchemaChange.ends_run_current (laws : Transactional v) (reading : v.ReadsData) (hs : s.Agrees v) (h : s.Current)
    (change : SchemaChange) (htexts : ∀ sql ∈ change.texts s.catalog, v.KeepsSaved sql) :
    (change.run).Ends s (fun _ t => t.Current) fun _ t => t.Current := by
  refine ends_run change (fun _ _ hu => hu.alike) (fun _ => h.alike) (fun _ => h.alike) (fun body hbody t ht => ?_)
    fun c signal hc => ?_
  · have hholds := hbody.preserves (Op.allowsWork_holds laws) fun sql hsql => Op.allows_holds (htexts sql hsql)
    exact Op.ends_change_current laws reading change.savepoint_ne_restorePoint (ht.still.open hs.open).agrees (h.alike ht) hholds
  refine Op.ends_transformColumn_of (fun _ _ _ hu => hu.alike) (fun _ _ => h.alike) fun plan hplan t ht => ?_
  rw [texts_of_columnChange? hc, columnTexts, hplan] at htexts
  obtain ⟨hrebuilt, hdependents⟩ := List.forall_mem_cons.mp htexts
  have hrename : (Op.renameRebuilt plan.temporary plan.table : Op σ Unit).Preserves (Session.Holds v) := fun s =>
    (Op.isSteady_renameRebuilt laws plan.temporary plan.table s).mono (fun _ _ => Session.Steady.holds) fun _ _ => Session.Steady.holds
  have hbody := Op.preserves_rebuild (Op.allowsWork_holds laws) hrename (Op.allows_holds hrebuilt)
    (fun o ho => Op.allows_holds (hdependents o.sql (List.mem_map_of_mem ho))) signal
  refine (Op.ends_suspendForeignKeys laws t).mono (fun _ u hu => ?_) fun _ u hu => (h.alike ht).still reading hu
  have hchange := Op.ends_change_current laws reading (show "oxide_transform" ≠ restorePoint by decide)
    ((ht.still.trans hu).open hs.open).agrees ((h.alike ht).still reading hu) hbody
  have hresume {w : Session σ} (hw : w.Current) {E : SchemaError → Session σ → Prop} :
      (Op.resumeForeignKeys).Ends w (fun _ t => t.Current) E :=
    (Op.ends_resumeForeignKeys laws w).mono (fun _ _ hx => hw.still reading hx) fun _ _ => id
  exact hchange.mono (fun _ _ hw => hresume hw) fun _ _ hw => hresume hw

namespace DatabaseCall

/-- The SQL of a call opens and settles no savepoints, and a setting that is set touches neither them nor the data. Of a
statement that is executed by itself nothing is said. -/
def IsTracked (v : EngineView σ δ) (catalog : Catalog) : DatabaseCall → Prop
  | statement .. => False
  | setPragma name value => Op.isPragmaName name = true → Op.isPragmaValue value = true → ∀ e : σ,
    v.saved (Engine.execute ("PRAGMA " ++ name ++ " = " ++ value) e).2 = v.saved e ∧
      v.data (Engine.execute ("PRAGMA " ++ name ++ " = " ++ value) e).2 = v.data e
  | call => ∀ sql ∈ call.texts catalog, v.KeepsSaved sql

theorem ends_setPragma_current (laws : Transactional v) (reading : v.ReadsData) (hs : s.Agrees v) (h : s.Current)
    {name value : String} (hset : (setPragma name value).IsTracked v s.catalog) :
    (Op.setPragma name value).Ends s (fun _ t => t.Current) fun _ t => t.Current := by
  unfold Op.setPragma Op.checkPragmaName
  by_cases hname : (!Op.isPragmaName name) = true
  · rw [if_pos hname]
    exact h
  rw [if_neg hname]
  refine Op.ends_bind (Op.ends_of_ok rfl ?_)
  by_cases hvalue : (!Op.isPragmaValue value) = true
  · rw [if_pos hvalue]
    exact h
  rw [if_neg hvalue]
  refine Op.ends_bind ((Op.ends_commitAll_current laws reading hs h).mono (fun _ t ht => ?_) fun _ _ => False.elim)
  have hdata := (hset (by simpa using hname) (by simpa using hvalue) t.engine).2
  have hcurrent (u : σ) (hu : v.data u = v.data t.engine) :
      ({ t.logStatement ("PRAGMA " ++ name ++ " = " ++ value) with engine := u } : Session σ).Current :=
    ⟨ht.fresh.of_data reading hu rfl, ht.nodup⟩
  refine Op.ends_bind (Op.ends_execute (fun n u hu => ?_) fun e u hu => hcurrent u (by rw [← hdata, hu]))
  exact (Op.onlyReads_note _ _).mono (fun _ _ => (hcurrent u (by rw [← hdata, hu])).alike) fun _ _ => False.elim

/-- A script ends by reading the catalog, at whichever statement it stopped. -/
theorem ends_executeScript_current (laws : Transactional v) (reading : v.ReadsData) (hs : s.Agrees v) (h : s.Current)
    {sql : String} (hsql : ∀ t ∈ Script.statements sql, v.KeepsSaved t) (signal : Signal) :
    (Op.executeScript sql signal).Ends s (fun _ t => t.Current) fun _ t => t.Current := by
  refine (Op.ends_openSavepoint_current laws reading hs h restorePoint).bind fun _ t ht => ?_
  have hallows : ∀ t ∈ Script.statements sql, Session.Allows (Session.SameStack v) t := fun t ht => fun s => ⟨rfl, hsql t ht s.engine⟩
  have hend (result : Except SchemaError Unit) (u : Session σ) (hu : t.SameStack v u) : (do
      let _ ← Op.refreshCatalog
      Op.ofExcept result
      Op.note (.executedScript (Script.statements sql).length)
      return (Script.statements sql).length : Op σ Nat).Ends u (fun _ t => t.Current) fun _ t => t.Current := by
    have hread := (Op.ends_refreshCatalog laws u (E := fun _ _ => False)).and (Op.ends_refreshCatalog_fresh Signal.never u)
    refine Op.ends_bind (hread.mono (fun _ w hw => ?_) fun _ _ hw => hw.1.elim)
    obtain ⟨-, hfresh, -, hledger⟩ := hw
    have hcurrent : w.Current := ⟨hfresh, by rw [hledger, hu.active]; exact ht.nodup⟩
    refine Op.ends_bind (Op.ends_ofExcept (fun _ _ => ?_) fun _ _ => hcurrent)
    exact Op.ends_bind (Op.ends_of_ok rfl (Op.ends_pure (hcurrent.alike ⟨rfl, rfl, rfl, rfl⟩)))
  exact Op.ends_bind (Op.Ends.observe ((Op.preserves_executeEach signal hallows 1 t).mono (fun a => hend (.ok a)) fun e => hend (.error e)))

theorem ends_run_current (laws : Transactional v) (reading : v.ReadsData) (hs : s.Agrees v) (h : s.Current) (call : DatabaseCall)
    (hc : ¬call.Shadowed s.ledger.active) (hcall : call.IsTracked v s.catalog) :
    (call.run).Ends s (fun _ t => t.Current) fun _ t => t.Current := by
  cases call with
  | savepoint c => exact c.ends_run_current laws reading hs h hc
  | change c => exact c.ends_run_current laws reading hs h hcall
  | statement => exact hcall.elim
  | script sql signal => exact ends_ignoring (ends_executeScript_current laws reading hs h hcall signal)
  | setPragma name value => exact ends_setPragma_current laws reading hs h hcall
  | refresh signal =>
    refine ends_ignoring ((Op.ends_refreshCatalog_fresh signal s).mono (fun _ t ht => ?_) fun _ _ => h.alike)
    exact ⟨ht.1, ht.2.2 ▸ h.nodup⟩

end DatabaseCall

/-! ## Runs -/

/-- A stack of savepoints as the engine's documentation has it, if all can be opened. -/
theorem Transactional.savepointStack (laws : Transactional v) (opens : Op.OpensSavepoints σ) : SavepointStack v where
  savepoint name e := by
    obtain ⟨n, e', he⟩ := opens name e
    exact ⟨n, e', he, (laws.savepoint_ok he).1⟩
  release h := by
    obtain ⟨n, e', he, hsaved, -⟩ := laws.release h
    exact ⟨n, e', he, hsaved⟩
  rollback h := by
    obtain ⟨n, e', he, hsaved, -⟩ := laws.rollback h
    exact ⟨n, e', he, hsaved⟩
  setForeignKeys e := by
    obtain ⟨n, e', he, hsame⟩ := laws.setForeignKeys true e
    have hset : Engine.execute "PRAGMA foreign_keys = 1" e = (.ok n, e') := he
    rw [hset]
    exact hsame.saved

/-- A call after which ledger and engine agree was not shadowed. -/
theorem DatabaseCall.not_shadowed_of_agrees (stack : SavepointStack v) (hs : s.Agrees v) (call : DatabaseCall)
    (h : (call.run.after s).Agrees v) : ¬call.Shadowed s.ledger.active := by
  have hmirrors : s.Mirrors v s.ledger.active := ⟨rfl, hs.symm⟩
  cases call with
  | savepoint c => exact fun hc => SavepointCall.not_agrees stack hmirrors hc h
  | change | statement | script | setPragma | refresh => exact id

namespace Session

theorem Opened.isFresh [Storage σ φ] {configured : Bool} (h : Opened configured s) : s.IsFresh ∧ s.ledger.active = [] := by
  have hstart {engine : σ} {location : Option String} {t : Session σ} (ht : start engine location = .ok t) :
      t.IsFresh ∧ t.ledger.active = [] := by
    unfold start at ht
    split at ht
    · next hrun =>
      cases ht
      obtain ⟨hfresh, -, hledger⟩ := (Op.ends_refreshCatalog_fresh Signal.never _).ok hrun
      exact ⟨hfresh, by rw [hledger]⟩
    · cases ht
  cases h with
  | @file path content o s h =>
    unfold openFile at h
    cases hconnect : (connect path content o : Except SchemaError σ) with
    | error e => rw [hconnect] at h; cases h
    | ok engine =>
      have h : (start engine (some path) >>= fun s => .ok (s.report (.noted (.opened path)))) = .ok s := by rwa [hconnect] at h
      cases hopened : start engine (some path) with
      | error e => rw [hopened] at h; cases h
      | ok t =>
        rw [hopened] at h
        cases h
        obtain ⟨hfresh, hactive⟩ := hstart hopened
        exact ⟨hfresh.alike ⟨rfl, rfl, rfl, rfl⟩, hactive⟩
  | memory h => exact hstart h

/-- Each call, where it is made, is tracked. -/
def TrackedCalls (v : EngineView σ δ) (s : Session σ) (calls : List DatabaseCall) : Prop :=
  ∀ (k : Nat) (call : DatabaseCall), calls[k]? = some call → call.IsTracked v (s.moment calls k).catalog

/-- From its opening on, while the ledger agrees with the engine, the snapshot of a session is what reading the catalog would
give, whatever the calls and whatever becomes of them. -/
theorem isFresh_moment [Storage σ φ] (laws : Transactional v) (opens : Op.OpensSavepoints σ) (reading : v.ReadsData)
    {configured : Bool} (hopened : Opened configured s) {calls : List DatabaseCall} (hagrees : ∀ n, (s.moment calls n).Agrees v)
    (htracked : s.TrackedCalls v calls) (n : Nat) : (s.moment calls n).IsFresh := by
  suffices h : (s.moment calls n).Current from h.fresh
  induction n with
  | zero =>
    obtain ⟨hfresh, hactive⟩ := hopened.isFresh
    exact ⟨hfresh, by simp [moment_zero, hactive]⟩
  | succ n ih =>
    cases hcall : calls[n]? with
    | none =>
      rw [moment_succ_of_none s hcall]
      exact ih
    | some call =>
      have hnext := hagrees (n + 1)
      rw [moment_succ s hcall] at hnext ⊢
      have hshadowed := call.not_shadowed_of_agrees (laws.savepointStack opens) (hagrees n) hnext
      exact (call.ends_run_current laws reading (hagrees n) ih hshadowed (htracked n call hcall)).after

end Session

namespace Shell

variable {δ : Type} [Repository δ]

theorem opensSavepoints : Op.OpensSavepoints (Shell δ) := fun name e => ⟨0, _, execute_savepoint name e⟩

theorem readsData : (view (δ := δ)).ReadsData where
  schema {e e'} h := by
    show Except.ok (Repository.schema e'.data) = Except.ok (Repository.schema e.data)
    rw [show e'.data = e.data from h]
  viewColumns _ _ := rfl

end Shell

/-! ## Runs that fail on their way -/

namespace Session

omit [Engine σ] in
/-- After the last call nothing changes any more. -/
theorem moment_of_length_le [Engine σ] (s : Session σ) {calls : List DatabaseCall} {n : Nat} (h : calls.length ≤ n) :
    s.moment calls n = s.moment calls calls.length := by
  rw [moment, moment, List.take_of_length_le h, List.take_length]

/-- A run with a renaming that is cancelled after the new table is made, a script that fails at its second statement, and a
return to what was committed. -/
def faltering : List DatabaseCall :=
  [.change (.createTableFrom { name := "hero", fields := [{ name := "id" }] }), .savepoint .commitAll,
    .change (.renameColumn "hero" "id" "key" fun p => decide (10 ≤ p.statements)),
    .script "CREATE INDEX by_id ON hero; DROP INDEX by_key" .never, .savepoint .rollbackAll]

theorem trackedCalls_faltering : guarded.TrackedCalls Shell.view faltering := by
  intro k call hcall
  match k with
  | 0 | 1 | 2 | 3 | 4 =>
    cases hcall
    refine fun sql hsql e => ((Shell.quiet_of_startsElsewhere ?_).1 e).saved
    revert sql
    decide +kernel
  | k + 5 => cases hcall

/-- The objects of the snapshot, by name. -/
def listed (s : Session σ) : List String := s.catalog.objects.map SchemaObject.name

/-- Reading the catalog anew lists the same objects. -/
theorem IsFresh.listed_refresh (h : s.IsFresh) :
    (Op.done? (Op.refreshCatalog Signal.never) s).map listed = some s.listed := by
  obtain ⟨t, ht⟩ := h
  have hrefresh : Op.refreshCatalog Signal.never s = .ok s.catalog { t with catalog := s.catalog } := by
    show EStateM.bind (Op.readCatalog Signal.never) _ _ = _
    rw [EStateM.bind, ht]
    rfl
  rw [Op.done?, hrefresh]
  rfl

theorem run_faltering :
    (∀ n ≤ 5, (guarded.moment faltering n).ledger.active = Shell.view.savepoints (guarded.moment faltering n).engine) ∧
      (guarded.moment faltering 3).listed = ["hero"] ∧ (guarded.moment faltering 4).listed = ["by_id", "hero"] ∧
      (guarded.moment faltering 5).listed = ["hero"] := by decide +kernel

theorem agrees_faltering (n : Nat) : (guarded.moment faltering n).Agrees Shell.view := by
  by_cases hn : n ≤ 5
  · exact run_faltering.1 n hn
  · rw [moment_of_length_le guarded (show faltering.length ≤ n by show 5 ≤ n; omega)]
    exact run_faltering.1 5 (Nat.le_refl 5)

theorem isFresh_moment_faltering :
    (∀ n, (guarded.moment faltering n).IsFresh) ∧ (guarded.moment faltering 3).listed = ["hero"] ∧
      (guarded.moment faltering 4).listed = ["by_id", "hero"] ∧ (guarded.moment faltering 5).listed = ["hero"] := by
  have hopened : Opened true guarded := .memory rfl
  have hfresh := isFresh_moment Shell.transactional Shell.opensSavepoints Shell.readsData hopened agrees_faltering trackedCalls_faltering
  exact ⟨hfresh, run_faltering.2⟩

/-- A run with a type that commits the new table while the column is changed, and opens savepoints of the same names again. The
change is then cancelled. -/
def straying : List DatabaseCall :=
  [.change (.createTableFrom { name := "t", fields := [{ name := "a", sqlType := "text" }] }),
    .change (.modifyColumn "t" "a" { name := "a", sqlType :=
      "); COMMIT; SAVEPOINT oxide_restore_point; SAVEPOINT oxide_transform; DELETE FROM t WHERE (0" } fun p => decide (7 ≤ p.statements))]

/-- The table that the SQL of a type has committed is missing from the snapshot, though ledger and engine agree. -/
theorem not_isFresh_moment_straying :
    Opened false blank ∧ (∀ n ≤ 2, (blank.moment straying n).Agrees SchemaChange.storeView) ∧ ¬(blank.moment straying 2).IsFresh := by
  have hrun : (∀ n ≤ 2, (blank.moment straying n).ledger.active = SchemaChange.storeView.savepoints (blank.moment straying n).engine) ∧
      (blank.moment straying 2).listed = ["t"] ∧
      (Op.done? (Op.refreshCatalog Signal.never) (blank.moment straying 2)).map listed = some ["oxide_transform_new_table", "t"] := by
    decide +kernel
  obtain ⟨hagrees, hlisted, hread⟩ := hrun
  refine ⟨.memory rfl, hagrees, fun hfresh => ?_⟩
  exact absurd (hread.symm.trans hfresh.listed_refresh) (by rw [hlisted]; decide)

end Session

end SchemaEditor
