import SchemaEditor.Proofs.Database.Revertible
import SchemaEditor.Proofs.Engine.Tables

/-!
# Foreign keys are enforced as configured

A rebuild suspends foreign keys while nothing is pending, and then opens the restore point. They stay suspended for as long
as it is open, and are enforced again by whichever call settles it. So at each moment of a run they are either suspended
under the restore point or enforced as they were last configured.
-/

namespace SchemaEditor

variable {σ δ φ : Type}

namespace Session

/-- Foreign keys are enforced, and suspended, as they were. -/
structure Held (enforced : σ → Bool) (s t : Session σ) : Prop where
  suspended : t.foreignKeysSuspended = s.foreignKeysSuspended
  enforced : enforced t.engine = enforced s.engine

instance (enforced : σ → Bool) : IsFrame (Held enforced) where
  alike h := ⟨h.suspended, congrArg enforced h.engine⟩
  trans h h' := ⟨h'.suspended.trans h.suspended, h'.enforced.trans h.enforced⟩

section
variable [Engine σ] [Storage σ φ] {v : EngineView σ δ} {enforced : σ → Bool} {reads : String → Bool}

theorem isEngineFrame_held (keys : Enforcement v enforced reads) : IsEngineFrame (Held enforced) where
  ledger _ _ := ⟨rfl, rfl⟩
  catalog _ _ := ⟨rfl, rfl⟩
  savepoint name s := ⟨rfl, keys.savepoint name s.engine⟩
  release name s := ⟨rfl, keys.release name s.engine⟩
  rollback name s := ⟨rfl, keys.rollback name s.engine⟩
  readLegacyAlter s := ⟨rfl, keys.readLegacyAlter s.engine⟩
  setLegacyAlter b s := by
    have hvalue : Op.isPragmaValue (flag b) = true := by cases b <;> decide
    exact ⟨rfl, (keys.setOther "legacy_alter_table" (flag b) (by decide) (by decide) hvalue s.engine).2⟩

theorem allowsWork_held (keys : Enforcement v enforced reads) : AllowsWork (Held enforced) where
  copy p s := ⟨rfl, keys.copy p s.engine⟩
  drop table s := ⟨rfl, keys.drop table s.engine⟩
  rename source target s := ⟨rfl, keys.rename source target s.engine⟩
  createImported name header width s := ⟨rfl, keys.createImported name header width s.engine⟩
  insertRow table row s := ⟨rfl, keys.insertRow table row s.engine⟩

end

/-- A session in the middle of a call: foreign keys are enforced as configured, or they are suspended and no savepoint is open
outside the restore point. -/
structure Poised (enforced : σ → Bool) (configured : Bool) (s : Session σ) : Prop where
  enforced_eq : enforced s.engine = (configured && !s.foreignKeysSuspended)
  configured_of_suspended : s.foreignKeysSuspended = true → configured = true
  outermost : s.foreignKeysSuspended = true → ∀ name ∈ s.ledger.active.head?, name = restorePoint

/-- A session between calls: if foreign keys are suspended changes are pending. -/
structure Settled (enforced : σ → Bool) (configured : Bool) (s : Session σ) : Prop extends s.Poised enforced configured where
  pending : s.foreignKeysSuspended = true → s.ledger.active ≠ []

variable {enforced : σ → Bool} {configured : Bool} {s t : Session σ}

theorem Poised.held (h : s.Poised enforced configured) (ht : s.Held enforced t)
    (houtermost : s.foreignKeysSuspended = true → ∀ name ∈ t.ledger.active.head?, name = restorePoint) :
    t.Poised enforced configured :=
  ⟨by rw [ht.enforced, ht.suspended, h.enforced_eq], ht.suspended ▸ h.configured_of_suspended, ht.suspended ▸ houtermost⟩

/-- Closing some of the innermost savepoints leaves the outermost one, or none. -/
theorem Poised.closed (h : s.Poised enforced configured) (ht : s.Held enforced t) (hledger : t.ledger.active <+: s.ledger.active) :
    t.Poised enforced configured := by
  refine h.held ht fun hsuspended name hname => h.outermost hsuspended name ?_
  obtain ⟨inner, hinner⟩ := hledger
  rw [← hinner, List.head?_append, Option.mem_def.mp hname]
  rfl

/-- The restore point may be opened at any time. -/
theorem Poised.restorePoint (h : s.Poised enforced configured) (ht : s.Held enforced t)
    (hledger : t.ledger.active = s.ledger.active ∨ t.ledger.active = s.ledger.active ++ [restorePoint]) :
    t.Poised enforced configured := by
  refine h.held ht fun hsuspended name hname => ?_
  rcases hledger with hsame | hopened
  · exact h.outermost hsuspended name (hsame ▸ hname)
  · rw [hopened, List.head?_append] at hname
    cases hhead : s.ledger.active.head? with
    | none => simpa [hhead] using hname.symm
    | some outermost => exact h.outermost hsuspended name (by simpa [hhead] using hname)

/-- Between calls any savepoint may be opened. -/
theorem Settled.grows (h : s.Settled enforced configured) (ht : s.Held enforced t) (hledger : s.ledger.active <+: t.ledger.active) :
    t.Settled enforced configured := by
  obtain ⟨opened, hopened⟩ := hledger
  refine ⟨h.toPoised.held ht fun hsuspended name hname => h.outermost hsuspended name ?_, fun hsuspended => ?_⟩
  · obtain ⟨outermost, rest, houtermost⟩ := List.exists_cons_of_ne_nil (h.pending hsuspended)
    rw [← hopened, houtermost] at hname
    rw [houtermost]
    exact hname
  · rw [← hopened]
    simp [h.pending (ht.suspended ▸ hsuspended)]

theorem settled_of_resumed (hresumed : t.foreignKeysSuspended = false) (h : enforced t.engine = configured) :
    t.Settled enforced configured :=
  ⟨⟨by simp [h, hresumed], by simp [hresumed], by simp [hresumed]⟩, by simp [hresumed]⟩

theorem Settled.alike (h : s.Settled enforced configured) (ht : s.Alike t) : t.Settled enforced configured :=
  h.grows (IsFrame.alike ht) (by simp [ht.ledger])

end Session

/-! ## Suspending and resuming -/

namespace Op

variable [Engine σ] [Storage σ φ] {v : EngineView σ δ} {enforced : σ → Bool} {reads : String → Bool} {configured : Bool}
  {s : Session σ}

theorem ends_setForeignKeys (keys : Enforcement v enforced reads) (b : Bool) (h : v.saved s.engine = [])
    {P : Nat → Session σ → Prop} {E : SchemaError → Session σ → Prop}
    (hset : ∀ n u, enforced u = b → P n { s.logStatement ("PRAGMA foreign_keys = " ++ flag b) with engine := u }) :
    (execute ("PRAGMA foreign_keys = " ++ flag b)).Ends s P E := by
  have hvalue : isPragmaValue (flag b) = true := by cases b <;> decide
  obtain ⟨n, u, hu, -, henforced⟩ := keys.set "foreign_keys" (flag b) (by decide) (by decide) hvalue s.engine
  refine ends_execute_ok hu (hset n u ?_)
  rw [henforced, h, keys.reads_flag]
  rfl

omit [Engine σ] [Storage σ φ] in
theorem saved_of_clean (hs : s.Agrees v) (h : s.ledger.active = []) : v.saved s.engine = [] :=
  List.map_eq_nil_iff.mp (hs.symm.trans h)

/-- Foreign keys are suspended while nothing is pending, or left alone. -/
theorem ends_suspendForeignKeys_poised (keys : Enforcement v enforced reads) (hs : s.Agrees v) (h : s.Settled enforced configured) :
    (suspendForeignKeys).Ends s (fun _ t => t.Poised enforced configured) fun _ t => t.Settled enforced configured := by
  obtain ⟨e, he, hsame, henforced⟩ := keys.read s.engine
  refine ends_bind (ends_pragma (by decide) he ?_)
  generalize ht : ({ s.logStatement ("PRAGMA " ++ "foreign_keys") with engine := e } : Session σ) = t
  have hsettled : t.Settled enforced configured := by
    subst ht
    exact h.grows ⟨rfl, henforced⟩ List.prefix_rfl
  have hagrees : t.Agrees v := by
    subst ht
    exact hs.trans (congrArg (List.map Prod.fst) hsame.saved).symm
  by_cases hon : (flag (enforced s.engine) == "1") = true
  · rw [if_pos hon]
    refine ends_session ?_
    by_cases hdirty : t.isDirty = true
    · rw [if_pos hdirty]
      exact hsettled
    rw [if_neg hdirty]
    have hclean : t.ledger.active = [] := by simpa [Session.isDirty, Ledger.isDirty] using hdirty
    -- what is enforced was configured so
    have hconfigured : configured = true := by
      have hs := h.enforced_eq
      cases henforced : enforced s.engine with
      | true => simp_all
      | false => simp [henforced, flag] at hon
    refine ends_bind (ends_setForeignKeys keys false (saved_of_clean hagrees hclean) fun n u hu => ?_)
    refine ⟨by simpa using hu, fun _ => hconfigured, fun _ name hname => ?_⟩
    have hname : name ∈ t.ledger.active.head? := hname
    simp [hclean] at hname
  · rw [if_neg hon]
    exact hsettled.toPoised

/-- Suspended foreign keys come back if nothing is pending any more. -/
theorem ends_resumeForeignKeys_settled (keys : Enforcement v enforced reads) (hs : s.Agrees v) (h : s.Poised enforced configured)
    {E : SchemaError → Session σ → Prop} : (resumeForeignKeys).Ends s (fun _ t => t.Settled enforced configured) E := by
  refine ends_session ?_
  by_cases hresume : (s.foreignKeysSuspended && !s.isDirty) = true
  · rw [if_pos hresume]
    have hclean : s.foreignKeysSuspended = true ∧ s.ledger.active = [] := by simpa [Session.isDirty, Ledger.isDirty] using hresume
    refine ends_bind (ends_setForeignKeys keys true (saved_of_clean hs hclean.2) fun n u hu => ?_)
    exact Session.settled_of_resumed rfl (hu.trans (h.configured_of_suspended hclean.1).symm)
  · rw [if_neg hresume]
    refine ⟨h, fun hsuspended hclean => hresume ?_⟩
    simp [hsuspended, Session.isDirty, Ledger.isDirty, hclean]

/-! ## Changes -/

/-- A text that leaves alone whether foreign keys are enforced. -/
def LeavesEnforcement (enforced : σ → Bool) (sql : String) : Prop := ∀ e : σ, enforced (Engine.execute sql e).2 = enforced e

omit [Storage σ φ] in
theorem allows_held {sql : String} (h : LeavesEnforcement enforced sql) : Session.Allows (Session.Held enforced) sql :=
  fun s => ⟨rfl, h s.engine⟩

theorem ends_change_held (laws : Transactional v) (keys : Enforcement v enforced reads) {α : Type} {savepoint : String}
    (hne : savepoint ≠ restorePoint) (hs : s.Agrees v) {body : Op σ α} (hsteady : body.IsSteady v)
    (hbody : body.Preserves (Session.Held enforced)) {P : Session σ → Prop}
    (hP : ∀ t : Session σ, t.Agrees v → s.AtMostRestorePoint t → s.Held enforced t → P t) :
    (change savepoint body).Ends s (fun _ => P) fun _ => P := by
  have := Session.isEngineFrame_held keys
  have hkept {t : Session σ} (h : s.Made v t) (hheld : s.Held enforced t) : P t := hP t h.agrees (h.kept hs).restorePoint hheld
  exact (ends_change_preserving laws hne hs hsteady hbody).mono (fun _ _ ht => hkept ht.1 ht.2) fun _ _ ht => hkept ht.1.toMade ht.2

/-- A change of a column leaves foreign keys suspended only under the restore point. -/
theorem ends_transformColumn_settled (laws : Transactional v) (keys : Enforcement v enforced reads) {c : ColumnChange} (signal : Signal)
    (hs : s.Agrees v) (h : s.Settled enforced configured)
    (htexts : ∀ sql ∈ SchemaChange.columnTexts s.catalog c, v.Quiet sql ∧ LeavesEnforcement enforced sql) :
    (transformColumn c signal).Ends s (fun _ t => t.Settled enforced configured) fun _ t => t.Settled enforced configured := by
  refine ends_transformColumn_of (fun _ u w hu => hu.alike) (fun _ t => h.alike) fun plan hplan t ht => ?_
  have hquiet : plan.IsQuiet v (s.catalog.dependentsOf plan.table) :=
    SchemaChange.quietChange_iff.mpr (fun sql hsql => (htexts sql hsql).1) plan hplan
  rw [SchemaChange.columnTexts, hplan] at htexts
  have := Session.isEngineFrame_held keys
  have hwork := Session.allowsWork_held keys
  have hbody : (rebuild plan (s.catalog.dependentsOf plan.table) signal : Op σ _).Preserves (Session.Held enforced) :=
    preserves_rebuild hwork (preserves_renameRebuilt (hwork.rename plan.temporary plan.table)) (allows_held (htexts _ List.mem_cons_self).2)
      (fun o ho => allows_held (htexts o.sql (List.mem_cons_of_mem _ (List.mem_map_of_mem ho))).2) signal
  have hagrees : t.Agrees v := (ht.still.open hs.open).agrees
  have hsuspend := (ends_suspendForeignKeys laws t).and (ends_suspendForeignKeys_poised keys hagrees (h.alike ht))
  refine hsuspend.mono (fun _ u hu => ?_) fun _ _ hu => hu.2
  obtain ⟨hstill, hpoised⟩ := hu
  have hopen : u.Agrees v := (hstill.open hagrees.open).agrees
  refine (ends_change_held laws keys (by decide) hopen (isSteady_rebuild laws hquiet signal) hbody fun w hw hrestore hheld => ?_)
  exact ends_resumeForeignKeys_settled keys hw (hpoised.restorePoint hheld hrestore)

end Op

/-- Every call that changes the schema keeps to this. -/
theorem SchemaChange.ends_run_settled [Engine σ] [Storage σ φ] {v : EngineView σ δ} {enforced : σ → Bool} {reads : String → Bool}
    {configured : Bool} {s : Session σ} (laws : Transactional v) (keys : Enforcement v enforced reads) (change : SchemaChange)
    (hs : s.Agrees v) (h : s.Settled enforced configured)
    (htexts : ∀ sql ∈ change.texts s.catalog, v.Quiet sql ∧ Op.LeavesEnforcement enforced sql) :
    (change.run).Ends s (fun _ t => t.Settled enforced configured) fun _ t => t.Settled enforced configured := by
  refine ends_run change (fun u w hu => hu.alike) (fun t => h.alike) (fun t => h.alike) (fun body hbody t ht => ?_) fun c signal hc => ?_
  · have hsteady : body.IsSteady v :=
      hbody.preserves (Op.allowsWork_steady laws) fun sql hsql => Op.allows_of_quiet (htexts sql hsql).1
    have hheld : body.Preserves (Session.Held enforced) :=
      hbody.preserves (Session.allowsWork_held keys) fun sql hsql => Op.allows_held (htexts sql hsql).2
    have hagrees : t.Agrees v := (ht.still.open hs.open).agrees
    refine Op.ends_change_held laws keys change.savepoint_ne_restorePoint hagrees hsteady hheld fun u _ hrestore hu => ?_
    refine (h.alike ht).grows hu ?_
    rcases hrestore with hsame | hopened
    · simp [hsame, ht.ledger]
    · exact ⟨[restorePoint], by rw [hopened, ht.ledger]⟩
  · exact Op.ends_transformColumn_settled laws keys signal hs h (texts_of_columnChange? hc ▸ htexts)

/-! ## Settling savepoints -/

section
variable [Engine σ] [Storage σ φ] {v : EngineView σ δ} {enforced : σ → Bool} {reads : String → Bool} {configured : Bool}
  {s : Session σ}

namespace Op

/-- Once some of the innermost savepoints are closed, foreign keys may come back. -/
theorem ends_then_resume (keys : Enforcement v enforced reads) (hs : s.Agrees v) (h : s.Settled enforced configured) {op : Op σ Unit}
    {outer : List (String × δ)} (houter : outer <+: v.saved s.engine) (hop : op.Ends s (fun _ t => Session.Open v outer t) fun _ _ => False)
    (hheld : op.Preserves (Session.Held enforced)) {E : SchemaError → Session σ → Prop} :
    op.Ends s (fun _ t => (resumeForeignKeys).Ends t (fun _ u => u.Settled enforced configured) E) E := by
  refine (hop.and (hheld s)).mono (fun _ t ht => ?_) fun _ _ ht => ht.1.elim
  obtain ⟨hopen, ht⟩ := ht
  refine ends_resumeForeignKeys_settled keys hopen.agrees (h.toPoised.closed ht ?_)
  rw [hopen.active, hs.open.active]
  exact houter.map Prod.fst

/-- Reading the catalog anew does nothing to foreign keys. -/
theorem ends_refreshCatalog_settled (v : EngineView σ δ) (signal : Signal) (h : s.Settled enforced configured) :
    (refreshCatalog signal).Ends s (fun _ t => t.Settled enforced configured) fun _ t => t.Settled enforced configured := by
  have hheld : (refreshCatalog signal : Op σ _).Preserves (Session.Held enforced) := preserves_refreshCatalog (fun _ _ => ⟨rfl, rfl⟩) signal
  have hledger : (refreshCatalog signal : Op σ _).Preserves (Session.SameStack v) := keepsStack_refreshCatalog signal
  have hsettled {t : Session σ} (ht : s.Held enforced t ∧ s.SameStack v t) : t.Settled enforced configured :=
    h.grows ht.1 (by simp [ht.2.active])
  exact ((hheld s).and (hledger s)).mono (fun _ _ => hsettled) fun _ _ => hsettled

/-- Setting a setting settles all, and configures foreign keys if it is theirs. -/
theorem ends_commitAll_settled (laws : Transactional v) (keys : Enforcement v enforced reads) (hs : s.Agrees v)
    (hnodup : s.ledger.active.Nodup) (h : s.Settled enforced configured) {E : SchemaError → Session σ → Prop} :
    (commitAll).Ends s (fun _ t => t.Settled enforced configured) E := by
  have := Session.isEngineFrame_held keys
  have hrelease := (ends_releaseAll laws hs hnodup (E := fun _ _ => False)).mono (fun _ t ht => ht.1) fun _ _ => id
  refine ends_bind ((ends_then_resume keys hs h List.nil_prefix hrelease (preserves_settleAll preserves_releaseSavepoint)).mono
    (fun _ t ht => ht.bind fun _ u hu => ?_) fun _ _ => id)
  exact hu.alike ⟨rfl, rfl, rfl, rfl⟩

end Op

theorem SavepointCall.ends_run_settled (laws : Transactional v) (keys : Enforcement v enforced reads) (hs : s.Agrees v)
    (hnodup : s.ledger.active.Nodup) (h : s.Settled enforced configured) (c : SavepointCall) (hc : ¬c.Shadowed s.ledger.active) :
    (c.run).Ends s (fun _ t => t.Settled enforced configured) fun _ t => t.Settled enforced configured := by
  have := Session.isEngineFrame_held keys
  have hback {t : Session σ} (ht : t.Settled enforced configured) : (Op.refreshCatalog Signal.never).Ends t
      (fun _ u => u.Settled enforced configured) fun _ u => u.Settled enforced configured := Op.ends_refreshCatalog_settled v Signal.never ht
  cases c with
  | begin name =>
    have hopen := (Op.ends_openSavepoint_grows laws hs name).and (Op.preserves_openSavepoint (R := Session.Held enforced) name s)
    have hsettled {t : Session σ} (ht : s.Grows v [name] t ∧ s.Held enforced t) : t.Settled enforced configured :=
      h.grows ht.2 (ht.1.active hs)
    exact hopen.mono (fun _ _ => hsettled) fun _ _ => hsettled
  | commit name =>
    by_cases hmem : name ∈ s.ledger.active
    · obtain ⟨outer, d, inner, ho, hnot, hinner⟩ := split_of_mem hs hmem hc
      have hrelease := (Op.ends_releaseSavepoint laws ho hnot hinner (E := fun _ _ => False)).mono (fun _ t ht => ht.toOpen) fun _ _ => id
      exact Op.ends_bind (Op.ends_then_resume keys hs h ⟨_, ho.saved.symm⟩ hrelease (Op.preserves_releaseSavepoint name))
    · exact Op.ends_bind (Op.ends_bind (Op.ends_of_error (Op.position_missing hmem) h))
  | rollback name =>
    by_cases hmem : name ∈ s.ledger.active
    · obtain ⟨outer, d, inner, ho, hnot, hinner⟩ := split_of_mem hs hmem hc
      have hrevert := (Op.ends_revertSavepoint laws ho hnot hinner (E := fun _ _ => False)).mono (fun _ t ht => ht.toOpen) fun _ _ => id
      refine Op.ends_bind ((Op.ends_then_resume keys hs h ⟨_, ho.saved.symm⟩ hrevert (Op.preserves_revertSavepoint name)).mono
        (fun _ t ht => ht.bind fun _ u hu => ?_) fun _ _ => id)
      exact (hback hu).bind fun _ _ => id
    · exact Op.ends_bind (Op.ends_bind (Op.ends_of_error (Op.position_missing hmem) h))
  | commitAll => exact Op.ends_commitAll_settled laws keys hs hnodup h
  | rollbackAll =>
    have hrevert := (Op.ends_revertAll laws hs hnodup (E := fun _ _ => False)).mono (fun _ t ht => ht.1) fun _ _ => id
    refine Op.ends_bind ((Op.ends_then_resume keys hs h List.nil_prefix hrevert (Op.preserves_settleAll Op.preserves_revertSavepoint)).mono
      (fun _ t ht => ht.bind fun _ u hu => ?_) fun _ _ => id)
    exact (hback hu).bind fun _ w hw => hw.alike ⟨rfl, rfl, rfl, rfl⟩

end

/-! ## Runs -/

namespace DatabaseCall

/-- How a call configures the enforcement of foreign keys. -/
def configures (reads : String → Bool) (configured : Bool) : DatabaseCall → Bool
  | setPragma name value =>
    if sameName name "foreign_keys" && Op.isPragmaName name && Op.isPragmaValue value then reads value else configured
  | _ => configured

variable [Engine σ] [Storage σ φ] {v : EngineView σ δ} {enforced : σ → Bool} {reads : String → Bool} {configured : Bool}
  {s : Session σ}

theorem ends_setPragma_settled (laws : Transactional v) (keys : Enforcement v enforced reads) (hs : s.Agrees v)
    (hnodup : s.ledger.active.Nodup) (h : s.Settled enforced configured) (name value : String) :
    (Op.setPragma name value).Ends s (fun _ t => t.Settled enforced ((setPragma name value).configures reads configured))
      fun _ t => t.Settled enforced ((setPragma name value).configures reads configured) := by
  unfold Op.setPragma Op.checkPragmaName
  by_cases hname : (!Op.isPragmaName name) = true
  · rw [if_pos hname, show (setPragma name value).configures reads configured = configured by simp_all [configures]]
    exact h
  rw [if_neg hname]
  refine Op.ends_bind (Op.ends_of_ok rfl ?_)
  by_cases hvalue : (!Op.isPragmaValue value) = true
  · rw [if_pos hvalue, show (setPragma name value).configures reads configured = configured by simp_all [configures]]
    exact h
  rw [if_neg hvalue]
  have hname : Op.isPragmaName name = true := by simpa using hname
  have hvalue : Op.isPragmaValue value = true := by simpa using hvalue
  have hcommit := (Op.ends_commitAll laws hs hnodup (E := fun _ _ => False)).and
    (Op.ends_commitAll_settled laws keys hs hnodup h (E := fun _ _ => False))
  refine Op.ends_bind (hcommit.mono (fun _ t ht => ?_) fun _ _ ht => ht.1.elim)
  obtain ⟨⟨hclosed, -⟩, ht⟩ := ht
  have hresumed : t.foreignKeysSuspended = false := by
    by_contra hsuspended
    exact ht.pending (by simpa using hsuspended) hclosed.active
  have henforced : enforced t.engine = configured := by simp [ht.enforced_eq, hresumed]
  have hset (u : σ) (hu : enforced u = (setPragma name value).configures reads configured) :
      Session.Settled enforced ((setPragma name value).configures reads configured)
        { t.logStatement ("PRAGMA " ++ name ++ " = " ++ value) with engine := u } := Session.settled_of_resumed hresumed hu
  cases hkeys : sameName name "foreign_keys" with
  | true =>
    obtain ⟨n, u, hu, -, hvalued⟩ := keys.set name value hkeys hname hvalue t.engine
    refine Op.ends_bind (Op.ends_execute_ok hu ((hset u ?_).alike ⟨rfl, rfl, rfl, rfl⟩))
    simp [hvalued, hclosed.saved, configures, hkeys, hname, hvalue]
  | false =>
    have hother := (keys.setOther name value hkeys hname hvalue t.engine).2
    have hsame : (setPragma name value).configures reads configured = configured := by simp [configures, hkeys]
    refine Op.ends_bind (Op.ends_execute (fun n u hu => (hset u ?_).alike ⟨rfl, rfl, rfl, rfl⟩) fun e u hu => hset u ?_)
    · rw [hsame, ← henforced, ← hother, hu]
    · rw [hsame, ← henforced, ← hother, hu]

/-- Every call keeps foreign keys as they are configured, or suspended under the restore point. -/
theorem ends_run_settled (laws : Transactional v) (keys : Enforcement v enforced reads) (hs : s.Agrees v)
    (hnodup : s.ledger.active.Nodup) (h : s.Settled enforced configured) (call : DatabaseCall) (hc : ¬call.Shadowed s.ledger.active)
    (htexts : ∀ sql ∈ call.texts s.catalog, v.Quiet sql ∧ Op.LeavesEnforcement enforced sql) :
    (call.run).Ends s (fun _ t => t.Settled enforced (call.configures reads configured))
      fun _ t => t.Settled enforced (call.configures reads configured) := by
  have := Session.isEngineFrame_held keys
  -- what only opens savepoints keeps to this if it leaves enforcement alone
  have hbuilds (hbuilds : call.Builds) (hq : call.IsQuiet v s.catalog) (hheld : (call.run).Preserves (Session.Held enforced)) :
      (call.run).Ends s (fun _ t => t.Settled enforced configured) fun _ t => t.Settled enforced configured := by
    have hsettled {t : Session σ} (ht : s.Grows v call.opens t ∧ s.Held enforced t) : t.Settled enforced configured :=
      h.grows ht.2 (ht.1.active hs)
    exact ((ends_run_grows laws hs hbuilds hq).and (hheld s)).mono (fun _ _ => hsettled) fun _ _ => hsettled
  have hignoring {α : Type} {op : Op σ α} (hop : op.Preserves (Session.Held enforced)) :
      (do let _ ← op : Op σ Unit).Preserves (Session.Held enforced) := hop.bind fun _ => Op.preserves_pure ()
  cases call with
  | savepoint c => exact c.ends_run_settled laws keys hs hnodup h hc
  | change c => exact c.ends_run_settled laws keys hs h htexts
  | setPragma name value => exact ends_setPragma_settled laws keys hs hnodup h name value
  | statement sql dirty =>
    have hsql := htexts sql (by simp [texts])
    exact hbuilds trivial (fun t ht => (htexts t ht).1) (hignoring (Op.preserves_executeSql (Op.allows_held hsql.2) dirty))
  | script sql signal =>
    exact hbuilds trivial (fun t ht => (htexts t ht).1)
      (hignoring (Op.preserves_executeScript (fun t ht => Op.allows_held (htexts t ht).2) signal))
  | refresh signal =>
    exact hbuilds trivial (fun t ht => (htexts t ht).1)
      (hignoring (Op.preserves_refreshCatalog Session.IsEngineFrame.catalog signal))

end DatabaseCall

namespace Session

/-- A session on a connection that has just been opened, with foreign keys enforced or not. -/
inductive Opened [Engine σ] [Storage σ φ] : Bool → Session σ → Prop
  | file {path : String} {content : DatabaseFile φ} {o : DatabaseOptions} {s : Session σ} (h : openFile path content o = .ok s) :
    Opened o.foreignKeys s
  | memory {foreignKeys : Bool} {s : Session σ} (h : inMemory foreignKeys = .ok s) : Opened foreignKeys s

/-- Foreign keys are suspended under the restore point, or enforced as configured. -/
structure EnforcesAs (enforced : σ → Bool) (configured : Bool) (s : Session σ) : Prop where
  suspended : s.foreignKeysSuspended = true →
    s.isDirty = true ∧ s.ledger.active.head? = some restorePoint ∧ enforced s.engine = false
  resumed : s.foreignKeysSuspended = false → enforced s.engine = configured
  clean : s.ledger.active = [] → enforced s.engine = configured

theorem Settled.enforcesAs {enforced : σ → Bool} {configured : Bool} {s : Session σ} (h : s.Settled enforced configured) :
    s.EnforcesAs enforced configured := by
  have hresumed (hsuspended : s.foreignKeysSuspended = false) : enforced s.engine = configured := by simp [h.enforced_eq, hsuspended]
  refine ⟨fun hsuspended => ?_, hresumed, fun hclean => hresumed ?_⟩
  · obtain ⟨name, rest, hactive⟩ := List.exists_cons_of_ne_nil (h.pending hsuspended)
    have houtermost := h.outermost hsuspended name (by simp [hactive])
    exact ⟨by simp [isDirty, Ledger.isDirty, hactive], by simp [hactive, houtermost], by simp [h.enforced_eq, hsuspended]⟩
  · by_contra hsuspended
    exact h.pending (by simpa using hsuspended) hclean

section
variable [Engine σ] [Storage σ φ] {v : EngineView σ δ} {enforced : σ → Bool} {reads : String → Bool} {configured : Bool}
  {s : Session σ}

/-- A session starts with nothing pending. -/
theorem settled_of_start (enforced : σ → Bool) {engine : σ} {location : Option String} (h : start engine location = .ok s) (hsaved : v.saved engine = []) :
    s.Settled enforced (enforced engine) ∧ s.ledger.active = [] ∧ v.saved s.engine = [] := by
  unfold start at h
  split at h
  · next hrun =>
    cases h
    have hheld : (Op.refreshCatalog Signal.never : Op σ _).Preserves (Held enforced) := Op.preserves_refreshCatalog (fun _ _ => ⟨rfl, rfl⟩) _
    obtain ⟨hresumed, henforced⟩ := (hheld _).ok hrun
    have hstack := (Op.keepsStack_refreshCatalog (v := v) Signal.never _).ok hrun
    exact ⟨settled_of_resumed hresumed henforced, hstack.active, hstack.saved.trans hsaved⟩
  · cases h

theorem Opened.settled (keys : Enforcement v enforced reads) (h : Opened configured s) :
    s.Settled enforced configured ∧ s.ledger.active = [] ∧ v.saved s.engine = [] := by
  cases h with
  | @file path content o s h =>
    unfold openFile connect at h
    cases hcontent : contentOf (σ := σ) path content o with
    | error e => rw [hcontent] at h; cases h
    | ok opened =>
      obtain ⟨hsaved, henforced⟩ := keys.openFile opened { foreignKeys := o.foreignKeys, readOnly := o.readOnly }
      have h : (start (Storage.openFile opened { foreignKeys := o.foreignKeys, readOnly := o.readOnly } : σ) (some path) >>=
          fun s => .ok (s.report (.noted (.opened path)))) = .ok s := by rwa [hcontent] at h
      cases hstart : start (Storage.openFile opened { foreignKeys := o.foreignKeys, readOnly := o.readOnly } : σ) (some path) with
      | error e => rw [hstart] at h; cases h
      | ok started =>
        rw [hstart] at h
        cases h
        obtain ⟨hsettled, hactive, hstack⟩ := settled_of_start enforced hstart hsaved
        rw [henforced] at hsettled
        exact ⟨hsettled.alike ⟨rfl, rfl, rfl, rfl⟩, hactive, hstack⟩
  | memory h =>
    obtain ⟨hsaved, henforced⟩ := keys.openFile (Storage.empty σ) { foreignKeys := configured, isFile := false }
    have hstart := settled_of_start enforced h hsaved
    rwa [henforced] at hstart

/-- No call settles a savepoint that is shadowed, and none brings along SQL for savepoints or for the enforcement of foreign keys. -/
def PlainCalls (v : EngineView σ δ) (enforced : σ → Bool) (s : Session σ) (calls : List DatabaseCall) : Prop :=
  ∀ (k : Nat) (call : DatabaseCall), calls[k]? = some call → ¬call.Shadowed (s.moment calls k).ledger.active ∧
    ∀ sql ∈ call.texts (s.moment calls k).catalog, v.Quiet sql ∧ Op.LeavesEnforcement enforced sql

variable {calls : List DatabaseCall}

theorem PlainCalls.quietCalls (keys : Enforcement v enforced reads) (h : s.PlainCalls v enforced calls) : s.QuietCalls v calls := by
  intro k call hcall
  have htexts := (h k call hcall).2
  cases call with
  | setPragma name value =>
    intro hname hvalue e
    cases hkeys : sameName name "foreign_keys" with
    | true =>
      obtain ⟨n, u, hu, hsaved, -⟩ := keys.set name value hkeys hname hvalue e
      rw [hu]
      exact hsaved
    | false => exact (keys.setOther name value hkeys hname hvalue e).1
  | savepoint | change | statement | script | refresh => exact fun sql hsql => (htexts sql hsql).1

theorem settled_moment (laws : Transactional v) (keys : Enforcement v enforced reads) (hopened : Opened configured s)
    (hplain : s.PlainCalls v enforced calls) (n : Nat) :
    (s.moment calls n).Agrees v ∧ (s.moment calls n).ledger.active.Nodup ∧
      (s.moment calls n).Settled enforced ((calls.take n).foldl (DatabaseCall.configures reads) configured) := by
  induction n with
  | zero =>
    obtain ⟨hsettled, hactive, hsaved⟩ := hopened.settled keys
    exact ⟨by simp [moment_zero, Agrees, EngineView.savepoints, hactive, hsaved], by simp [moment_zero, hactive], hsettled⟩
  | succ n ih =>
    obtain ⟨hagrees, hnodup, hsettled⟩ := ih
    have hshifts := shifts_moment laws (hplain.quietCalls keys) hagrees hnodup fun call hcall => (hplain n call hcall).1
    refine ⟨hshifts.agrees, hshifts.nodup hnodup, ?_⟩
    rw [List.take_add_one, List.foldl_append]
    cases hcall : calls[n]? with
    | none =>
      rw [moment_succ_of_none s hcall]
      exact hsettled
    | some call =>
      obtain ⟨hshadowed, htexts⟩ := hplain n call hcall
      rw [moment_succ s hcall]
      exact (call.ends_run_settled laws keys hagrees hnodup hsettled hshadowed htexts).after

/-- From its opening on, whatever the calls and whatever becomes of them, a session has foreign keys suspended only while the
restore point is its outermost savepoint, and enforced as they were last configured at all other times. -/
theorem enforces_as_configured (laws : Transactional v) (keys : Enforcement v enforced reads) (hopened : Opened configured s)
    (hplain : s.PlainCalls v enforced calls) (n : Nat) :
    (s.moment calls n).EnforcesAs enforced ((calls.take n).foldl (DatabaseCall.configures reads) configured) :=
  (settled_moment laws keys hopened hplain n).2.2.enforcesAs

end

/-- A session on tables in memory, with foreign keys enforced. -/
def guarded : Session (Shell Tables) where
  engine := { data := {}, foreignKeys := true }

/-- A run that renames a column, reverts it, and then configures foreign keys anew. -/
def aliasing : List DatabaseCall :=
  [.change (.createTableFrom { name := "hero", fields := [{ name := "id" }] }), .savepoint .commitAll,
    .change (.renameColumn "hero" "id" "key" .never), .savepoint .rollbackAll,
    .setPragma "Foreign_Keys" "off"]

theorem plainCalls_aliasing : guarded.PlainCalls Shell.view Shell.foreignKeys aliasing := by
  intro k call hcall
  match k with
  | 0 | 1 | 2 | 3 | 4 =>
    cases hcall
    refine ⟨id, fun sql hsql => Shell.quiet_of_startsElsewhere ?_⟩
    revert sql
    decide +kernel
  | k + 5 => cases hcall

/-- The renaming suspends foreign keys until it is reverted. -/
theorem enforces_as_configured_alias :
    (guarded.moment aliasing 3).foreignKeysSuspended = true ∧ (guarded.moment aliasing 3).engine.foreignKeys = false ∧
      (guarded.moment aliasing 4).engine.foreignKeys = true ∧ (guarded.moment aliasing 5).engine.foreignKeys = false := by
  have hopened : Opened true guarded := .memory rfl
  have hrun : (guarded.moment aliasing 3).foreignKeysSuspended = true ∧ (guarded.moment aliasing 4).ledger.active = [] ∧
      (guarded.moment aliasing 5).ledger.active = [] := by decide +kernel
  have henforces := enforces_as_configured Shell.transactional Shell.enforcement hopened plainCalls_aliasing
  refine ⟨hrun.1, ((henforces 3).suspended hrun.1).2.2, ((henforces 4).clean hrun.2.1).trans ?_, ((henforces 5).clean hrun.2.2).trans ?_⟩
  · decide
  · decide

/-- A session on a store in memory, with foreign keys enforced. -/
def guardedStore : Session Store.State := (inMemory true).toOption.getD { engine := {} }

theorem opened_guardedStore : Opened true guardedStore := by
  have hsome : (inMemory true : Except SchemaError (Session Store.State)).toOption.isSome = true := by decide
  cases hopened : (inMemory true : Except SchemaError (Session Store.State)) with
  | error e => simp [hopened, Except.toOption] at hsome
  | ok s => exact .memory (by rw [guardedStore, hopened]; rfl)

/-- A run with a type that ends the transaction for a moment, and sets a setting in it. -/
def unsetting : List DatabaseCall :=
  [.change (.createTableFrom { name := "t", fields := [{ name := "a", sqlType :=
    "); COMMIT; PRAGMA foreign_keys = 0; SAVEPOINT oxide_restore_point; SAVEPOINT oxide_create_table; DELETE FROM t WHERE (1" }] }),
    .savepoint .commitAll]

/-- Foreign keys stay as the SQL of a type has set them. -/
theorem not_enforces_as_configured_unsetting :
    Opened true guardedStore ∧ (∀ call ∈ unsetting, ∀ names, ¬call.Shadowed names) ∧
      ¬(guardedStore.moment unsetting 2).EnforcesAs Store.State.foreignKeys
        ((unsetting.take 2).foldl (DatabaseCall.configures Shell.reads) true) := by
  have hrun : (guardedStore.moment unsetting 2).ledger.active = [] ∧ (guardedStore.moment unsetting 2).engine.foreignKeys = false ∧
      (unsetting.take 2).foldl (DatabaseCall.configures Shell.reads) true = true := by decide +kernel
  obtain ⟨hclean, hoff, hconfigured⟩ := hrun
  refine ⟨opened_guardedStore, fun call hcall names => ?_, fun h => ?_⟩
  · simp only [unsetting, List.mem_cons, List.not_mem_nil, or_false] at hcall
    rcases hcall with rfl | rfl
    · exact id
    · exact id
  · have hon := h.clean hclean
    rw [hoff, hconfigured] at hon
    cases hon

end Session

end SchemaEditor
