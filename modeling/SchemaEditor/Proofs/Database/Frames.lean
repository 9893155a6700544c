import SchemaEditor.Proofs.Database.Runs

/-!
# What operations leave alone

Operations make statements of their own, out of names and settings, and execute the SQL they are given. What none of
these touches is left alone by the whole operation, however far it comes.
-/

namespace SchemaEditor

variable {σ δ : Type}

namespace Session

variable [Engine σ] (R : Session σ → Session σ → Prop)

/-- A text that the relation holds across, whatever comes of it. -/
def Allows (sql : String) : Prop := ∀ s : Session σ, R s { s with engine := (Engine.execute sql s.engine).2 }

/-- The relation holds across the statements on tables that operations make of names alone. -/
structure AllowsWork : Prop where
  copy (p : RebuildPlan) : Allows R p.copySql
  drop (table : String) : Allows R ("DROP TABLE " ++ quoteIdentifier table)
  rename (source target : String) : Allows R (renameTableSql source target)
  createImported (name : String) (header : List String) (width : Nat) : Allows R (importedTable name header width).sql
  insertRow (table : String) (row : List (Option String)) (s : Session σ) :
    R s { s with engine := (Engine.insertRow table row s.engine).2 }

/-- A relation that looks at neither ledger nor catalog, and holds across savepoints and the setting for renaming. -/
class IsEngineFrame : Prop extends IsFrame R where
  ledger (s : Session σ) (l : Ledger) : R s { s with ledger := l }
  catalog (s : Session σ) (c : Catalog) : R s { s with catalog := c }
  savepoint (name : String) : Allows R (savepointSql name)
  release (name : String) : Allows R (releaseSql name)
  rollback (name : String) : Allows R (rollbackSql name)
  readLegacyAlter (s : Session σ) : R s { s with engine := (Engine.pragma "legacy_alter_table" s.engine).2 }
  setLegacyAlter (b : Bool) : Allows R ("PRAGMA legacy_alter_table = " ++ flag b)

end Session

namespace Op

/-! ## Reading -/

/-- Such an operation succeeds, and only looks. -/
def OnlyReads {α : Type} (op : Op σ α) : Prop := ∀ s, op.Ends s (fun _ t => s.Alike t) fun _ _ => False

section
variable {α β : Type} {R : Session σ → Session σ → Prop}

theorem OnlyReads.bind {op : Op σ α} {next : α → Op σ β} (h : op.OnlyReads) (hnext : ∀ a, (next a).OnlyReads) :
    (op >>= next).OnlyReads := by
  intro s
  refine (h s).bind fun a t ht => ?_
  exact (hnext a t).mono (fun _ _ => ht.trans) fun _ _ => id

theorem OnlyReads.preserves [Session.IsFrame R] {op : Op σ α} (h : op.OnlyReads) : op.Preserves R :=
  fun s => (h s).mono (fun _ _ => Session.IsFrame.alike) fun _ _ => False.elim

theorem onlyReads_pure (a : α) : (pure a : Op σ α).OnlyReads := fun s => .refl s

theorem onlyReads_warn (w : Warning) : (warn w : Op σ Unit).OnlyReads := fun _ => ⟨rfl, rfl, rfl, rfl⟩

theorem onlyReads_note (n : Notice) : (note n : Op σ Unit).OnlyReads := fun _ => ⟨rfl, rfl, rfl, rfl⟩

theorem onlyReads_checkSignal_never : (checkSignal Signal.never : Op σ Unit).OnlyReads := fun _ => ⟨rfl, rfl, rfl, rfl⟩

theorem onlyReads_forM {f : α → Op σ Unit} (hf : ∀ a, (f a).OnlyReads) (as : List α) : (as.forM f).OnlyReads := by
  induction as with
  | nil => exact onlyReads_pure _
  | cons a as ih => exact (hf a).bind fun _ => ih

end

variable [Engine σ]

theorem onlyReads_viewFields (view : String) : (viewFields view : Op σ _).OnlyReads := by
  intro s
  refine ends_session ?_
  cases Engine.viewColumns view s.engine with
  | ok columns => exact onlyReads_pure _ s
  | error e => exact (onlyReads_warn (.unreadableView view)).bind (fun _ => onlyReads_pure _) s

theorem onlyReads_fieldsOf (kind : ObjectKind) (name sql : String) : (fieldsOf kind name sql : Op σ _).OnlyReads := by
  cases kind with
  | table =>
    intro s
    by_cases hempty : (Table.parseLenient sql).fields.isEmpty = true
    · show (if (Table.parseLenient sql).fields.isEmpty = true then _ else _ : Op σ _).Ends s _ _
      rw [if_pos hempty]
      exact (onlyReads_warn (.unreadableTable name)).bind (fun _ => onlyReads_pure _) s
    · show (if (Table.parseLenient sql).fields.isEmpty = true then _ else _ : Op σ _).Ends s _ _
      rw [if_neg hempty]
      exact onlyReads_pure _ s
  | view => exact onlyReads_viewFields name
  | index => exact onlyReads_pure []
  | trigger => exact onlyReads_pure []

theorem onlyReads_objectOf (row : SchemaRow) : (objectOf row : Op σ _).OnlyReads := by
  unfold objectOf
  cases ObjectKind.ofTag? row.kind with
  | none => exact (onlyReads_warn _).bind fun _ => onlyReads_pure _
  | some kind => exact (onlyReads_fieldsOf kind row.name _).bind fun _ => onlyReads_pure _

theorem onlyReads_readObjects (rows : List SchemaRow) : (readObjects Signal.never rows : Op σ _).OnlyReads := by
  induction rows with
  | nil => exact onlyReads_pure []
  | cons row rows ih =>
    refine onlyReads_checkSignal_never.bind fun _ => ?_
    exact (onlyReads_objectOf row).bind fun _ => ih.bind fun _ => onlyReads_pure _

section
variable {R : Session σ → Session σ → Prop} [Session.IsFrame R]

theorem preserves_readObjects (signal : Signal) (rows : List SchemaRow) : (readObjects signal rows : Op σ _).Preserves R := by
  induction rows with
  | nil => exact preserves_pure []
  | cons row rows ih =>
    refine (preserves_checkSignal signal).bind fun _ => ?_
    exact (onlyReads_objectOf row).preserves.bind fun _ => ih.bind fun _ => preserves_pure _

theorem preserves_refreshCatalog (hcatalog : ∀ (s : Session σ) (c : Catalog), R s { s with catalog := c }) (signal : Signal) :
    (refreshCatalog signal : Op σ _).Preserves R := by
  have hread : (readCatalog signal : Op σ Catalog).Preserves R :=
    .session fun s => (preserves_ofEngine (Engine.schema s.engine)).bind fun rows =>
      (preserves_readObjects signal rows).bind fun _ => preserves_pure _
  have hset (c : Catalog) : (setCatalog c : Op σ Unit).Preserves R := fun s => hcatalog s c
  exact hread.bind fun c => (hset c).bind fun _ => preserves_pure c

/-! ## Statements -/

theorem preserves_tryExecute {sql : String} (h : Session.Allows R sql) : (tryExecute sql : Op σ _).Preserves R :=
  (preserves_logStatement sql).bind fun _ => preserves_request h

theorem preserves_execute {sql : String} (h : Session.Allows R sql) : (execute sql : Op σ Nat).Preserves R :=
  (preserves_tryExecute h).bind preserves_ofEngine

theorem preserves_executeEach (signal : Signal) {statements : List String} (h : ∀ sql ∈ statements, Session.Allows R sql) (n : Nat) :
    (executeEach signal n statements : Op σ Unit).Preserves R := by
  induction statements generalizing n with
  | nil => exact preserves_pure ()
  | cons sql rest ih =>
    refine (preserves_checkSignal signal).bind fun _ => ?_
    refine (preserves_tryExecute (h sql List.mem_cons_self)).bind fun r => ?_
    cases r with
    | error e => exact preserves_throw _
    | ok => exact ih (fun next hnext => h next (List.mem_cons_of_mem sql hnext)) (n + 1)

/-- What a script does under the restore point. -/
theorem preserves_statements (hcatalog : ∀ (s : Session σ) (c : Catalog), R s { s with catalog := c }) {statements : List String}
    (h : ∀ sql ∈ statements, Session.Allows R sql) (signal : Signal) :
    (do
      let result ← observe (executeEach signal 1 statements)
      let _ ← refreshCatalog
      ofExcept result
      note (.executedScript statements.length)
      return statements.length : Op σ Nat).Preserves R := by
  have hrefresh : (refreshCatalog Signal.never : Op σ Catalog).Preserves R := preserves_refreshCatalog hcatalog Signal.never
  refine (preserves_executeEach signal h 1).observe.bind fun result => hrefresh.bind fun _ => ?_
  exact (preserves_ofExcept result).bind fun _ => (preserves_note _).bind fun _ => preserves_pure _

theorem preserves_executeRename {source target : String} (h : Session.Allows R (renameTableSql source target)) :
    (executeRename source target : Op σ Unit).Preserves R := by
  refine (preserves_tryExecute h).bind fun r => ?_
  cases r with
  | error e => exact preserves_throw _
  | ok => exact preserves_pure ()

theorem preserves_runSteps {steps : List (RebuildStep × String)} (h : ∀ step ∈ steps, Session.Allows R step.2)
    (signal : Signal) : (runSteps signal steps : Op σ Unit).Preserves R := by
  induction steps with
  | nil => exact preserves_pure ()
  | cons step steps ih =>
    refine (preserves_checkSignal signal).bind fun _ => ?_
    refine (preserves_tryExecute (h step List.mem_cons_self)).bind fun r => ?_
    cases r with
    | error e => exact preserves_throw _
    | ok n => exact ih fun next hnext => h next (List.mem_cons_of_mem step hnext)

theorem preserves_restoreDependents {objects : List SchemaObject} (h : ∀ o ∈ objects, Session.Allows R o.sql) (table : String) :
    (restoreDependents table objects : Op σ _).Preserves R := by
  induction objects with
  | nil => exact preserves_pure []
  | cons o objects ih =>
    have hrest := ih fun p hp => h p (List.mem_cons_of_mem o hp)
    refine (preserves_tryExecute (h o List.mem_cons_self)).bind fun r => ?_
    cases r with
    | error e => exact (preserves_warn _).bind fun _ => hrest.bind fun _ => preserves_pure _
    | ok n => exact hrest

theorem preserves_checkForeignKeys : (checkForeignKeys : Op σ Unit).Preserves R := by
  refine .session fun s => ?_
  cases Engine.violations s.engine with
  | error e => exact preserves_throw _
  | ok vs => cases vs with
    | nil => exact preserves_pure ()
    | cons w vs => exact preserves_throw _

theorem preserves_insertRows (hwork : Session.AllowsWork R) (table : String) (width : Nat) (signal : Signal) (rows : List (List String)) :
    (insertRows table width signal rows : Op σ Unit).Preserves R := by
  induction rows with
  | nil => exact preserves_pure ()
  | cons row rows ih =>
    refine (preserves_checkSignal signal).bind fun _ => ?_
    refine (preserves_request (hwork.insertRow table (paddedRow width row))).bind fun r => ?_
    exact (preserves_ofEngine r).bind fun _ => ih

theorem preserves_rebuild (hwork : Session.AllowsWork R) {p : RebuildPlan} {dependents : List SchemaObject}
    (hrename : (renameRebuilt p.temporary p.table : Op σ Unit).Preserves R) (hrebuilt : Session.Allows R p.rebuilt.sql)
    (hdependents : ∀ o ∈ dependents, Session.Allows R o.sql) (signal : Signal) :
    (rebuild p dependents signal : Op σ _).Preserves R := by
  have hsteps : ∀ step ∈ p.steps, Session.Allows R step.2 := by
    intro step hstep
    simp only [RebuildPlan.steps, List.mem_cons, List.not_mem_nil, or_false] at hstep
    rcases hstep with rfl | rfl | rfl
    · exact hrebuilt
    · exact hwork.copy p
    · exact hwork.drop p.table
  refine (preserves_runSteps hsteps signal).bind fun _ => ?_
  refine (preserves_checkSignal signal).bind fun _ => hrename.bind fun _ => ?_
  refine (preserves_restoreDependents hdependents p.table).bind fun lost => .session fun s => ?_
  by_cases hsuspended : s.foreignKeysSuspended = true
  · rw [if_pos hsuspended]
    exact preserves_checkForeignKeys.bind fun _ => preserves_pure lost
  · rw [if_neg hsuspended]
    exact preserves_pure lost

theorem preserves_pragma (name : String) (h : ∀ s : Session σ, R s { s with engine := (Engine.pragma name s.engine).2 }) :
    (pragma name : Op σ String).Preserves R := by
  have hcheck : (checkPragmaName name : Op σ Unit).Preserves R := by
    unfold checkPragmaName
    split
    · exact preserves_throw _
    · exact preserves_pure ()
  exact hcheck.bind fun _ => (preserves_logStatement _).bind fun _ => (preserves_request h).bind preserves_ofEngine

theorem preserves_resumeForeignKeys (h : Session.Allows R "PRAGMA foreign_keys = 1")
    (hsuspended : ∀ (s : Session σ) (b : Bool), R s { s with foreignKeysSuspended := b }) :
    (resumeForeignKeys : Op σ Unit).Preserves R := by
  have hset (b : Bool) : (setSuspended b : Op σ Unit).Preserves R := fun s => hsuspended s b
  refine .session fun s => ?_
  by_cases hresume : (s.foreignKeysSuspended && !s.isDirty) = true
  · rw [if_pos hresume]
    exact (preserves_execute h).bind fun _ => hset false
  · rw [if_neg hresume]
    exact preserves_pure ()

theorem preserves_suspendForeignKeys (hread : ∀ s : Session σ, R s { s with engine := (Engine.pragma "foreign_keys" s.engine).2 })
    (h : Session.Allows R "PRAGMA foreign_keys = 0")
    (hsuspended : ∀ (s : Session σ) (b : Bool), R s { s with foreignKeysSuspended := b }) :
    (suspendForeignKeys : Op σ Unit).Preserves R := by
  have hset (b : Bool) : (setSuspended b : Op σ Unit).Preserves R := fun s => hsuspended s b
  refine (preserves_pragma "foreign_keys" hread).bind fun a => ?_
  by_cases hon : (a == "1") = true
  · rw [if_pos hon]
    refine .session fun s => ?_
    by_cases hdirty : s.isDirty = true
    · rw [if_pos hdirty]
      exact preserves_throw _
    · rw [if_neg hdirty]
      exact (preserves_execute h).bind fun _ => hset true
  · rw [if_neg hon]
    exact preserves_pure ()

omit [Engine σ] in
theorem preserves_position (name : String) : (position name : Op σ Nat).Preserves R := by
  intro s
  unfold Ends position
  cases s.ledger.position? name with
  | none => exact Session.IsFrame.refl s
  | some i => exact Session.IsFrame.refl s

end

/-! ## Savepoints -/

section
variable {settle : String → Op σ Unit} [Settles settle] {s : Session σ}

omit [Engine σ] in
theorem settleAll_done (h : s.ledger.active.getLast? = none) : settleAll settle s = .ok () s := by
  rw [settleAll, h]

omit [Engine σ] in
/-- To settle all is to settle the innermost, and then the others. -/
theorem ends_settleAll_last {name : String} {P : Unit → Session σ → Prop} {E : SchemaError → Session σ → Prop}
    (hlast : s.ledger.active.getLast? = some name) (h : (settle name).Ends s (fun _ t => (settleAll settle).Ends t P E) E) :
    (settleAll settle).Ends s P E := by
  cases hrun : settle name s with
  | error e t =>
    have hstop : settleAll settle s = .error e t := by
      rw [settleAll, hlast]
      dsimp only
      split
      · next hok => rw [hrun] at hok; cases hok
      · next herror => rw [hrun] at herror; cases herror; rfl
    exact ends_of_error hstop (h.error hrun)
  | ok u t =>
    have hgo : settleAll settle s = settleAll settle t := by
      rw [settleAll, hlast]
      dsimp only
      split
      · next hok => rw [hrun] at hok; cases hok; rfl
      · next herror => rw [hrun] at herror; cases herror
    have hrest := h.ok hrun
    unfold Ends at hrest ⊢
    rwa [hgo]

omit [Engine σ] in
theorem preserves_settleAll {R : Session σ → Session σ → Prop} [Session.IsFrame R] (h : ∀ name, (settle name).Preserves R) :
    (settleAll settle).Preserves R := by
  intro s
  -- there are fewer savepoints after each turn
  induction hn : s.ledger.active.length using Nat.strongRecOn generalizing s with
  | ind n ih =>
  cases hlast : s.ledger.active.getLast? with
  | none => exact ends_of_ok (settleAll_done hlast) (Session.IsFrame.refl s)
  | some name =>
    have hfewer : (settle name).Ends s (fun _ t => t.ledger.active.length < s.ledger.active.length) fun _ _ => True :=
      ends_of_forall_ok fun _ _ hrun => Settles.settles hrun
    refine ends_settleAll_last hlast (((h name s).and hfewer).mono (fun _ t ht => ?_) fun _ _ ht => ht.1)
    obtain ⟨ht, hlt⟩ := ht
    exact (ih _ (hn ▸ hlt) t rfl).mono (fun _ _ => Session.IsFrame.trans ht) fun _ _ => Session.IsFrame.trans ht

end

section
variable {R : Session σ → Session σ → Prop} [Session.IsFrame R]

theorem preserves_releaseRestorePoint_of (hrevert : (revertSavepoint restorePoint : Op σ Unit).Preserves R) :
    (releaseRestorePoint : Op σ Unit).Preserves R := by
  refine hrevert.observe.bind fun r => ?_
  cases r with
  | ok => exact preserves_pure ()
  | error e => exact preserves_warn _

theorem preserves_beginOperation_of (hopen : ∀ name, (openSavepoint name : Op σ Unit).Preserves R)
    (hrevert : (revertSavepoint restorePoint : Op σ Unit).Preserves R) (savepoint : String) :
    (beginOperation savepoint : Op σ Unit).Preserves R := by
  refine .ledger fun l => ?_
  by_cases hactive : l.isActive savepoint = true
  · rw [if_pos hactive]
    exact preserves_throw _
  rw [if_neg hactive]
  refine .ledger fun l => (hopen restorePoint).bind fun _ => ?_
  refine (hopen savepoint).observe.bind fun r => ?_
  cases r with
  | ok => exact preserves_pure ()
  | error e =>
    cases l.isActive restorePoint with
    | true => exact preserves_throw e
    | false => exact (preserves_releaseRestorePoint_of hrevert).bind fun _ => preserves_throw e

theorem preserves_abort_of {α : Type} {savepoint : String} (hrevert : (revertSavepoint savepoint : Op σ Unit).Preserves R)
    (e : SchemaError) : (abort savepoint e : Op σ α).Preserves R := by
  refine hrevert.observe.bind fun r => ?_
  cases r with
  | ok => exact preserves_throw e
  | error r => exact (preserves_warn _).bind fun _ => preserves_throw e

end

section
variable {R : Session σ → Session σ → Prop} [Session.IsEngineFrame R]

theorem preserves_changeLedger (f : Ledger → Ledger) : (modifyLedger f : Op σ Unit).Preserves R :=
  preserves_modifyLedger fun s => Session.IsEngineFrame.ledger s _

theorem preserves_openSavepoint (name : String) : (openSavepoint name : Op σ Unit).Preserves R := by
  refine .ledger fun l => ?_
  cases l.isActive name with
  | true => exact preserves_pure ()
  | false => exact (preserves_execute (Session.IsEngineFrame.savepoint name)).bind fun _ => preserves_changeLedger _

theorem preserves_releaseSavepoint (name : String) : (releaseSavepoint name : Op σ Unit).Preserves R :=
  (preserves_position name).bind fun _ => (preserves_execute (Session.IsEngineFrame.release name)).bind fun _ => preserves_changeLedger _

theorem preserves_revertSavepoint (name : String) : (revertSavepoint name : Op σ Unit).Preserves R :=
  (preserves_position name).bind fun _ => (preserves_execute (Session.IsEngineFrame.rollback name)).bind fun _ =>
    (preserves_execute (Session.IsEngineFrame.release name)).bind fun _ => preserves_changeLedger _

theorem preserves_beginOperation (savepoint : String) : (beginOperation savepoint : Op σ Unit).Preserves R :=
  preserves_beginOperation_of preserves_openSavepoint (preserves_revertSavepoint restorePoint) savepoint

theorem preserves_abort {α : Type} (savepoint : String) (e : SchemaError) : (abort savepoint e : Op σ α).Preserves R :=
  preserves_abort_of (preserves_revertSavepoint savepoint) e

theorem preserves_executeSql {sql : String} (h : Session.Allows R sql) (dirty : Bool) : (executeSql sql dirty : Op σ Nat).Preserves R := by
  cases dirty with
  | true => exact (preserves_openSavepoint restorePoint).bind fun _ => preserves_execute h
  | false => exact preserves_execute h

theorem preserves_executeScript {sql : String} (h : ∀ t ∈ Script.statements sql, Session.Allows R t) (signal : Signal) :
    (executeScript sql signal : Op σ Nat).Preserves R :=
  (preserves_openSavepoint restorePoint).bind fun _ => preserves_statements Session.IsEngineFrame.catalog h signal

/-- The setting is read, set and written back. -/
theorem preserves_renameRebuilt {source target : String} (h : Session.Allows R (renameTableSql source target)) :
    (renameRebuilt source target : Op σ Unit).Preserves R := by
  have hread : (pragma "legacy_alter_table" : Op σ String).Preserves R :=
    preserves_pragma "legacy_alter_table" Session.IsEngineFrame.readLegacyAlter
  have hset (b : Bool) : (execute ("PRAGMA legacy_alter_table = " ++ flag b) : Op σ Nat).Preserves R :=
    preserves_execute (Session.IsEngineFrame.setLegacyAlter b)
  refine hread.bind fun legacy => (hset true).bind fun _ => ?_
  refine (preserves_executeRename h).observe.bind fun renamed => ?_
  exact (hset (legacy == "1")).bind fun _ => preserves_ofExcept renamed

end

end Op

end SchemaEditor
