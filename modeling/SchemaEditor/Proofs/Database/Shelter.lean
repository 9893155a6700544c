import SchemaEditor.Proofs.Database.Calls
import SchemaEditor.Proofs.Engine.Shell

/-!
# What the restore point shelters

Outside all savepoints is what a database file would hold if the connection ended. What is done under the restore point does
not reach it. So an operation on a connection without savepoints has its changes pending under the restore point if it
succeeds, and if it fails it leaves what it found outside, even where it fails to revert. Less is asked of the engine here than
for changes that are reverted one by one: any request may fail, and a statement that fails may give up all savepoints.
-/

namespace SchemaEditor

variable {σ δ : Type}

/-! ## What the engine does -/

namespace EngineView

variable {v : EngineView σ δ} {e e' : σ}

/-- Savepoints and data are as they were. -/
structure Rests (v : EngineView σ δ) (e e' : σ) : Prop where
  saved : v.saved e' = v.saved e
  data : v.data e' = v.data e

theorem base_of_nil (h : v.saved e = []) : v.base e = v.data e := by rw [base, h]; rfl

/-- Outside all savepoints is the data that the outermost would bring back. -/
theorem base_of_head? {p : String × δ} (h : (v.saved e).head? = some p) : v.base e = p.2 := by rw [base, h]; rfl

theorem base_of_saved (hne : v.saved e ≠ []) (h : v.saved e' = v.saved e) : v.base e' = v.base e := by
  obtain ⟨p, rest, hp⟩ := List.exists_cons_of_ne_nil hne
  rw [base_of_head? (p := p) (by rw [h, hp]; rfl), base_of_head? (p := p) (by rw [hp]; rfl)]

/-- What a savepoint would bring back is there when it is opened. -/
theorem base_of_append {name : String} (h : v.saved e' = v.saved e ++ [(name, v.data e)]) : v.base e' = v.base e := by
  rw [base, base, h]
  cases v.saved e <;> rfl

theorem Rests.base (h : v.Rests e e') : v.base e' = v.base e := by rw [EngineView.base, EngineView.base, h.saved, h.data]

theorem Rests.refl (e : σ) : v.Rests e e := ⟨rfl, rfl⟩

theorem Rests.trans {e₁ e₂ e₃ : σ} (h : v.Rests e₁ e₂) (h' : v.Rests e₂ e₃) : v.Rests e₁ e₃ :=
  ⟨h'.saved.trans h.saved, h'.data.trans h.data⟩

end EngineView

section
variable [Engine σ] (v : EngineView σ δ)

/-- A text that leaves the savepoints open if it succeeds under one, and what is outside of them also if it fails there. -/
structure EngineView.Contained (sql : String) : Prop where
  ok {e e' : σ} {n : Nat} : v.saved e ≠ [] → Engine.execute sql e = (.ok n, e') → v.saved e' = v.saved e
  error {e e' : σ} {error : EngineError} : v.saved e ≠ [] → Engine.execute sql e = (.error error, e') → v.base e' = v.base e

/-- A query that only reads. -/
def EngineView.Reads (query : String) : Prop := ∀ e, v.Rests e (Engine.queryRows query e).2

/-- An engine of whose requests any may fail, but none reaches outside the savepoints but to release the outermost. -/
structure Sheltering : Prop where
  savepoint_ok {name : String} {e e' : σ} {n : Nat} : Engine.execute (savepointSql name) e = (.ok n, e') →
    v.saved e' = v.saved e ++ [(name, v.data e)] ∧ v.data e' = v.data e
  savepoint_error {name : String} {e e' : σ} {error : EngineError} : Engine.execute (savepointSql name) e = (.error error, e') →
    v.base e' = v.base e
  release_ok {name : String} {e e' : σ} {n : Nat} : Engine.execute (releaseSql name) e = (.ok n, e') →
    ∃ outer found, v.Finds e name outer found ∧ v.saved e' = outer ∧ v.data e' = v.data e
  /-- A transaction that cannot be committed is not committed in part. -/
  release_error {name : String} {e e' : σ} {error : EngineError} : Engine.execute (releaseSql name) e = (.error error, e') →
    v.base e' = v.base e
  rollback_ok {name : String} {e e' : σ} {n : Nat} : Engine.execute (rollbackSql name) e = (.ok n, e') →
    ∃ outer found, v.Finds e name outer found ∧ v.saved e' = outer ++ [found] ∧ v.data e' = found.2
  rollback_error {name : String} {e e' : σ} {error : EngineError} : Engine.execute (rollbackSql name) e = (.error error, e') →
    v.base e' = v.base e
  readLegacyAlter (e : σ) : v.Rests e (Engine.pragma "legacy_alter_table" e).2
  setLegacyAlter (b : Bool) (e : σ) : v.Rests e (Engine.execute ("PRAGMA legacy_alter_table = " ++ flag b) e).2
  readForeignKeys (e : σ) : v.Rests e (Engine.pragma "foreign_keys" e).2
  setForeignKeys (b : Bool) (e : σ) : v.Rests e (Engine.execute ("PRAGMA foreign_keys = " ++ flag b) e).2
  copy (p : RebuildPlan) : v.Contained p.copySql
  drop (table : String) : v.Contained ("DROP TABLE " ++ quoteIdentifier table)
  rename (source target : String) : v.Contained (renameTableSql source target)
  createImported (name : String) (header : List String) (width : Nat) : v.Contained (importedTable name header width).sql
  /-- A row may be refused in a way that gives up all savepoints. -/
  insertRow_ok {table : String} {row : List (Option String)} {e e' : σ} : v.saved e ≠ [] →
    Engine.insertRow table row e = (.ok (), e') → v.saved e' = v.saved e
  insertRow_error {table : String} {row : List (Option String)} {e e' : σ} {error : EngineError} : v.saved e ≠ [] →
    Engine.insertRow table row e = (.error error, e') → v.base e' = v.base e
  selectAll (name : String) : v.Reads ("SELECT * FROM " ++ quoteIdentifier name)

variable {v}

theorem EngineView.contained_of_quiet {sql : String} (h : v.Quiet sql) : v.Contained sql where
  ok {e e' n} _ hexec := by simpa [hexec] using (h e).saved
  error {e e' error} hne hexec := EngineView.base_of_saved hne (by simpa [hexec] using (h e).saved)

omit [Engine σ] in
/-- A name that the innermost savepoint has finds that one. -/
theorem EngineView.Finds.last {e : σ} {name : String} {outer outer' : List (String × δ)} {found p : String × δ}
    (h : v.Finds e name outer found) (hsaved : v.saved e = outer' ++ [p]) (hnamed : sameName p.1 name = true) :
    outer = outer' ∧ found = p := by
  obtain ⟨inner, hinner, hothers⟩ := h.saved
  rcases List.eq_nil_or_concat inner with rfl | ⟨between, last, rfl⟩
  · have heq := List.append_inj' (hinner.symm.trans hsaved) rfl
    exact ⟨heq.1, List.singleton_inj.mp heq.2⟩
  · -- the innermost would be another one of the name
    have hlast : last = p := by
      have heq : (outer ++ found :: between) ++ [last] = outer' ++ [p] := by
        rw [← hsaved, hinner]
        simp
      exact List.singleton_inj.mp (List.append_inj' heq rfl).2
    have hother := hothers last (by simp)
    rw [hlast, hnamed] at hother
    cases hother

end

/-- A shell keeps its repository under savepoints, whatever the repository is. -/
theorem Shell.sheltering [Repository δ] : Sheltering (Shell.view (δ := δ)) where
  savepoint_ok h := by
    obtain ⟨hsaved, hdata, -⟩ := Shell.transactional.savepoint_ok h
    exact ⟨hsaved, hdata⟩
  savepoint_error h := by
    have hsame := Shell.transactional.savepoint_error h
    exact EngineView.Rests.base ⟨hsame.saved, hsame.data⟩
  release_ok {name e e' n} h := by
    rw [show Engine.execute (releaseSql name) e = Shell.release name e from Shell.execute_release name e, Shell.release] at h
    cases hfound : innermost? name e.saved with
    | none =>
      rw [hfound] at h
      cases h
    | some r =>
      rw [hfound] at h
      cases h
      obtain ⟨hnamed, hinner⟩ := innermost?_eq_some hfound
      exact ⟨_, _, ⟨hinner, hnamed⟩, rfl, rfl⟩
  release_error {name e e' error} h := by
    rw [show Engine.execute (releaseSql name) e = Shell.release name e from Shell.execute_release name e, Shell.release] at h
    cases hfound : innermost? name e.saved with
    | none =>
      rw [hfound] at h
      cases h
      rfl
    | some r =>
      rw [hfound] at h
      cases h
  rollback_ok {name e e' n} h := by
    rw [show Engine.execute (rollbackSql name) e = Shell.rollback name e from Shell.execute_rollback name e, Shell.rollback] at h
    cases hfound : innermost? name e.saved with
    | none =>
      rw [hfound] at h
      cases h
    | some r =>
      rw [hfound] at h
      cases h
      obtain ⟨hnamed, hinner⟩ := innermost?_eq_some hfound
      exact ⟨_, _, ⟨hinner, hnamed⟩, rfl, rfl⟩
  rollback_error {name e e' error} h := by
    rw [show Engine.execute (rollbackSql name) e = Shell.rollback name e from Shell.execute_rollback name e, Shell.rollback] at h
    cases hfound : innermost? name e.saved with
    | none =>
      rw [hfound] at h
      cases h
      rfl
    | some r =>
      rw [hfound] at h
      cases h
  readLegacyAlter e := .refl e
  setLegacyAlter b e := by
    obtain ⟨n, e', hrun, hsaved, hdata, -⟩ := Shell.transactional.setLegacyAlter b e
    rw [hrun]
    exact ⟨hsaved, hdata⟩
  readForeignKeys e := .refl e
  setForeignKeys b e := by
    obtain ⟨n, e', hrun, hsame⟩ := Shell.transactional.setForeignKeys b e
    rw [hrun]
    exact ⟨hsame.saved, hsame.data⟩
  copy p := EngineView.contained_of_quiet (Shell.transactional.copy p)
  drop table := EngineView.contained_of_quiet (Shell.transactional.drop table)
  rename source target := EngineView.contained_of_quiet (Shell.transactional.rename source target)
  createImported name header width := EngineView.contained_of_quiet (Shell.transactional.createImported name header width)
  insertRow_ok {table row e e'} _ h := by
    have hkeeps := Shell.transactional.insertRow table row e
    rw [h] at hkeeps
    exact hkeeps.saved
  insertRow_error {table row e e' error} hne h := by
    have hkeeps := Shell.transactional.insertRow table row e
    rw [h] at hkeeps
    exact EngineView.base_of_saved hne hkeeps.saved
  selectAll _ e := .refl e

/-! ## Sessions -/

namespace Session

variable {v : EngineView σ δ} {s t : Session σ}

/-- What is outside all savepoints is as it was. -/
def SameBase (v : EngineView σ δ) (s t : Session σ) : Prop := v.base t.engine = v.base s.engine

instance (v : EngineView σ δ) : IsFrame (SameBase v) where
  alike h := congrArg v.base h.engine
  trans h h' := h'.trans h

/-- Savepoints, ledger and data are as they were. -/
structure Rests (v : EngineView σ δ) (s t : Session σ) : Prop where
  engine : v.Rests s.engine t.engine
  ledger : t.ledger = s.ledger

instance (v : EngineView σ δ) : IsFrame (Rests v) where
  alike h := ⟨h.engine ▸ .refl _, h.ledger⟩
  trans h h' := ⟨h.engine.trans h'.engine, h'.ledger.trans h.ledger⟩

theorem Rests.sameStack (h : s.Rests v t) : s.SameStack v t := ⟨h.ledger, h.engine.saved⟩

theorem Rests.sameBase (h : s.Rests v t) : s.SameBase v t := h.engine.base

theorem SameStack.sameBase (h : s.SameStack v t) (hne : v.saved s.engine ≠ []) : s.SameBase v t :=
  EngineView.base_of_saved hne h.saved

/-- Outside all savepoints is `d`. There are none and nothing is pending, or the restore point is open and no other. -/
def Sheltered (v : EngineView σ δ) (d : δ) (s : Session σ) : Prop :=
  (Open v [] s ∧ v.data s.engine = d) ∨ Open v [(restorePoint, d)] s

theorem Sheltered.base {d : δ} (h : s.Sheltered v d) : v.base s.engine = d := by
  rcases h with ⟨ho, hdata⟩ | ho
  · rw [EngineView.base_of_nil ho.saved, hdata]
  · exact EngineView.base_of_head? (by rw [ho.saved]; rfl)

theorem Rests.sheltered {d : δ} (h : s.Rests v t) (hs : s.Sheltered v d) : t.Sheltered v d :=
  hs.imp (fun ⟨ho, hdata⟩ => ⟨h.sameStack.open ho, h.engine.data.trans hdata⟩) fun ho => h.sameStack.open ho

theorem Alike.rests (h : s.Alike t) : s.Rests v t := IsFrame.alike h

end Session

namespace Op

variable {α β : Type} {v : EngineView σ δ}

/-! ## Work under a savepoint -/

/-- Under a savepoint the operation leaves ledger and savepoints alone if it succeeds, and what is outside also if it fails. -/
def IsContained (v : EngineView σ δ) (op : Op σ α) : Prop :=
  ∀ s : Session σ, v.saved s.engine ≠ [] → op.Ends s (fun _ t => s.SameStack v t) fun _ t => s.SameBase v t

theorem Preserves.isContained {op : Op σ α} (h : op.Preserves (Session.SameStack v)) : op.IsContained v :=
  fun s hne => (h s).mono (fun _ _ => id) fun _ _ ht => ht.sameBase hne

theorem IsContained.bind {op : Op σ α} {next : α → Op σ β} (h : op.IsContained v) (hnext : ∀ a, (next a).IsContained v) :
    (op >>= next).IsContained v := by
  intro s hne
  refine (h s hne).bind fun a t ht => ?_
  have hbase : s.SameBase v t := ht.sameBase hne
  exact (hnext a t (ht.saved ▸ hne)).mono (fun _ _ => Session.IsFrame.trans ht) fun _ _ => Session.IsFrame.trans hbase

theorem isContained_pure (a : α) : (pure a : Op σ α).IsContained v := (preserves_pure a).isContained

theorem isContained_checkSignal (signal : Signal) : (checkSignal signal : Op σ Unit).IsContained v :=
  (preserves_checkSignal signal).isContained

variable [Engine σ]

/-- A statement that may fail with what it fails with as a result. -/
theorem ends_tryExecute_contained {sql : String} (h : v.Contained sql) {s : Session σ} (hne : v.saved s.engine ≠ [])
    {P : Except EngineError Nat → Session σ → Prop} {E : SchemaError → Session σ → Prop} (hok : ∀ n t, s.SameStack v t → P (.ok n) t)
    (herror : ∀ e t, s.SameBase v t → P (.error e) t) : (tryExecute sql).Ends s P E := by
  refine ends_of_ok (tryExecute_eq sql s) ?_
  cases hr : Engine.execute sql s.engine with
  | mk r e =>
    cases r with
    | ok n => exact hok n _ ⟨rfl, h.ok hne hr⟩
    | error error => exact herror error _ (h.error hne hr)

theorem isContained_execute {sql : String} (h : v.Contained sql) : (execute sql : Op σ Nat).IsContained v := by
  intro s hne
  exact ends_bind (ends_tryExecute_contained h hne (fun _ _ ht => ht) fun _ _ ht => ht)

theorem isContained_executeRename {source target : String} (h : v.Contained (renameTableSql source target)) :
    (executeRename source target : Op σ Unit).IsContained v := by
  intro s hne
  exact ends_bind (ends_tryExecute_contained h hne (fun _ _ ht => ht) fun _ _ ht => ht)

theorem isContained_executeEach (signal : Signal) {statements : List String} (h : ∀ sql ∈ statements, v.Contained sql) (n : Nat) :
    (executeEach signal n statements : Op σ Unit).IsContained v := by
  induction statements generalizing n with
  | nil => exact isContained_pure ()
  | cons sql rest ih =>
    have hrest := ih fun next hnext => h next (List.mem_cons_of_mem sql hnext)
    refine (isContained_checkSignal signal).bind fun _ s hne => ?_
    refine ends_bind (ends_tryExecute_contained (h sql List.mem_cons_self) hne (fun _ t ht => ?_) fun _ _ ht => ht)
    have hbase : s.SameBase v t := ht.sameBase hne
    exact (hrest (n + 1) t (ht.saved ▸ hne)).mono (fun _ _ => Session.IsFrame.trans ht) fun _ _ => Session.IsFrame.trans hbase

theorem isContained_runSteps (signal : Signal) {steps : List (RebuildStep × String)} (h : ∀ step ∈ steps, v.Contained step.2) :
    (runSteps signal steps : Op σ Unit).IsContained v := by
  induction steps with
  | nil => exact isContained_pure ()
  | cons step rest ih =>
    have hrest := ih fun next hnext => h next (List.mem_cons_of_mem step hnext)
    refine (isContained_checkSignal signal).bind fun _ s hne => ?_
    refine ends_bind (ends_tryExecute_contained (h step List.mem_cons_self) hne (fun _ t ht => ?_) fun _ _ ht => ht)
    have hbase : s.SameBase v t := ht.sameBase hne
    exact (hrest t (ht.saved ▸ hne)).mono (fun _ _ => Session.IsFrame.trans ht) fun _ _ => Session.IsFrame.trans hbase

section
variable (laws : Sheltering v)
include laws

theorem isContained_insertRows (table : String) (width : Nat) (signal : Signal) (rows : List (List String)) :
    (insertRows table width signal rows : Op σ Unit).IsContained v := by
  induction rows with
  | nil => exact isContained_pure ()
  | cons row rows ih =>
    refine (isContained_checkSignal signal).bind fun _ => ?_
    have hrow : (do ofEngine (← request (Engine.insertRow table (paddedRow width row))) : Op σ Unit).IsContained v := by
      intro s hne
      refine ends_bind (ends_request fun answer u hu => ?_)
      cases answer with
      | ok => exact ⟨rfl, laws.insertRow_ok hne hu⟩
      | error e => exact laws.insertRow_error hne hu
    have hrows := hrow.bind fun _ => ih
    rwa [bind_assoc] at hrows

/-- Whatever the renaming came to, the setting is written back, and that reaches nothing. -/
theorem isContained_renameRebuilt (source target : String) : (renameRebuilt source target : Op σ Unit).IsContained v := by
  have hread : (pragma "legacy_alter_table" : Op σ String).Preserves (Session.SameStack v) :=
    preserves_pragma "legacy_alter_table" fun s => ⟨rfl, (laws.readLegacyAlter s.engine).saved⟩
  have hset (b : Bool) : (execute ("PRAGMA legacy_alter_table = " ++ flag b) : Op σ Nat).Preserves (Session.Rests v) :=
    preserves_execute fun s => ⟨laws.setLegacyAlter b s.engine, rfl⟩
  refine hread.isContained.bind fun legacy => ?_
  have hback : (execute ("PRAGMA legacy_alter_table = " ++ if legacy == "1" then "1" else "0") : Op σ Nat).Preserves (Session.Rests v) :=
    hset (legacy == "1")
  refine IsContained.bind (fun s _ => ?_) fun _ s hne => ?_
  · exact (hset true s).mono (fun _ _ ht => ht.sameStack) fun _ _ ht => ht.sameBase
  refine ends_bind (Ends.observe ((isContained_executeRename (laws.rename source target) s hne).mono (fun _ t ht => ?_) fun e t ht => ?_))
  · refine ends_bind ((hback t).mono (fun _ u hu => ?_) fun _ u hu => ?_)
    · exact Session.IsFrame.trans (R := Session.SameStack v) ht hu.sameStack
    · exact Session.IsFrame.trans (R := Session.SameBase v) (ht.sameBase hne) hu.sameBase
  · refine ends_bind ((hback t).mono (fun _ u hu => ?_) fun _ u hu => ?_)
    · exact Session.IsFrame.trans (R := Session.SameBase v) ht hu.sameBase
    · exact Session.IsFrame.trans (R := Session.SameBase v) ht hu.sameBase

theorem isContained_rebuild {p : RebuildPlan} {dependents : List SchemaObject} (h : p.IsQuiet v dependents) (signal : Signal) :
    (rebuild p dependents signal : Op σ _).IsContained v := by
  have hsteps : ∀ step ∈ p.steps, v.Contained step.2 := by
    intro step hstep
    simp only [RebuildPlan.steps, List.mem_cons, List.not_mem_nil, or_false] at hstep
    rcases hstep with rfl | rfl | rfl
    · exact EngineView.contained_of_quiet h.rebuilt
    · exact laws.copy p
    · exact laws.drop p.table
  have hdependents : ∀ o ∈ dependents, Session.Allows (Session.SameStack v) o.sql := fun o ho => allows_sameStack (h.dependents o ho)
  refine (isContained_runSteps signal hsteps).bind fun _ => (isContained_checkSignal signal).bind fun _ => ?_
  refine (isContained_renameRebuilt laws p.temporary p.table).bind fun _ => ?_
  refine (preserves_restoreDependents hdependents p.table).isContained.bind fun lost => ?_
  refine Preserves.isContained (.session fun s => ?_)
  by_cases hsuspended : s.foreignKeysSuspended = true
  · rw [if_pos hsuspended]
    exact preserves_checkForeignKeys.bind fun _ => preserves_pure lost
  · rw [if_neg hsuspended]
    exact preserves_pure lost

/-! ## Savepoints -/

theorem allows_savepoint_base (name : String) : Session.Allows (Session.SameBase v) (savepointSql name) := by
  intro s
  show v.base (Engine.execute (savepointSql name) s.engine).2 = v.base s.engine
  cases hr : Engine.execute (savepointSql name) s.engine with
  | mk r e =>
    cases r with
    | ok n => exact EngineView.base_of_append (laws.savepoint_ok hr).1
    | error error => exact laws.savepoint_error hr

theorem preserves_openSavepoint_base (name : String) : (openSavepoint name : Op σ Unit).Preserves (Session.SameBase v) := by
  refine .ledger fun l => ?_
  cases l.isActive name with
  | true => exact preserves_pure ()
  | false => exact (preserves_execute (allows_savepoint_base laws name)).bind fun _ => preserves_modifyLedger fun _ => rfl

/-- What is reverted is inside. -/
theorem preserves_revertSavepoint_base (name : String) : (revertSavepoint name : Op σ Unit).Preserves (Session.SameBase v) := by
  refine (preserves_position name).bind fun i s => ?_
  refine ends_bind (ends_execute (fun n u hu => ?_) fun _ u hu => laws.rollback_error hu)
  obtain ⟨outer, found, ⟨⟨inner, hinner, -⟩, hnamed⟩, hsaved, hdata⟩ := laws.rollback_ok hu
  have hrolled : v.base u = v.base s.engine := by
    rw [EngineView.base, EngineView.base, hsaved, hinner]
    cases outer <;> rfl
  refine ends_bind (ends_execute (fun m w hw => ?_) fun _ w hw => (laws.release_error hw).trans hrolled)
  obtain ⟨outer', found', hfinds, hsaved', hdata'⟩ := laws.release_ok hw
  obtain ⟨rfl, -⟩ := hfinds.last hsaved hnamed
  show v.base w = v.base s.engine
  rw [← hrolled, EngineView.base, EngineView.base, hsaved', hsaved, hdata', hdata]
  cases outer' <;> rfl

theorem ends_openSavepoint_sheltered {name : String} {s : Session σ} {outer : List (String × δ)} (ho : Session.Open v outer s)
    (hnot : s.ledger.isActive name = false) :
    (openSavepoint name).Ends s
      (fun _ t => Session.Open v (outer ++ [(name, v.data s.engine)]) t ∧ v.data t.engine = v.data s.engine) fun _ t => s.SameBase v t := by
  refine ends_ledger ?_
  rw [hnot]
  refine ends_bind (ends_execute (fun n u hu => ?_) fun _ u hu => laws.savepoint_error hu)
  obtain ⟨hsaved, hdata⟩ := laws.savepoint_ok hu
  refine ⟨⟨hsaved.trans (by rw [ho.saved]), ?_⟩, hdata⟩
  show s.ledger.active ++ [name] = _
  rw [ho.active, List.map_append]
  rfl

/-- The innermost savepoint is released, or what is outside all of them stays as it was. -/
theorem ends_releaseSavepoint_last {name : String} {d : δ} {s : Session σ} {outer : List (String × δ)}
    (ho : Session.Open v (outer ++ [(name, d)]) s) (hnot : name ∉ outer.map Prod.fst) :
    (releaseSavepoint name).Ends s (fun _ t => Session.Open v outer t ∧ v.data t.engine = v.data s.engine) fun _ t => s.SameBase v t := by
  refine (ends_position ho hnot).bind ?_
  rintro i t ⟨rfl, htake⟩
  refine ends_bind (ends_execute (fun n u hu => ?_) fun _ u hu => laws.release_error hu)
  obtain ⟨outer', found, hfinds, hsaved, hdata⟩ := laws.release_ok hu
  obtain ⟨rfl, -⟩ := hfinds.last ho.saved (sameName_refl name)
  exact ⟨⟨hsaved, htake⟩, hdata⟩

theorem preserves_resumeForeignKeys_rests : (resumeForeignKeys : Op σ Unit).Preserves (Session.Rests v) :=
  preserves_resumeForeignKeys (fun s => ⟨laws.setForeignKeys true s.engine, rfl⟩) fun _ _ => ⟨.refl _, rfl⟩

theorem preserves_suspendForeignKeys_rests : (suspendForeignKeys : Op σ Unit).Preserves (Session.Rests v) :=
  preserves_suspendForeignKeys (fun s => ⟨laws.readForeignKeys s.engine, rfl⟩) (fun s => ⟨laws.setForeignKeys false s.engine, rfl⟩)
    fun _ _ => ⟨.refl _, rfl⟩

omit laws in
theorem preserves_refreshCatalog_rests (signal : Signal) : (refreshCatalog signal : Op σ _).Preserves (Session.Rests v) :=
  preserves_refreshCatalog (fun _ _ => ⟨.refl _, rfl⟩) signal

/-! ## Changes -/

omit laws [Engine σ] in
theorem ends_trivial (op : Op σ α) (s : Session σ) : op.Ends s (fun _ _ => True) fun _ _ => True :=
  ends_of_forall_ok fun _ _ _ => trivial

omit laws in
theorem ends_abort_throws (savepoint : String) (e : SchemaError) (s : Session σ) :
    (abort savepoint e : Op σ α).Ends s (fun _ _ => False) fun _ _ => True := by
  refine Ends.bind (Ends.observe (P := fun _ _ => True) (ends_trivial _ s)) fun r t _ => ?_
  cases r with
  | ok => trivial
  | error => trivial

variable {savepoint : String} {s : Session σ}

/-- A change begins with its savepoint inside the restore point. -/
theorem ends_beginOperation_sheltered (hne : savepoint ≠ restorePoint) (ho : Session.Open v [] s) :
    (beginOperation savepoint).Ends s
      (fun _ t => Session.Open v ([(restorePoint, v.data s.engine)] ++ [(savepoint, v.data s.engine)]) t) fun _ t => s.SameBase v t := by
  have hbase := preserves_beginOperation_of (preserves_openSavepoint_base laws) (preserves_revertSavepoint_base laws restorePoint) savepoint s
  have hinactive (name : String) : s.ledger.isActive name = false := by simp [Ledger.isActive, ho.active]
  have hopen : (beginOperation savepoint).Ends s
      (fun _ t => Session.Open v ([(restorePoint, v.data s.engine)] ++ [(savepoint, v.data s.engine)]) t) fun _ _ => True := by
    refine ends_ledger ?_
    rw [hinactive savepoint]
    refine ends_ledger (ends_bind ((ends_openSavepoint_sheltered laws ho (hinactive restorePoint)).mono ?_ fun _ _ _ => trivial))
    rintro - t ⟨ht, hdata⟩
    have hnot : t.ledger.isActive savepoint = false := by simpa [Ledger.isActive, ht.active] using hne
    refine ends_bind (Ends.observe ((ends_openSavepoint_sheltered laws ht hnot).mono (fun _ u hu => ?_) fun e u _ => ?_))
    · have hopened := hu.1
      rw [hdata] at hopened
      exact hopened
    · -- the restore point is closed again, if that can be done
      rw [hinactive restorePoint]
      exact Ends.bind (ends_trivial _ u) fun _ _ _ => trivial
  exact (hopen.and hbase).mono (fun _ _ ht => ht.1) fun _ _ ht => ht.2

/-- A change ends with the restore point open, or with what is outside as it was. -/
theorem ends_finishOperation_sheltered {d d' : δ} (hne : savepoint ≠ restorePoint) (ho : Session.Open v ([(restorePoint, d)] ++ [(savepoint, d')]) s) :
    (finishOperation savepoint).Ends s (fun _ t => Session.Open v [(restorePoint, d)] t) fun _ t => s.SameBase v t := by
  refine ends_bind (ends_bind ((ends_releaseSavepoint_last laws ho (by simpa using hne)).mono ?_ fun _ _ => id))
  rintro - t ⟨ht, -⟩
  have hbase : s.SameBase v t := (Session.Sheltered.base (.inr ht)).trans (EngineView.base_of_head? (by rw [ho.saved]; rfl)).symm
  refine (preserves_resumeForeignKeys_rests laws t).mono (fun _ u hu => ?_) fun _ u hu => hu.sameBase.trans hbase
  refine ends_bind ((preserves_refreshCatalog_rests (v := v) Signal.never u).mono (fun _ w hw => ?_) fun _ w hw => ?_)
  · exact hw.sameStack.open (hu.sameStack.open ht)
  · exact hw.sameBase.trans (hu.sameBase.trans hbase)

/-- What a change did is pending under the restore point, or it is as if nothing had been done once the connection ends. -/
theorem ends_change_sheltered (hne : savepoint ≠ restorePoint) (ho : Session.Open v [] s) {body : Op σ α} (hbody : body.IsContained v) :
    (change savepoint body).Ends s (fun _ t => t.Sheltered v (v.data s.engine)) fun _ t => v.base t.engine = v.data s.engine := by
  have hs : v.base s.engine = v.data s.engine := EngineView.base_of_nil ho.saved
  refine ends_bind ((ends_beginOperation_sheltered laws hne ho).mono (fun _ t ht => ?_) fun _ _ ht => ht.trans hs)
  have hbase : v.base t.engine = v.data s.engine := EngineView.base_of_head? (by rw [ht.saved]; rfl)
  have hsaved : v.saved t.engine ≠ [] := by simp [ht.saved]
  refine ends_bind (Ends.observe ((hbody t hsaved).mono (fun a u hu => ?_) fun e u hu => ?_))
  · have hopen := hu.open ht
    refine ends_bind ((ends_finishOperation_sheltered laws hne hopen).mono (fun _ w hw => .inr hw) fun _ w hw => ?_)
    exact hw.trans (EngineView.base_of_head? (by rw [hopen.saved]; rfl))
  · have habort := preserves_abort_of (α := α) (preserves_revertSavepoint_base laws savepoint) e u
    have hthrown := ends_abort_throws (α := α) savepoint e u
    exact (habort.and hthrown).mono (fun _ _ h => h.2.elim) fun _ w hw => hw.1.trans (hu.trans hbase)

/-! ## Operations -/

theorem ends_transformColumn_sheltered {c : ColumnChange} (signal : Signal) (ho : Session.Open v [] s) (hq : QuietChange v s.catalog c) :
    (transformColumn c signal).Ends s (fun _ t => t.Sheltered v (v.data s.engine)) fun _ t => v.base t.engine = v.data s.engine := by
  have hidle : s.Sheltered v (v.data s.engine) := .inl ⟨ho, rfl⟩
  refine ends_transformColumn_of (fun _ _ _ hu hw => hw.rests.sheltered hu) (fun _ _ ht => (ht.rests.sheltered hidle).base) fun plan hplan t ht => ?_
  refine (preserves_suspendForeignKeys_rests laws t).mono (fun _ u hu => ?_) fun _ u hu => ?_
  · have hrests : s.Rests v u := Session.IsFrame.trans ht.rests hu
    have hchange := ends_change_sheltered laws (show "oxide_transform" ≠ restorePoint by decide) (hrests.sameStack.open ho)
      (isContained_rebuild laws (hq plan hplan) signal)
    rw [hrests.engine.data] at hchange
    refine hchange.mono (fun lost w hw => ?_) fun e w hw => ?_
    · exact (preserves_resumeForeignKeys_rests laws w).mono (fun _ _ hx => hx.sheltered hw) fun _ _ hx => (hx.sheltered hw).base
    · exact (preserves_resumeForeignKeys_rests laws w).mono (fun _ _ hx => hx.sameBase.trans hw) fun _ _ hx => hx.sameBase.trans hw
  · exact (hu.sheltered (ht.rests.sheltered hidle)).base

theorem ends_executeScript_sheltered {sql : String} (ho : Session.Open v [] s) (h : ∀ t ∈ Script.statements sql, v.Contained t)
    (signal : Signal) :
    (executeScript sql signal).Ends s (fun _ t => t.Sheltered v (v.data s.engine)) fun _ t => v.base t.engine = v.data s.engine := by
  have hs : v.base s.engine = v.data s.engine := EngineView.base_of_nil ho.saved
  have hinactive : s.ledger.isActive restorePoint = false := by simp [Ledger.isActive, ho.active]
  refine ends_bind ((ends_openSavepoint_sheltered laws ho hinactive).mono ?_ fun _ _ ht => ht.trans hs)
  rintro - t ⟨ht, -⟩
  have hbase : v.base t.engine = v.data s.engine := Session.Sheltered.base (.inr ht)
  have hrefresh : (refreshCatalog Signal.never : Op σ _).Preserves (Session.Rests v) := preserves_refreshCatalog_rests Signal.never
  have hsaved : v.saved t.engine ≠ [] := by simp [ht.saved]
  refine ends_bind (Ends.observe ((isContained_executeEach signal h 1 t hsaved).mono (fun _ u hu => ?_) fun e u hu => ?_))
  · refine ends_bind ((hrefresh u).mono (fun _ w hw => ?_) fun _ w hw => ?_)
    · have hopen := hw.sameStack.open (hu.open ht)
      exact .inr ⟨hopen.saved, hopen.active⟩
    · exact hw.sameBase.trans ((hu.sameBase hsaved).trans hbase)
  · refine ends_bind ((hrefresh u).mono (fun _ w hw => ?_) fun _ w hw => ?_)
    · exact hw.sameBase.trans (hu.trans hbase)
    · exact hw.sameBase.trans (hu.trans hbase)

omit laws [Engine σ] in
theorem preserves_writeRows {R : Session σ → Session σ → Prop} [Session.IsFrame R] (o : Csv.Options) (signal : Signal)
    (failure : Option SchemaError) (rows : List (List Value)) : (writeRows o signal failure rows : Op σ Written).Preserves R := by
  induction rows with
  | nil => exact preserves_pure _
  | cons row rows ih =>
    refine (preserves_poll signal).bind fun stop => ?_
    by_cases hstop : stop = true
    · rw [if_pos hstop]
      exact preserves_pure _
    · rw [if_neg hstop]
      exact ih.bind fun _ => preserves_pure _

omit laws in
theorem preserves_writeQuery {query : String} (h : v.Reads query) (o : Csv.Options) (signal : Signal) :
    (writeQuery query o signal : Op σ Written).Preserves (Session.Rests v) := by
  have hheader : (exportHeader query o : Op σ String).Preserves (Session.Rests v) := by
    unfold exportHeader
    by_cases hheader : o.header = true
    · rw [if_pos hheader]
      exact .session fun s => (preserves_ofEngine _).bind fun _ => preserves_pure _
    · rw [if_neg hheader]
      exact preserves_pure _
  refine hheader.bind fun _ => (preserves_request fun s => ⟨h s.engine, rfl⟩).bind fun result => ?_
  refine (preserves_writeRows o signal _ result.rows).bind fun w => ?_
  by_cases hcomplete : w.failure.isNone = true
  · rw [if_pos hcomplete]
    exact (preserves_note _).bind fun _ => preserves_pure _
  · rw [if_neg hcomplete]
    exact preserves_pure _

theorem preserves_writeTable (name : String) (o : Csv.Options) (signal : Signal) :
    (writeTable name o signal : Op σ Written).Preserves (Session.Rests v) := by
  refine .catalog fun c => ?_
  cases c.get? name with
  | none => exact preserves_throw _
  | some object => exact preserves_writeQuery (laws.selectAll object.name) o signal

/-- A session ends with its data outside all savepoints, or with what was there before. -/
theorem ends_settle_sheltered {d : δ} (hs : s.Sheltered v d) (action : CloseAction) :
    (settle action).Ends s
      (fun _ t => v.base t.engine = match action with | .commit => v.data s.engine | .rollback => d) fun _ t => v.base t.engine = d := by
  cases action with
  | rollback =>
    have hrevert : (revertAll : Op σ Unit).Preserves (Session.SameBase v) := preserves_settleAll (preserves_revertSavepoint_base laws)
    exact ends_bind ((hrevert s).mono (fun _ t ht => ht.trans hs.base) fun _ t ht => ht.trans hs.base)
  | commit =>
    refine ends_bind ?_
    rcases hs with ⟨ho, -⟩ | ho
    · exact ends_of_ok (settleAll_done (by simp [ho.active])) (EngineView.base_of_nil ho.saved)
    · have hrelease := ends_releaseSavepoint_last laws (show Session.Open v ([] ++ [(restorePoint, d)]) s from ho) (by simp)
      refine ends_settleAll_last (by simp [ho.active]) (hrelease.mono ?_ fun _ t ht => ?_)
      · rintro - t ⟨ht, hdata⟩
        exact ends_of_ok (settleAll_done (by simp [ht.active])) ((EngineView.base_of_nil ht.saved).trans hdata)
      · exact ht.trans (Session.Sheltered.base (.inr ho))

end

end Op

namespace SchemaChange

variable [Engine σ] {v : EngineView σ δ}

/-- What a call does stays inside, if its texts do. -/
theorem Does.isContained (laws : Sheltering v) {change : SchemaChange} {α : Type} {body : Op σ α} (h : change.Does body)
    {catalog : Catalog} (htexts : ∀ sql ∈ change.texts catalog, v.Quiet sql) : body.IsContained v := by
  cases h with
  | createTable t => exact Op.isContained_execute (EngineView.contained_of_quiet (htexts t.sql (by simp [texts, columnChange?])))
  | addColumn table f =>
    exact Op.isContained_execute (EngineView.contained_of_quiet (htexts (addColumnSql table f) (by simp [texts, columnChange?])))
  | renameTable source target => exact Op.isContained_executeRename (laws.rename source target)
  | insertRows width rows => exact Op.isContained_insertRows laws _ width _ rows
  | @importTable table _ _ _ header width rows =>
    exact (Op.isContained_execute (laws.createImported table header width)).bind fun _ => Op.isContained_insertRows laws _ width _ rows

theorem ends_run_sheltered (laws : Sheltering v) (change : SchemaChange) {s : Session σ} (ho : Session.Open v [] s)
    (hq : change.IsQuiet v s.catalog) :
    (change.run).Ends s (fun _ t => t.Sheltered v (v.data s.engine)) fun _ t => v.base t.engine = v.data s.engine := by
  have hidle (t : Session σ) (ht : s.Alike t) : t.Sheltered v (v.data s.engine) := ht.rests.sheltered (.inl ⟨ho, rfl⟩)
  refine ends_run change (fun _ _ hu hw => hw.rests.sheltered hu) hidle (fun t ht => (hidle t ht).base) (fun body hbody t ht => ?_)
    fun c signal hc => Op.ends_transformColumn_sheltered laws signal ho (hq.quietChange hc)
  have hend := Op.ends_change_sheltered laws change.savepoint_ne_restorePoint (ht.rests.sameStack.open ho)
    (hbody.isContained laws (isQuiet_iff.mp hq))
  rwa [ht.engine] at hend

end SchemaChange

end SchemaEditor
