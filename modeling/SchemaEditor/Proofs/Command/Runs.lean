import SchemaEditor.Command.Run
import SchemaEditor.Proofs.Command.Files
import SchemaEditor.Proofs.Database.Shelter
import SchemaEditor.Proofs.Engine.Tables
import SchemaEditor.Store.Connection

/-!
# Runs are all or nothing

A run does its work under the restore point, and what it leaves in the file of the database is either all that it did or what
it found. This rests on a command that writes nothing else over the database, and on SQL that neither settles savepoints nor
changes anything outside of them: the scripts, definitions and queries of a command are its caller's affair.
-/

namespace SchemaEditor

variable {σ φ δ : Type}

/-- A connection that ends leaves in its file what is outside all savepoints, and the next one finds it there. -/
structure EngineView.Persists [Storage σ φ] (v : EngineView σ δ) (kept : δ → φ) : Prop where
  openFile (content : φ) (access : Access) :
    v.saved (Storage.openFile content access : σ) = [] ∧ kept (v.data (Storage.openFile content access : σ)) = content
  close (e : σ) : Storage.close e = kept (v.base e)

theorem Shell.persists [Repository δ] : (Shell.view (δ := δ)).Persists id where
  openFile _ _ := ⟨rfl, rfl⟩
  close _ := rfl

/-- An operation whose result is not looked at ends as it does otherwise. -/
theorem Op.Ends.of_ignoring {α : Type} {op : Op σ α} {s : Session σ} {P E : Session σ → Prop}
    (h : (do let _ ← op : Op σ Unit).Ends s (fun _ => P) fun _ => E) : op.Ends s (fun _ => P) fun _ => E := by
  cases hop : op s with
  | ok a t =>
    have hrun : (do let _ ← op : Op σ Unit) s = .ok () t := by
      show EStateM.bind op _ s = _
      unfold EStateM.bind
      rw [hop]
      rfl
    exact ends_of_ok hop (h.ok hrun)
  | error e t =>
    have hrun : (do let _ ← op : Op σ Unit) s = .error e t := by
      show EStateM.bind op _ s = _
      unfold EStateM.bind
      rw [hop]
    exact ends_of_error hop (h.error hrun)

namespace Command

/-! ## What stands in files -/

/-- What an engine makes of the file at a location; a new database, if there is none. -/
def Files.databaseIn (σ : Type) [Storage σ φ] (files : Files φ) (l : Location) : Except SchemaError φ :=
  match files.content? l with
  | none => .ok (Storage.empty σ)
  | some (.bytes bytes) => contentOfBytes (σ := σ) bytes
  | some (.database content) => .ok content

section
variable [Storage σ φ] {files : Files φ} {path : String} {l : Location} {readOnly : Bool} {file : DatabaseFile φ}

theorem findDatabase_eq_ok (hplace : files.place path = .file l readOnly) (h : findDatabase files path = .ok file) :
    file = files.databaseAt (.file l readOnly) ∨ ∃ bytes, files.content? l = some (.bytes bytes) ∧ file = .unseen bytes := by
  unfold findDatabase at h
  rw [hplace] at h
  cases hthere : files.isThere path with
  | error e => rw [hthere] at h; cases h
  | ok there =>
    rw [hthere] at h
    cases there with
    | true =>
      simp only [bind, Except.bind, pure, Except.pure, if_true] at h
      split at h
      · cases h
      · split at h
        · cases h
        · cases h
          exact .inl rfl
    | false =>
      simp only [bind, Except.bind, pure, Except.pure, Bool.false_eq_true, if_false] at h
      rw [Files.databaseAt_file] at h ⊢
      generalize files.content? l = found at h ⊢
      match found with
      | none => cases h; exact .inl rfl
      | some (.bytes bytes) => cases h; exact .inr ⟨bytes, rfl, rfl⟩
      | some (.database content) => cases h; exact .inl rfl

/-- What a connection finds is what stands at the place of the database. -/
theorem databaseIn_of_contentOf (hplace : files.place path = .file l readOnly) (hfind : findDatabase files path = .ok file)
    {o : DatabaseOptions} (hcreate : o.createIfMissing = true) {content : φ} (h : contentOf (σ := σ) path file o = .ok content) :
    files.databaseIn σ l = .ok content := by
  unfold Files.databaseIn
  rcases findDatabase_eq_ok hplace hfind with rfl | ⟨bytes, hbytes, rfl⟩
  · rw [Files.databaseAt_file] at h
    generalize files.content? l = found at h ⊢
    match found with
    | none => simpa [contentOf, hcreate] using h
    | some (.database found) => exact h
    | some (.bytes bytes) =>
      unfold contentOf at h
      dsimp only at h
      split at h
      · exact h
      · cases h
  · rw [hbytes]
    exact h

variable [Engine σ] {v : EngineView σ δ} {kept : δ → φ}

/-- A session on a file has the connection as it was opened, and no savepoints. -/
theorem rests_of_openFile {o : DatabaseOptions} {s : Session σ} (h : Session.openFile path file o = .ok s) : ∃ content access,
    contentOf (σ := σ) path file o = .ok content ∧ v.Rests (Storage.openFile content access) s.engine ∧ s.ledger.active = [] := by
  unfold Session.openFile connect at h
  cases hcontent : contentOf (σ := σ) path file o with
  | error e => rw [hcontent] at h; cases h
  | ok content =>
    have h : (Session.start (Storage.openFile content { foreignKeys := o.foreignKeys, readOnly := o.readOnly } : σ) (some path) >>=
        fun s => .ok (s.report (.noted (.opened path)))) = .ok s := by rwa [hcontent] at h
    unfold Session.start at h
    have hrefresh := Op.preserves_refreshCatalog_rests (v := v) Signal.never
      { engine := (Storage.openFile content { foreignKeys := o.foreignKeys, readOnly := o.readOnly } : σ), location := some path }
    split at h
    · next hrun =>
      cases h
      have hrests := hrefresh.ok hrun
      exact ⟨content, _, rfl, hrests.engine, congrArg Ledger.active hrests.ledger⟩
    · cases h

/-- A connection begins without savepoints, on what stands at the place of the database. -/
theorem open_of_openDatabase (storage : v.Persists kept) (hplace : files.place path = .file l readOnly) {settings : Settings} {s : Session σ}
    (h : openDatabase files path settings = .ok s) :
    Session.Open v [] s ∧ files.databaseIn σ l = .ok (kept (v.data s.engine)) := by
  unfold openDatabase at h
  cases hfind : findDatabase files path with
  | error e => rw [hfind] at h; cases h
  | ok file =>
    rw [hfind] at h
    simp only [Except.mapError, bind, Except.bind] at h
    generalize hoptions : DatabaseOptions.mk settings.foreignKeys true _ = o at h
    cases hopen : (Session.openFile path file o : Except SchemaError (Session σ)) with
    | error e => rw [hopen] at h; cases h
    | ok opened =>
      rw [hopen] at h
      cases h
      obtain ⟨content, access, hcontent, hrests, hactive⟩ := rests_of_openFile (v := v) hopen
      obtain ⟨hsaved, hkept⟩ := storage.openFile content access
      rw [databaseIn_of_contentOf hplace hfind (by rw [← hoptions]) hcontent, hrests.data, hkept]
      exact ⟨⟨hrests.saved.trans hsaved, hactive⟩, rfl⟩

end

/-! ## What a command does -/

namespace Run

variable {α β : Type}

/-- How a command ends: with a result and a session, or with a session. -/
def Ends (run : Run σ α) (s : Session σ) (P : α → Session σ → Prop) (E : Session σ → Prop) : Prop :=
  match run s with
  | .ok a t => P a t
  | .error _ t => E t

section
variable {run : Run σ α} {next : α → Run σ β} {s : Session σ} {P P' : α → Session σ → Prop} {Q : β → Session σ → Prop}
  {E E' : Session σ → Prop}

theorem Ends.mono (h : run.Ends s P E) (hP : ∀ a t, P a t → P' a t) (hE : ∀ t, E t → E' t) : run.Ends s P' E' := by
  unfold Ends at h ⊢
  cases hrun : run s with
  | ok a t => rw [hrun] at h; exact hP a t h
  | error e t => rw [hrun] at h; exact hE t h

theorem ends_bind (h : run.Ends s (fun a t => (next a).Ends t Q E) E) : (run >>= next).Ends s Q E := by
  unfold Ends at h
  show match EStateM.bind run next s with | .ok b t => Q b t | .error _ t => E t
  unfold EStateM.bind
  cases hrun : run s with
  | ok a t => rw [hrun] at h; exact h
  | error e t => rw [hrun] at h; exact h

theorem ends_ofOp {op : Op σ α} (h : op.Ends s P fun _ => E) : (ofOp op).Ends s P E := by
  unfold Op.Ends at h
  unfold Ends ofOp
  cases hop : op s with
  | ok a t => rw [hop] at h; exact h
  | error e t => rw [hop] at h; exact h

theorem ends_ofExcept {r : Except Failure α} (hok : ∀ a, r = .ok a → P a s) (herror : E s) : (ofExcept r).Ends s P E := by
  cases r with
  | ok a => exact hok a rfl
  | error f => exact herror

end

end Run

/-- The change of the schema that a command asks for, if it is not an import. -/
def Action.change? : Action → Option SchemaChange
  | .createTable name columns withoutRowid =>
    (Run.tableOf name columns).toOption.map fun t => .createTableFrom (if withoutRowid then t.setWithoutRowid true else t)
  | .addColumn table definition => (Run.fieldOf definition).toOption.map (.addColumn table)
  | .renameColumn table column name => some (.renameColumn table column name Signal.never)
  | .modifyColumn table column definition =>
    (Run.fieldOf definition).toOption.map fun f => .modifyColumn table column f Signal.never
  | .moveColumn table column offset => some (.moveColumn table column offset Signal.never)
  | .dropColumn table column => some (.dropColumn table column Signal.never)
  | .renameTable source target => some (.renameTable source target)
  | _ => none

/-- The SQL of a command stays inside: a query only reads, a script settles no savepoints, and nor does what a change of the
schema brings along. -/
def Action.IsContained [Engine σ] (v : EngineView σ δ) (around : Surroundings φ) (catalog : Catalog) : Action → Prop
  | .exportCsv source true _ _ => v.Reads source
  | .execute script => ∀ sql, Run.scriptText around script = .ok sql → ∀ t ∈ Script.statements sql, v.Contained t
  | action => ∀ change, action.change? = some change → change.IsQuiet v catalog

namespace Run

variable [Engine σ] {v : EngineView σ δ} {around : Surroundings φ} {s : Session σ}

/-- A command that fails leaves outside what it found there, and one that succeeds has its changes pending or made none. -/
theorem ends_perform (laws : Sheltering v) (ho : Session.Open v [] s) (settings : Settings) {action : Action} (h : action.IsContained v around s.catalog) :
    (perform around settings action).Ends s (fun _ t => t.Sheltered v (v.data s.engine)) fun t => v.base t.engine = v.data s.engine := by
  have hidle : s.Sheltered v (v.data s.engine) := .inl ⟨ho, rfl⟩
  have hchange {change : SchemaChange} (hq : change.IsQuiet v s.catalog) :
      (change.run).Ends s (fun _ t => t.Sheltered v (v.data s.engine)) fun _ t => v.base t.engine = v.data s.engine :=
    change.ends_run_sheltered laws ho hq
  have hrebuilding {op : Op σ RebuildReport}
      (hop : op.Ends s (fun _ t => t.Sheltered v (v.data s.engine)) fun _ t => v.base t.engine = v.data s.engine) :
      (rebuilding op).Ends s (fun _ t => t.Sheltered v (v.data s.engine)) fun t => v.base t.engine = v.data s.engine :=
    ends_bind (ends_ofOp hop)
  cases action with
  | listObjects => exact hidle
  | showSchema name =>
    refine ends_bind (ends_ofOp (Op.ends_of_ok rfl ?_))
    cases s.catalog.get? name with
    | some o => exact hidle
    | none => exact hidle.base
  | createTable name columns withoutRowid =>
    refine ends_bind (ends_ofExcept (fun t ht => ends_bind (ends_ofOp ?_)) hidle.base)
    exact hchange (h (.createTableFrom _) (by rw [Action.change?, ht]; rfl))
  | addColumn table definition =>
    refine ends_bind (ends_ofExcept (fun f hf => ends_bind (ends_ofOp ?_)) hidle.base)
    exact hchange (h (.addColumn table f) (by rw [Action.change?, hf]; rfl))
  | renameColumn table column name => exact hrebuilding (Op.Ends.of_ignoring (hchange (h _ rfl)))
  | modifyColumn table column definition =>
    refine ends_bind (ends_ofExcept (fun f hf => hrebuilding (Op.Ends.of_ignoring ?_)) hidle.base)
    exact hchange (h (.modifyColumn table column f Signal.never) (by rw [Action.change?, hf]; rfl))
  | moveColumn table column offset => exact hrebuilding (Op.Ends.of_ignoring (hchange (h _ rfl)))
  | dropColumn table column => exact hrebuilding (Op.Ends.of_ignoring (hchange (h _ rfl)))
  | renameTable source target => exact ends_bind (ends_ofOp (hchange (h _ rfl)))
  | importCsv table file format =>
    show (Run.importCsv around settings table file format).Ends s _ _
    unfold Run.importCsv
    dsimp only
    split
    · exact hidle.base
    · exact hidle.base
    · next bytes _ =>
      have himport : (SchemaChange.importCsv table (Csv.linesOfBytes bytes) (format.apply settings.importCsv) Signal.never).IsQuiet v s.catalog :=
        fun c signal hc => by cases hc
      exact ends_bind (ends_ofOp (Op.Ends.of_ignoring (hchange himport)))
  | exportCsv source isQuery output format =>
    have hwrite : (Run.writeRows isQuery source (format.apply settings.exportCsv) : Run σ Written).Ends s
        (fun _ t => t.Sheltered v (v.data s.engine)) fun t => v.base t.engine = v.data s.engine := by
      have hrests : (if isQuery then Op.writeQuery source (format.apply settings.exportCsv) Signal.never
          else Op.writeTable source (format.apply settings.exportCsv) Signal.never : Op σ Written).Preserves (Session.Rests v) := by
        cases isQuery with
        | true => exact Op.preserves_writeQuery h _ _
        | false => exact Op.preserves_writeTable laws source _ _
      exact ends_ofOp ((hrests s).mono (fun _ _ ht => ht.sheltered hidle) fun _ _ ht => (ht.sheltered hidle).base)
    show (Run.exportCsv settings source isQuery output format).Ends s _ _
    unfold Run.exportCsv
    refine ends_bind (hwrite.mono (fun written t ht => ?_) fun _ => id)
    cases output <;> cases written.failure <;> exact ht
  | execute script =>
    refine ends_bind (ends_ofExcept (fun sql hsql => ends_bind (ends_ofOp ?_)) hidle.base)
    refine (Op.ends_executeScript_sheltered laws ho (h sql hsql) Signal.never).mono (fun n t ht => ?_) fun _ _ => id
    refine ends_bind (ends_ofOp ((Op.onlyReads_note _ t).mono (fun _ u hu => ?_) fun _ _ => False.elim))
    exact hu.rests.sheltered ht

/-- What a command did is kept, or reverted in a dry run. -/
theorem ends_finish (laws : Sheltering v) {d : δ} (hs : s.Sheltered v d) (dryRun : Bool) :
    (finish dryRun).Ends s (fun _ t => v.base t.engine = if dryRun then d else v.data s.engine) fun t => v.base t.engine = d := by
  refine ends_bind (ends_ofOp (show (if (dryRun && s.isDirty) = true then _ else _ : Run σ Unit).Ends s _ _ from ?_))
  by_cases hrevert : (dryRun && s.isDirty) = true
  · rw [if_pos hrevert, if_pos (Bool.and_eq_true_iff.mp hrevert).1]
    refine ends_bind (ends_ofOp ((Op.onlyReads_note _ s).mono (fun _ t ht => ends_ofOp ?_) fun _ _ => False.elim))
    exact Op.ends_settle_sheltered laws (ht.rests.sheltered hs) .rollback
  · rw [if_neg hrevert]
    refine ends_ofOp ((Op.ends_settle_sheltered laws hs .commit).mono (fun _ t ht => ?_) fun _ _ => id)
    rw [ht]
    cases dryRun with
    | false => rfl
    | true =>
      -- nothing is pending, so there is nothing that could be lost
      rcases hs with ⟨-, hdata⟩ | ho
      · exact hdata
      · simp [Session.isDirty, Ledger.isDirty, ho.active] at hrevert

end Run

/-! ## Whole runs -/

/-- A command writes neither its settings nor what it puts out over a database. -/
structure Invocation.Spares (i : Invocation) (files : Files φ) (l : Location) : Prop where
  settings : files.nominal i.settings ≠ l
  output {source path : String} {isQuery : Bool} {format : CsvFormat} : i.action = .exportCsv source isQuery (some path) format →
    files.nominal path ≠ l

/-- The surroundings of a command once its output is begun. -/
def Surroundings.begun (around : Surroundings φ) (action : Action) : Surroundings φ :=
  match createdFile around.files action with
  | .ok (some l) => { around with files := around.files.put l (.ofText "") }
  | _ => around

section
variable [Engine σ] [Storage σ φ] {v : EngineView σ δ} {kept : δ → φ} {around : Surroundings φ} {i : Invocation} {settings : Settings} {s : Session σ}
  {files : Files φ} {l : Location} {readOnly : Bool}

theorem createdFile_eq_ok {files : Files φ} {action : Action} {l : Location} (h : createdFile files action = .ok (some l)) :
    ∃ source isQuery path format, action = .exportCsv source isQuery (some path) format ∧ l = files.nominal path := by
  unfold createdFile at h
  split at h
  · next source isQuery path format =>
    cases hwritable : files.writable path with
    | error e => rw [hwritable] at h; cases h
    | ok l' =>
      rw [hwritable] at h
      cases h
      exact ⟨source, isQuery, path, format, rfl, Files.nominal_of_writable hwritable⟩
  · cases h

/-- The file of a database that was opened is there. -/
theorem filesOnOpening_place {path : String} (hplace : files.place path = .file l readOnly) :
    (filesOnOpening files path).place path = .file l readOnly ∧ (filesOnOpening files path).isFile l = true ∧
      (filesOnOpening files path).here = files.here := by
  unfold filesOnOpening Files.putDatabase
  rw [hplace, Files.databaseAt_file]
  cases hcontent : files.content? l with
  | none =>
    have hfile : (files.put l (.bytes [])).isFile l = true := by rw [Files.isFile, Files.content?_put]; rfl
    refine ⟨Files.place_of_file hplace (Files.here_put _ _ _) (fun _ h => by rwa [Files.isDirectory_put]) ?_ hfile, hfile, Files.here_put _ _ _⟩
    rw [Files.isDirectory_put]
    exact Files.not_isDirectory_of_place hplace
  | some content =>
    have hfile : files.isFile l = true := by rw [Files.isFile, hcontent]; rfl
    cases content <;> exact ⟨hplace, hfile, rfl⟩

/-- Where something else stands is not the place of the database. -/
theorem isPlaceOf_of_ne {path : String} (hplace : files.place path = .file l readOnly) {other : Location} (hne : other ≠ l) :
    files.isPlaceOf path other = false := by
  unfold Files.isPlaceOf
  rw [hplace]
  simpa using hne.symm

theorem leaves_saveSettings {path : String} (hne : files.nominal path ≠ l) (settings : Option Settings) :
    files.Leaves l (saveSettings path settings files).2 := by
  unfold saveSettings
  cases settings with
  | none => exact .refl l files
  | some settings =>
    have hsave := Files.leavesFile_save hne settings.render
    unfold Files.LeavesFile at hsave
    dsimp only
    cases hrun : Files.save path settings.render files with
    | ok _ saved => rw [hrun] at hsave; exact hsave
    | error e saved => rw [hrun] at hsave; exact hsave

/-- A run that ends leaves the file of the database to the engine. What is outside all savepoints then is as it was if the run
failed, and otherwise as it should be. -/
structure Ending.Ends (v : EngineView σ δ) (l : Location) (files : Files φ) (d : δ) (P : δ → Prop) (e : Ending σ φ) : Prop where
  files : files.Leaves l e.files
  overwritten : e.overwritten = false
  failure : e.failure.isSome = true → v.base e.session.engine = d
  success : e.failure.isSome = false → P (v.base e.session.engine)

omit [Storage σ φ] in
theorem ends_settleRun (laws : Sheltering v) {e : Ending σ φ} {d : δ} (hs : e.session.Sheltered v d) (hover : e.overwritten = false)
    (hfailure : e.failure = none) (hplace : e.files.place i.database = .file l readOnly) (hfile : e.files.isFile l = true)
    (hne : e.files.nominal i.settings ≠ l) (settings : Option Settings) :
    (settleRun i settings e).Ends v l e.files d fun d' => d' = if i.dryRun then d else v.data e.session.engine := by
  have hleaves := leaves_saveSettings hne settings
  unfold settleRun
  generalize saveSettings i.settings settings e.files = saved at hleaves
  obtain ⟨f, files⟩ := saved
  cases f with
  | some f => exact ⟨hleaves, hover, fun _ => hs.base, nofun⟩
  | none =>
    have hsaved : (settings.bind fun _ => (files.writable i.settings).toOption).any (files.isPlaceOf i.database) = false := by
      rw [Option.any_eq_false]
      intro other hother
      obtain ⟨_, -, hwritable⟩ := Option.bind_eq_some_iff.mp hother
      have hother : other = e.files.nominal i.settings := by
        cases hw : files.writable i.settings with
        | error e => rw [hw] at hwritable; cases hwritable
        | ok w =>
          rw [hw] at hwritable
          cases hwritable
          exact (Files.nominal_of_writable hw).trans (Files.nominal_of_here hleaves.here _)
      simpa using isPlaceOf_of_ne (Files.Leaves.place hplace hfile hleaves) (hother ▸ hne)
    have hfinish := Run.ends_finish laws hs i.dryRun
    unfold Run.Ends at hfinish
    dsimp only
    rw [hover, hsaved]
    cases hrun : Run.finish i.dryRun e.session with
    | ok _ t => rw [hrun] at hfinish; exact ⟨hleaves, rfl, by simp [hfailure], fun _ => hfinish⟩
    | error f t => rw [hrun] at hfinish; exact ⟨hleaves, rfl, fun _ => hfinish, nofun⟩

theorem ends_runOn (laws : Sheltering v) (ho : Session.Open v [] s) (around : Surroundings φ) (settings : Settings) (hplace : around.files.place i.database = .file l readOnly)
    (hfile : around.files.isFile l = true) (hspares : i.Spares around.files l)
    (h : i.action.IsContained v (around.begun i.action) s.catalog) :
    (runOn around i settings s).Ends v l around.files (v.data s.engine) fun d =>
      ∃ result t, Run.perform (around.begun i.action) settings i.action (takeLog s).2 = .ok result t ∧
        d = if i.dryRun then v.data s.engine else v.data t.engine := by
  have hperform := Run.ends_perform laws (show Session.Open v [] (takeLog s).2 from ⟨ho.saved, ho.active⟩) settings h
  unfold runOn
  cases hcreated : createdFile around.files i.action with
  | error f => exact ⟨.refl l _, rfl, fun _ => EngineView.base_of_nil ho.saved, nofun⟩
  | ok created =>
    have hother (other : Location) (h : created = some other) : other ≠ l := by
      subst h
      obtain ⟨source, isQuery, path, format, haction, rfl⟩ := createdFile_eq_ok hcreated
      exact hspares.output haction
    have hwrite (text : String) (f : Files φ) : f.Leaves l ((created.map fun other => f.put other (.ofText text)).getD f) := by
      cases created with
      | none => exact .refl l f
      | some other => exact Files.leaves_put (hother other rfl) _
    have hover : created.any (around.files.isPlaceOf i.database) = false := by
      rw [Option.any_eq_false]
      intro other h
      simpa using isPlaceOf_of_ne hplace (hother other h)
    have hbegun : around.begun i.action = { around with files := (created.map fun other => around.files.put other (.ofText "")).getD around.files } := by
      unfold Surroundings.begun
      rw [hcreated]
      cases created <;> rfl
    have hbefore := hwrite "" around.files
    rw [hbegun] at hperform ⊢
    dsimp only
    rw [hover, if_neg Bool.false_ne_true]
    generalize (created.map fun other => around.files.put other (.ofText "")).getD around.files = before at hperform hbefore ⊢
    unfold Run.Ends at hperform
    cases hrun : Run.perform { around with files := before } settings i.action (takeLog s).2 with
    | error f t =>
      rw [hrun] at hperform
      exact ⟨hbefore, rfl, fun _ => hperform, nofun⟩
    | ok result t =>
      rw [hrun] at hperform
      have hperform : t.Sheltered v (v.data s.engine) := hperform
      have halike : t.Alike (takeLog t).2 := ⟨rfl, rfl, rfl, rfl⟩
      have hsheltered : (takeLog t).2.Sheltered v (v.data s.engine) := halike.rests.sheltered hperform
      have hleaves := hbefore.trans (hwrite (result.file.getD "") before)
      dsimp only
      by_cases hfailure : result.failure.isSome = true
      · rw [if_pos hfailure]
        exact ⟨hleaves, rfl, fun _ => hsheltered.base, fun hsuccess => by simp [hfailure] at hsuccess⟩
      · rw [if_neg hfailure]
        have hnominal := Files.nominal_of_here hleaves.here i.settings
        have hplace' := Files.Leaves.place hplace hfile hleaves
        have hfile' := hleaves.isFile hfile (Files.not_isDirectory_of_place hplace)
        have hsettings := hspares.settings
        rw [← hnominal] at hsettings
        generalize (created.map fun other => before.put other (.ofText (result.file.getD ""))).getD before = after at *
        have hsettle (output : String) := ends_settleRun laws (e := ⟨(takeLog t).2, after, output, result.failure, false⟩) hsheltered rfl
          (Option.not_isSome_iff_eq_none.mp hfailure) hplace' hfile' hsettings result.settings
        exact ⟨hleaves.trans (hsettle _).files, (hsettle _).overwritten, (hsettle _).failure, fun hsuccess =>
          ⟨result, t, rfl, (hsettle _).success hsuccess⟩⟩

omit [Engine σ] in
/-- What the engine leaves in the file of a database is what is outside all savepoints. -/
theorem databaseIn_outcome (storage : v.Persists kept) {path : String} {e : Ending σ φ} (hover : e.overwritten = false)
    (hplace : e.files.place path = .file l readOnly) : (e.outcome path).files.databaseIn σ l = .ok (kept (v.base e.session.engine)) := by
  unfold Ending.outcome
  rw [hover, if_neg Bool.false_ne_true, Files.putDatabase, hplace]
  dsimp only
  rw [Files.databaseIn, Files.content?_put, storage.close]

end

/-- The session of a run once its command has done what it is there for. -/
def performed (σ : Type) [Engine σ] [Storage σ φ] (around : Surroundings φ) (i : Invocation) : Option (Session σ) := do
  let settings ← (loadSettings around.files i.settings).toOption
  let s : Session σ ← (openDatabase around.files i.database settings).toOption
  let opened : Surroundings φ := { around with files := filesOnOpening around.files i.database }
  match Run.perform (opened.begun i.action) settings i.action (takeLog s).2 with
  | .ok _ t => some t
  | .error .. => none

section
variable [Engine σ] [Storage σ φ] {v : EngineView σ δ} {kept : δ → φ} {around : Surroundings φ} {i : Invocation}

theorem performed_eq {settings : Settings} {s t : Session σ} {result : Result} (hsettings : loadSettings around.files i.settings = .ok settings)
    (hopen : openDatabase around.files i.database settings = .ok s)
    (hperform : Run.perform (({ around with files := filesOnOpening around.files i.database } : Surroundings φ).begun i.action) settings i.action
      (takeLog s).2 = .ok result t) : performed σ around i = some t := by
  unfold performed
  simp [hsettings, hopen, hperform, Except.toOption]

/-- A run that succeeds has in the file of its database what its command did. One that fails, wherever it does, or that is dry
has there what it found. -/
theorem run_all_or_nothing (laws : Sheltering v) (storage : v.Persists kept) {l : Location} {readOnly : Bool} (hplace : around.files.place i.database = .file l readOnly) (hspares : i.Spares around.files l)
    (h : ∀ settings (s : Session σ), openDatabase around.files i.database settings = .ok s →
      i.action.IsContained v (({ around with files := filesOnOpening around.files i.database } : Surroundings φ).begun i.action) s.catalog) :
    ((run σ around i).exitCode = 0 → i.dryRun = false →
      ∃ t, performed σ around i = some t ∧ (run σ around i).files.databaseIn σ l = .ok (kept (v.data t.engine))) ∧
    ((run σ around i).exitCode ≠ 0 ∨ i.dryRun = true → (run σ around i).files.databaseIn σ l = around.files.databaseIn σ l) := by
  unfold run
  cases hsettings : loadSettings around.files i.settings with
  | error f => exact ⟨nofun, fun _ => rfl⟩
  | ok settings =>
    dsimp only
    cases hopen : (openDatabase around.files i.database settings : Except Failure (Session σ)) with
    | error f => exact ⟨nofun, fun _ => rfl⟩
    | ok s =>
      dsimp only
      obtain ⟨ho, hfound⟩ := open_of_openDatabase storage hplace hopen
      obtain ⟨hplaced, hfile, hhere⟩ := filesOnOpening_place hplace
      have hspared : i.Spares (filesOnOpening around.files i.database) l :=
        ⟨by rw [Files.nominal_of_here hhere]; exact hspares.settings, fun haction => by
          rw [Files.nominal_of_here hhere]
          exact hspares.output haction⟩
      have hend := ends_runOn laws ho { around with files := filesOnOpening around.files i.database } settings hplaced hfile hspared
        (h settings s hopen)
      generalize runOn { around with files := filesOnOpening around.files i.database } i settings s = ending at hend ⊢
      have hleft := databaseIn_outcome storage hend.overwritten (Files.Leaves.place hplaced hfile hend.files)
      have hcode : (ending.outcome i.database).exitCode = if ending.failure.isSome then 1 else 0 := rfl
      rw [hleft, hcode, hfound]
      cases hfailed : ending.failure.isSome with
      | true => exact ⟨nofun, fun _ => by rw [hend.failure hfailed]⟩
      | false =>
        obtain ⟨result, t, hperform, hbase⟩ := hend.success hfailed
        rw [hbase]
        exact ⟨fun _ hwet => ⟨t, performed_eq hsettings hopen hperform, by rw [hwet]; rfl⟩,
          fun hdry => by rw [hdry.resolve_left (by decide)]; rfl⟩

end

/-! A table that has a row gets a new name. -/

def heroes : Tables where
  stored := [{ definition := { name := "hero", fields := [{ name := "name" }] }, sql := "CREATE TABLE hero (name)", rows := [[.text "Ann"]] }]

def guild : Surroundings Tables where
  files := { files := [(["a.db"], .database heroes)] }
  standardInput := .ok ""

def recasting (dryRun : Bool) : Invocation :=
  { database := "a.db", settings := "s.json", dryRun, action := .renameTable "hero" "villain" }

theorem run_all_or_nothing_recasting : (∃ t, performed (Shell Tables) guild (recasting false) = some t ∧
      t.engine.data.contents "villain" = some { columns := ["name"], rows := [[.text "Ann"]] } ∧
      (run (Shell Tables) guild (recasting false)).files.databaseIn (Shell Tables) ["a.db"] = .ok t.engine.data) ∧
    (run (Shell Tables) guild (recasting true)).files.databaseIn (Shell Tables) ["a.db"] = .ok heroes := by
  have hplace : guild.files.place "a.db" = .file ["a.db"] false := by decide +kernel
  have hsettings : guild.files.nominal "s.json" ≠ ["a.db"] := by decide +kernel
  have hcontained (dryRun : Bool) (around : Surroundings Tables) (catalog : Catalog) :
      (recasting dryRun).action.IsContained (Shell.view (δ := Tables)) around catalog := by
    rintro change ⟨⟩ c signal hc
    cases hc
  have hall (dryRun : Bool) := run_all_or_nothing (i := recasting dryRun) Shell.sheltering Shell.persists hplace ⟨hsettings, nofun⟩
    fun _ s _ => hcontained dryRun _ s.catalog
  have hrun : (run (Shell Tables) guild (recasting false)).exitCode = 0 ∧
      ((run (Shell Tables) guild (recasting false)).files.databaseIn (Shell Tables) ["a.db"]).toOption.bind (·.contents "villain") =
        some { columns := ["name"], rows := [[.text "Ann"]] } := by decide +kernel
  obtain ⟨t, ht, hleft⟩ := (hall false).1 hrun.1 rfl
  have hrows := hrun.2
  rw [hleft] at hrows
  exact ⟨⟨t, ht, hrows, hleft⟩, (hall true).2 (.inr rfl)⟩

/-! Queries are not under the restore point, and the engine does not guard its file. -/

/-- The number of rows of each table of the database at a location, if there is a database. -/
def rowCounts (files : Files Store.Content) (l : Location) : Option (List Nat) :=
  (files.databaseIn Store.State l).toOption.map fun c => c.tables.map (·.rows.length)

/-- How a run in a directory ends, and what it finds and leaves in the database. -/
def tally (files : Files Store.Content) (i : Invocation) : Nat × Option (List Nat) × Option (List Nat) :=
  let outcome := run Store.State { files, standardInput := .ok "" } i
  (outcome.exitCode, rowCounts files ["a.db"], rowCounts outcome.files ["a.db"])

/-- A table with a row. -/
def oneRow : Files Store.Content :=
  (run Store.State { files := {}, standardInput := .ok "" } {
    database := "a.db", settings := "s.json", dryRun := false
    action := .execute (.text "CREATE TABLE t (a); INSERT INTO t VALUES (1)") }).files

/-- A dry run that puts out what a query gives. -/
def querying (query settings : String) (output : Option String) : Invocation :=
  { database := "a.db", settings, dryRun := true, action := .exportCsv query true output {} }

/-- A query deletes a row for good, and output and settings stay where they were written over the database. -/
theorem not_all_or_nothing_querying :
    tally oneRow (querying "DELETE FROM t" "s.json" none) = (0, some [1], some [0]) ∧
    tally oneRow (querying "SELECT 1" "s.json" (some "a.db")) = (0, some [1], none) ∧
    tally {} (querying "SELECT 1" "a.db" none) = (0, some [], none) := by
  decide +kernel

end Command

end SchemaEditor
