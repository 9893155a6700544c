import SchemaEditor.Proofs.Database.Mirror
import SchemaEditor.Proofs.Database.SchemaChange

/-!
# Calls

What a caller can ask of a database, and what a call does to the savepoints. Whether it succeeds or fails, a call closes
some of the innermost, or it opens one that would bring back the data the call began with, or it leaves them alone.
-/

namespace SchemaEditor

variable {σ δ : Type}

/-- A call on a database, with its arguments. -/
inductive DatabaseCall where
  | savepoint (c : SavepointCall)
  | change (c : SchemaChange)
  | statement (sql : String) (dirty : Bool)
  | script (sql : String) (signal : Signal)
  | setPragma (name value : String)
  | refresh (signal : Signal)

namespace DatabaseCall

def run [Engine σ] : DatabaseCall → Op σ Unit
  | savepoint c => c.run
  | change c => c.run
  | statement sql dirty => do let _ ← Op.executeSql sql dirty
  | script sql signal => do let _ ← Op.executeScript sql signal
  | setPragma name value => Op.setPragma name value
  | refresh signal => do let _ ← Op.refreshCatalog signal

/-- The SQL that a call brings along. -/
def texts (catalog : Catalog) : DatabaseCall → List String
  | change c => c.texts catalog
  | statement sql _ => [sql]
  | script sql _ => Script.statements sql
  | _ => []

/-- The savepoints that a call may open. -/
def opens : DatabaseCall → List String
  | savepoint (.begin name) => [name]
  | change c => [restorePoint, c.savepoint]
  | statement _ true | script .. => [restorePoint]
  | _ => []

def Shadowed (names : List String) : DatabaseCall → Prop
  | savepoint c => c.Shadowed names
  | _ => False

/-- The SQL of a call opens and settles no savepoints. So it is with the setting of a setting. -/
def IsQuiet [Engine σ] (v : EngineView σ δ) (catalog : Catalog) : DatabaseCall → Prop
  | setPragma name value => Op.isPragmaName name = true → Op.isPragmaValue value = true →
    ∀ e : σ, v.saved (Engine.execute ("PRAGMA " ++ name ++ " = " ++ value) e).2 = v.saved e
  | call => ∀ sql ∈ call.texts catalog, v.Quiet sql

end DatabaseCall

def Session.afterCalls [Engine σ] (s : Session σ) (calls : List DatabaseCall) : Session σ :=
  calls.foldl (fun s c => c.run.after s) s

theorem Session.afterCalls_take_succ [Engine σ] (s : Session σ) {calls : List DatabaseCall} {n : Nat} (h : n < calls.length) :
    s.afterCalls (calls.take (n + 1)) = calls[n].run.after (s.afterCalls (calls.take n)) := by
  rw [afterCalls, List.take_succ_eq_append_getElem h, List.foldl_append]
  rfl

/-! ## Settling savepoints -/

namespace EngineView

variable (v : EngineView σ δ)

/-- The data outside all savepoints. -/
def base (e : σ) : δ := ((v.saved e).head?.map Prod.snd).getD (v.data e)

end EngineView

namespace Session

variable {v : EngineView σ δ}

/-- The savepoints around one that the ledger lists. -/
theorem Agrees.split {s : Session σ} (hs : s.Agrees v) {outer inner : List String} {name : String}
    (h : s.ledger.active = outer ++ name :: inner) :
    ∃ o d i, Open v (o ++ (name, d) :: i) s ∧ o.map Prod.fst = outer ∧ i.map Prod.fst = inner := by
  obtain ⟨o, rest, hsaved, rfl, hrest⟩ := List.map_eq_append_iff.mp (hs.symm.trans h)
  obtain ⟨⟨n, d⟩, i, rfl, rfl, rfl⟩ := List.map_eq_cons_iff.mp hrest
  exact ⟨o, d, i, hsaved ▸ hs.open, rfl, rfl⟩

end Session

namespace Op

variable [Engine σ] {v : EngineView σ δ} {s : Session σ}

section
variable {name : String} {d : δ} {outer inner : List (String × δ)} {E : SchemaError → Session σ → Prop}

theorem ends_commit (laws : Transactional v) (ho : Session.Open v (outer ++ (name, d) :: inner) s)
    (hnot : name ∉ outer.map Prod.fst) (hinner : ∀ p ∈ inner, sameName p.1 name = false) :
    (commit name).Ends s (fun _ t => Session.Open v outer t ∧ v.data t.engine = v.data s.engine) E := by
  refine (ends_releaseSavepoint laws ho hnot hinner).bind fun _ t ht => ?_
  refine (ends_resumeForeignKeys laws t).mono (fun _ u hu => ?_) fun _ _ => id
  exact ⟨hu.open ht.toOpen, hu.engine.data.trans ht.data⟩

theorem ends_rollback (laws : Transactional v) (ho : Session.Open v (outer ++ (name, d) :: inner) s)
    (hnot : name ∉ outer.map Prod.fst) (hinner : ∀ p ∈ inner, sameName p.1 name = false) :
    (rollback name).Ends s (fun _ t => Session.Open v outer t ∧ v.data t.engine = d) E := by
  refine (ends_revertSavepoint laws ho hnot hinner).bind fun _ t ht => ?_
  refine (ends_resumeForeignKeys laws t).bind fun _ u hu => ?_
  refine ends_bind ((ends_refreshCatalog laws u).mono (fun _ w hw => ?_) fun _ _ => id)
  obtain ⟨hengine, hledger, -⟩ := hw
  have hopen := hu.open ht.toOpen
  have hdata := hu.engine.data.trans ht.data
  rw [← hengine] at hdata
  exact ⟨⟨hengine ▸ hopen.saved, hledger ▸ hopen.active⟩, hdata⟩

end

omit [Engine σ] in
/-- Settling the innermost savepoint with each turn closes all of them, and keeps what each turn keeps. -/
theorem ends_settleAll_open {settle : String → Op σ Unit} [Settles settle] {E : SchemaError → Session σ → Prop}
    {K : List (String × δ) → δ → Prop}
    (hsettle : ∀ outer name d t, Session.Open v (outer ++ [(name, d)]) t → name ∉ outer.map Prod.fst →
      K (outer ++ [(name, d)]) (v.data t.engine) → (settle name).Ends t (fun _ u => Session.Open v outer u ∧ K outer (v.data u.engine)) E)
    (hs : s.Agrees v) (hnodup : s.ledger.active.Nodup) (hK : K (v.saved s.engine) (v.data s.engine)) :
    (settleAll settle).Ends s (fun _ t => Session.Open v [] t ∧ K [] (v.data t.engine)) E := by
  let I (names : List String) (t : Session σ) : Prop :=
    ∃ outer, names = outer.map Prod.fst ∧ names.Nodup ∧ Session.Open v outer t ∧ K outer (v.data t.engine)
  refine (ends_settleAll (I := I) ?_ ?_ ⟨_, rfl, hs.open.active ▸ hnodup, hs.open, hK⟩).mono ?_ fun _ _ => id
  · rintro names t ⟨outer, rfl, -, ho, -⟩
    exact ho.active
  · rintro names name t ⟨saved, hnames, hnodup, ho, hK⟩
    obtain ⟨outer, last, rfl, rfl, hlast⟩ := List.map_eq_append_iff.mp hnames.symm
    obtain ⟨⟨n, d⟩, rest, rfl, rfl, hrest⟩ := List.map_eq_cons_iff.mp hlast
    obtain rfl := List.map_eq_nil_iff.mp hrest
    obtain ⟨hnodup, -, hdisjoint⟩ := List.nodup_append.mp hnodup
    have hnot : n ∉ outer.map Prod.fst := fun h => hdisjoint n h n (by simp) rfl
    exact (hsettle outer n d t ho hnot hK).mono (fun _ u hu => ⟨outer, rfl, hnodup, hu⟩) fun _ _ => id
  · rintro - t ⟨outer, houter, -, ho, hK⟩
    obtain rfl := List.map_eq_nil_iff.mp houter.symm
    exact ⟨ho, hK⟩

theorem ends_releaseAll (laws : Transactional v) {E : SchemaError → Session σ → Prop} (hs : s.Agrees v)
    (hnodup : s.ledger.active.Nodup) :
    (releaseAll).Ends s (fun _ t => Session.Open v [] t ∧ v.data t.engine = v.data s.engine) E := by
  refine ends_settleAll_open (K := fun _ d => d = v.data s.engine) (fun outer name d t ho hnot hdata => ?_) hs hnodup rfl
  refine (ends_releaseSavepoint laws ho hnot (by simp)).mono (fun _ u hu => ?_) fun _ _ => id
  exact ⟨hu.toOpen, hu.data.trans hdata⟩

theorem ends_revertAll (laws : Transactional v) {E : SchemaError → Session σ → Prop} (hs : s.Agrees v)
    (hnodup : s.ledger.active.Nodup) :
    (revertAll).Ends s (fun _ t => Session.Open v [] t ∧ v.data t.engine = v.base s.engine) E := by
  refine ends_settleAll_open (K := fun saved d => (saved.head?.map Prod.snd).getD d = v.base s.engine)
    (fun outer name d t ho hnot hbase => ?_) hs hnodup rfl
  refine (ends_revertSavepoint laws ho hnot (by simp)).mono (fun _ u hu => ⟨hu.toOpen, ?_⟩) fun _ _ => id
  -- the data of the last savepoint is what is left, if there was no other
  rw [hu.data, ← hbase]
  cases outer <;> rfl

theorem ends_commitAll (laws : Transactional v) {E : SchemaError → Session σ → Prop} (hs : s.Agrees v)
    (hnodup : s.ledger.active.Nodup) :
    (commitAll).Ends s (fun _ t => Session.Open v [] t ∧ v.data t.engine = v.data s.engine) E := by
  refine (ends_releaseAll laws hs hnodup).bind fun _ t ht => ?_
  refine (ends_resumeForeignKeys laws t).bind fun _ u hu => ?_
  have hopen := hu.open ht.1
  exact ends_of_ok rfl ⟨⟨hopen.saved, hopen.active⟩, hu.engine.data.trans ht.2⟩

theorem ends_rollbackAll (laws : Transactional v) {E : SchemaError → Session σ → Prop} (hs : s.Agrees v)
    (hnodup : s.ledger.active.Nodup) :
    (rollbackAll).Ends s (fun _ t => Session.Open v [] t ∧ v.data t.engine = v.base s.engine) E := by
  refine (ends_revertAll laws hs hnodup).bind fun _ t ht => ?_
  refine (ends_resumeForeignKeys laws t).bind fun _ u hu => ?_
  refine ends_bind ((ends_refreshCatalog laws u).mono (fun _ w hw => ?_) fun _ _ => id)
  obtain ⟨hengine, hledger, -⟩ := hw
  have hopen := hu.open ht.1
  have hdata := hu.engine.data.trans ht.2
  rw [← hengine] at hdata
  exact ends_of_ok rfl ⟨⟨hengine ▸ hopen.saved, hledger ▸ hopen.active⟩, hdata⟩

end Op

/-! ## One call -/

/-- What a call does to the savepoints. -/
structure Session.Shifts (v : EngineView σ δ) (opens : List String) (s t : Session σ) : Prop where
  agrees : t.Agrees v
  nodup : s.ledger.active.Nodup → t.ledger.active.Nodup
  saved : v.saved t.engine <+: v.saved s.engine ∨
    ∃ name ∈ opens, v.saved t.engine = v.saved s.engine ++ [(name, v.data s.engine)]

/-- What a call does that settles none. -/
structure Session.Grows (v : EngineView σ δ) (opens : List String) (s t : Session σ) : Prop where
  agrees : t.Agrees v
  nodup : s.ledger.active.Nodup → t.ledger.active.Nodup
  saved : v.saved t.engine = v.saved s.engine ∨
    ∃ name ∈ opens, v.saved t.engine = v.saved s.engine ++ [(name, v.data s.engine)]

namespace Session

variable {v : EngineView σ δ} {s t : Session σ} {opens : List String}

theorem Grows.shifts (h : s.Grows v opens t) : s.Shifts v opens t :=
  ⟨h.agrees, h.nodup, h.saved.imp_left fun hsame => by simp [hsame]⟩

/-- The savepoints that were open stay open. -/
theorem Grows.active (hs : s.Agrees v) (h : s.Grows v opens t) : s.ledger.active <+: t.ledger.active := by
  rw [h.agrees.open.active, hs.open.active]
  rcases h.saved with hsame | ⟨name, -, hopened⟩
  · simp [hsame]
  · simp [hopened]

/-- What is opened by one call may be opened by another. -/
theorem Grows.mono {opens' : List String} (h : s.Grows v opens t) (hsubset : opens ⊆ opens') : s.Grows v opens' t :=
  ⟨h.agrees, h.nodup, h.saved.imp_right fun ⟨name, hname, hsaved⟩ => ⟨name, hsubset hname, hsaved⟩⟩

theorem Open.shifts (hs : s.Agrees v) {outer : List (String × δ)} (hsaved : outer <+: v.saved s.engine) (h : Open v outer t) :
    s.Shifts v opens t := by
  refine ⟨h.agrees, fun hnodup => ?_, .inl (by rwa [h.saved])⟩
  rw [h.active]
  exact (hs.open.active ▸ hnodup).sublist (hsaved.sublist.map Prod.fst)

theorem Made.grows (hs : s.Agrees v) (h : s.Made v t) : s.Grows v [restorePoint] t := by
  refine ⟨h.agrees, fun hnodup => ?_, h.under.imp_right fun hrestore => ⟨restorePoint, by simp, hrestore⟩⟩
  rw [h.agrees]
  exact h.nodup (hs ▸ hnodup)

theorem SameStack.symm (h : s.SameStack v t) : t.SameStack v s := ⟨h.ledger.symm, h.saved.symm⟩

theorem SameStack.grows (hs : s.Agrees v) (h : s.SameStack v t) : s.Grows v opens t :=
  ⟨h.symm.agrees hs, fun hnodup => h.active ▸ hnodup, .inl h.saved⟩

theorem SameStack.shifts_trans {t' : Session σ} (ht : t.SameStack v t') (h : s.Shifts v opens t) : s.Shifts v opens t' :=
  ⟨ht.symm.agrees h.agrees, fun hs => ht.active ▸ h.nodup hs, ht.saved ▸ h.saved⟩

theorem SameStack.grows_trans {t' : Session σ} (ht : t.SameStack v t') (h : s.Grows v opens t) : s.Grows v opens t' :=
  ⟨ht.symm.agrees h.agrees, fun hs => ht.active ▸ h.nodup hs, ht.saved ▸ h.saved⟩

end Session

namespace Op

variable [Engine σ] {v : EngineView σ δ} {s : Session σ}

theorem ends_openSavepoint_grows (laws : Transactional v) (hs : s.Agrees v) (name : String) :
    (openSavepoint name).Ends s (fun _ t => s.Grows v [name] t) fun _ t => s.Grows v [name] t := by
  cases hactive : s.ledger.isActive name with
  | true =>
    refine (ends_openSavepoint_active hactive).mono ?_ fun _ _ => id
    rintro - t rfl
    exact Session.SameStack.grows hs (Session.IsFrame.refl t)
  | false =>
    have hnot := not_mem_of_isActive hs.open hactive
    refine (ends_openSavepoint laws hs.open hactive).mono (fun _ t ht => ?_) fun _ t ht =>
      Session.SameStack.grows hs ⟨ht.ledger, ht.engine.saved⟩
    refine ⟨ht.agrees, fun hnodup => ?_, .inr ⟨name, by simp, ht.saved⟩⟩
    rw [ht.active, List.map_append, List.nodup_append]
    exact ⟨hs.open.active ▸ hnodup, by simp, fun a ha b hb hab => hnot (by simp_all)⟩

theorem allows_sameStack {sql : String} (h : v.Quiet sql) : Session.Allows (Session.SameStack v) sql :=
  fun s => ⟨rfl, (h s.engine).saved⟩

/-- What is done under the restore point. -/
theorem ends_underRestorePoint (laws : Transactional v) (hs : s.Agrees v) {α : Type} {op : Op σ α}
    (h : op.Preserves (Session.SameStack v)) :
    (setRestorePoint >>= fun _ => op).Ends s (fun _ t => s.Grows v [restorePoint] t) fun _ t => s.Grows v [restorePoint] t := by
  refine (ends_openSavepoint_grows laws hs restorePoint).bind fun _ t ht => ?_
  exact (h t).mono (fun _ _ hu => hu.grows_trans ht) fun _ _ hu => hu.grows_trans ht

theorem ends_executeSql (laws : Transactional v) (hs : s.Agrees v) {sql : String} (hq : v.Quiet sql) (dirty : Bool) :
    (executeSql sql dirty).Ends s (fun _ t => s.Grows v (DatabaseCall.statement sql dirty).opens t)
      fun _ t => s.Grows v (DatabaseCall.statement sql dirty).opens t := by
  have hstatement : (execute sql : Op σ Nat).Preserves (Session.SameStack v) := preserves_execute (allows_sameStack hq)
  cases dirty with
  | true => exact ends_underRestorePoint laws hs hstatement
  | false => exact (hstatement s).mono (fun _ _ => Session.SameStack.grows hs) fun _ _ => Session.SameStack.grows hs

theorem ends_executeScript (laws : Transactional v) (hs : s.Agrees v) {sql : String} (hq : ∀ t ∈ Script.statements sql, v.Quiet t)
    (signal : Signal) :
    (executeScript sql signal).Ends s (fun _ t => s.Grows v [restorePoint] t) fun _ t => s.Grows v [restorePoint] t := by
  have hallows : ∀ t ∈ Script.statements sql, Session.Allows (Session.SameStack v) t := fun t ht => allows_sameStack (hq t ht)
  exact ends_underRestorePoint laws hs (preserves_statements (fun _ _ => ⟨rfl, rfl⟩) hallows signal)

theorem ends_setPragma (laws : Transactional v) (hs : s.Agrees v) (hnodup : s.ledger.active.Nodup) {name value : String}
    (hq : (DatabaseCall.setPragma name value).IsQuiet v s.catalog) {opens : List String} :
    (setPragma name value).Ends s (fun _ t => s.Shifts v opens t) fun _ t => s.Shifts v opens t := by
  have hsame : s.Shifts v opens s := (Session.SameStack.grows hs (Session.IsFrame.refl s)).shifts
  unfold setPragma checkPragmaName
  by_cases hname : (!isPragmaName name) = true
  · rw [if_pos hname]
    exact hsame
  rw [if_neg hname]
  refine ends_bind (ends_of_ok rfl ?_)
  by_cases hvalue : (!isPragmaValue value) = true
  · rw [if_pos hvalue]
    exact hsame
  rw [if_neg hvalue]
  have hset : (do let _ ← execute ("PRAGMA " ++ name ++ " = " ++ value); note (.pragmaSet name value) : Op σ Unit).Preserves
      (Session.SameStack v) :=
    (preserves_execute fun t => ⟨rfl, hq (by simpa using hname) (by simpa using hvalue) t.engine⟩).bind fun _ => preserves_note _
  refine (ends_commitAll laws hs hnodup).bind fun _ t ht => ?_
  have hclosed : s.Shifts v opens t := ht.1.shifts hs List.nil_prefix
  exact (hset t).mono (fun _ _ hu => hu.shifts_trans hclosed) fun _ _ hu => hu.shifts_trans hclosed

end Op

namespace SavepointCall

variable [Engine σ] {v : EngineView σ δ} {s : Session σ}

omit [Engine σ] in
/-- A savepoint that the ledger lists, and those around it, if the call that names it is not shadowed. -/
theorem split_of_mem (hs : s.Agrees v) {name : String} (hmem : name ∈ s.ledger.active)
    (hc : ¬∃ inner ∈ (s.ledger.active.dropWhile (· ≠ name)).tail, sameName inner name = true) :
    ∃ outer d inner, Session.Open v (outer ++ (name, d) :: inner) s ∧ name ∉ outer.map Prod.fst ∧
      ∀ p ∈ inner, sameName p.1 name = false := by
  obtain ⟨outer, d, inner, ho, houter, hinner⟩ := hs.split (takeWhile_append_dropWhile_tail hmem)
  refine ⟨outer, d, inner, ho, ?_, fun p hp => ?_⟩
  · rw [houter]
    exact not_mem_takeWhile_ne _ name
  · have hp' : p.1 ∈ (s.ledger.active.dropWhile (· ≠ name)).tail := hinner ▸ List.mem_map_of_mem hp
    simpa using fun hsame => hc ⟨p.1, hp', hsame⟩

/-- A call that settles savepoints closes some of the innermost. -/
theorem ends_run_shifts (laws : Transactional v) (hs : s.Agrees v) (hnodup : s.ledger.active.Nodup) (c : SavepointCall)
    (hc : ¬c.Shadowed s.ledger.active) :
    (c.run).Ends s (fun _ t => s.Shifts v (DatabaseCall.savepoint c).opens t)
      fun _ t => s.Shifts v (DatabaseCall.savepoint c).opens t := by
  have hsame (opens : List String) : s.Shifts v opens s := (Session.SameStack.grows hs (Session.IsFrame.refl s)).shifts
  cases c with
  | begin name => exact (Op.ends_openSavepoint_grows laws hs name).mono (fun _ _ ht => ht.shifts) fun _ _ ht => ht.shifts
  | commit name =>
    by_cases hmem : name ∈ s.ledger.active
    · obtain ⟨outer, d, inner, ho, hnot, hinner⟩ := split_of_mem hs hmem hc
      exact (Op.ends_commit laws ho hnot hinner).mono (fun _ t ht => ht.1.shifts hs ⟨_, ho.saved.symm⟩) fun _ _ => id
    · exact Op.ends_bind (Op.ends_bind (Op.ends_of_error (Op.position_missing hmem) (hsame _)))
  | rollback name =>
    by_cases hmem : name ∈ s.ledger.active
    · obtain ⟨outer, d, inner, ho, hnot, hinner⟩ := split_of_mem hs hmem hc
      exact (Op.ends_rollback laws ho hnot hinner).mono (fun _ t ht => ht.1.shifts hs ⟨_, ho.saved.symm⟩) fun _ _ => id
    · exact Op.ends_bind (Op.ends_bind (Op.ends_of_error (Op.position_missing hmem) (hsame _)))
  | commitAll => exact (Op.ends_commitAll laws hs hnodup).mono (fun _ t ht => ht.1.shifts hs List.nil_prefix) fun _ _ => id
  | rollbackAll => exact (Op.ends_rollbackAll laws hs hnodup).mono (fun _ t ht => ht.1.shifts hs List.nil_prefix) fun _ _ => id

end SavepointCall

namespace DatabaseCall

variable {v : EngineView σ δ} {s : Session σ}

theorem ends_ignoring {α : Type} {op : Op σ α} {P E : Session σ → Prop} (h : op.Ends s (fun _ => P) fun _ => E) :
    (do let _ ← op : Op σ Unit).Ends s (fun _ => P) fun _ => E :=
  h.bind fun _ _ => id

variable [Engine σ]

/-- Calls that settle none and set nothing. -/
def Builds : DatabaseCall → Prop
  | savepoint (.begin _) | change _ | statement .. | script .. | refresh _ => True
  | savepoint _ | setPragma .. => False

theorem ends_run_grows (laws : Transactional v) (hs : s.Agrees v) {call : DatabaseCall}
    (hbuilds : call.Builds) (hq : call.IsQuiet v s.catalog) :
    (call.run).Ends s (fun _ t => s.Grows v call.opens t) fun _ t => s.Grows v call.opens t := by
  have hsame {t : Session σ} (h : s.SameStack v t) : s.Grows v call.opens t := h.grows hs
  cases call with
  | savepoint c =>
    cases c with
    | begin name => exact Op.ends_openSavepoint_grows laws hs name
    | _ => exact hbuilds.elim
  | change c =>
    have hmade {t : Session σ} (h : s.Made v t) : s.Grows v (change c).opens t := (h.grows hs).mono (by simp [opens])
    exact (c.ends_run_made laws hs (SchemaChange.isQuiet_iff.mpr hq)).mono (fun _ _ => hmade) fun _ _ h => hmade h.toMade
  | statement sql dirty => exact ends_ignoring (Op.ends_executeSql laws hs (hq sql (by simp [texts])) dirty)
  | script sql signal => exact ends_ignoring (Op.ends_executeScript laws hs hq signal)
  | setPragma name value => exact hbuilds.elim
  | refresh signal =>
    exact ends_ignoring ((Op.keepsStack_refreshCatalog signal s).mono (fun _ _ => hsame) fun _ _ => hsame)

/-- A call that is not shadowed and brings no statements for savepoints along does one thing to the savepoints. -/
theorem ends_run_shifts (laws : Transactional v) (hs : s.Agrees v) (hnodup : s.ledger.active.Nodup) (call : DatabaseCall)
    (hc : ¬call.Shadowed s.ledger.active) (hq : call.IsQuiet v s.catalog) :
    (call.run).Ends s (fun _ t => s.Shifts v call.opens t) fun _ t => s.Shifts v call.opens t := by
  have hgrows (hbuilds : call.Builds) : (call.run).Ends s (fun _ t => s.Shifts v call.opens t) fun _ t => s.Shifts v call.opens t :=
    (ends_run_grows laws hs hbuilds hq).mono (fun _ _ h => h.shifts) fun _ _ h => h.shifts
  cases call with
  | savepoint c => exact c.ends_run_shifts laws hs hnodup hc
  | setPragma name value => exact Op.ends_setPragma laws hs hnodup hq
  | _ => exact hgrows trivial

end DatabaseCall

end SchemaEditor
