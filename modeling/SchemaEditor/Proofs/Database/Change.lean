import Mathlib.Data.List.Induction
import SchemaEditor.Proofs.Database.Frames

/-!
# Changes under a savepoint

A change opens the restore point, if it is not open, and a savepoint of its own inside it. While its steps run
the two stay the innermost savepoints, so what is reverted at a failure is all that the steps did, and what is
released at the end is the savepoint of the change alone. The ledger and the engine agree throughout.
-/

namespace SchemaEditor

variable {σ δ : Type}

namespace Session

variable (v : EngineView σ δ)

/-- The ledger lists the savepoints that are open on the engine. -/
def Agrees (s : Session σ) : Prop := s.ledger.active = v.savepoints s.engine

/-- Nothing that can be seen has changed. -/
structure Still (s t : Session σ) : Prop where
  engine : v.Same s.engine t.engine
  ledger : t.ledger = s.ledger
  catalog : t.catalog = s.catalog

/-- The savepoints are `outer`, on the engine and in the ledger. -/
structure Open (outer : List (String × δ)) (t : Session σ) : Prop where
  saved : v.saved t.engine = outer
  active : t.ledger.active = outer.map Prod.fst

section
variable {v : EngineView σ δ} {outer : List (String × δ)} {t : Session σ}

theorem Open.savepoints (h : Open v outer t) : v.savepoints t.engine = outer.map Prod.fst := congrArg (List.map Prod.fst) h.saved

theorem Open.agrees (h : Open v outer t) : t.Agrees v := h.active.trans h.savepoints.symm

end

/-- From `s` to `t` the savepoints have become `outer` and the data `d`; setting and catalog are as they were. -/
structure Reaches (s : Session σ) (outer : List (String × δ)) (d : δ) (t : Session σ) : Prop extends Open v outer t where
  data : v.data t.engine = d
  legacyAlter : v.legacyAlter t.engine = v.legacyAlter s.engine
  catalog : t.catalog = s.catalog

/-- The savepoints are as they were, or the restore point was opened besides. -/
def AtMostRestorePoint (s t : Session σ) : Prop :=
  t.ledger.active = s.ledger.active ∨ t.ledger.active = s.ledger.active ++ [restorePoint]

variable {v}

theorem Agrees.open {s : Session σ} (h : s.Agrees v) : Open v (v.saved s.engine) s := ⟨rfl, h⟩

theorem Reaches.trans {s t u : Session σ} {outer outer' : List (String × δ)} {d d' : δ} (h : s.Reaches v outer d t)
    (h' : t.Reaches v outer' d' u) : s.Reaches v outer' d' u :=
  ⟨h'.toOpen, h'.data, h'.legacyAlter.trans h.legacyAlter, h'.catalog.trans h.catalog⟩

theorem Still.trans {s₁ s₂ s₃ : Session σ} (h : s₁.Still v s₂) (h' : s₂.Still v s₃) : s₁.Still v s₃ :=
  ⟨h.engine.trans h'.engine, h'.ledger.trans h.ledger, h'.catalog.trans h.catalog⟩

theorem Alike.still {s t : Session σ} (h : s.Alike t) : s.Still v t :=
  ⟨h.engine ▸ .refl _, h.ledger, h.catalog⟩

theorem Still.open {s t : Session σ} (h : s.Still v t) {outer : List (String × δ)} (ho : Open v outer s) : Open v outer t :=
  ⟨h.engine.saved.trans ho.saved, (congrArg Ledger.active h.ledger).trans ho.active⟩

theorem Still.reaches {s t : Session σ} (h : s.Still v t) {outer : List (String × δ)} (ho : Open v outer s) :
    s.Reaches v outer (v.data s.engine) t :=
  ⟨h.open ho, h.engine.data, h.engine.legacyAlter, h.catalog⟩

theorem Steady.open {s t : Session σ} (h : s.Steady v t) {outer : List (String × δ)} (ho : Open v outer s) : Open v outer t :=
  ⟨h.engine.saved.trans ho.saved, (congrArg Ledger.active h.ledger).trans ho.active⟩

end Session

namespace Op

variable [Engine σ] {v : EngineView σ δ}

/-! ## Savepoints -/

theorem ends_openSavepoint (laws : Transactional v) {name : String} {s : Session σ} {outer : List (String × δ)}
    (ho : Session.Open v outer s) (hnot : s.ledger.isActive name = false) :
    (openSavepoint name).Ends s
      (fun _ t => s.Reaches v (outer ++ [(name, v.data s.engine)]) (v.data s.engine) t) fun _ t => s.Still v t := by
  have hopen : (execute (savepointSql name) >>= fun _ => modifyLedger (·.push name)).Ends s
      (fun _ t => s.Reaches v (outer ++ [(name, v.data s.engine)]) (v.data s.engine) t) fun _ t => s.Still v t := by
    refine ends_bind (ends_execute (fun n u hu => ?_) fun e u hu => ⟨laws.savepoint_error hu, rfl, rfl⟩)
    obtain ⟨hsaved, hdata, hlegacy⟩ := laws.savepoint_ok hu
    refine ⟨⟨hsaved.trans (by rw [ho.saved]), ?_⟩, hdata, hlegacy, rfl⟩
    show s.ledger.active ++ [name] = _
    rw [ho.active, List.map_append]
    rfl
  refine ends_ledger ?_
  rw [hnot]
  exact hopen

theorem ends_openSavepoint_active {name : String} {s : Session σ} (h : s.ledger.isActive name = true)
    {E : SchemaError → Session σ → Prop} : (openSavepoint name).Ends s (fun _ t => t = s) E := by
  refine ends_ledger ?_
  rw [h]
  exact ends_pure rfl

omit [Engine σ] in
/-- The place of a savepoint in the ledger. -/
theorem position_eq {name : String} {s : Session σ} {outer inner : List String}
    (h : s.ledger.active = outer ++ name :: inner) (hnot : name ∉ outer) : position name s = .ok outer.length s := by
  have hplace : s.ledger.position? name = some outer.length := by
    rw [Ledger.position?, h, List.findIdx?_append]
    have hnone : outer.findIdx? (· == name) = none := by
      rw [List.findIdx?_eq_none_iff]
      intro n hn
      have hne : n ≠ name := fun hne => hnot (hne ▸ hn)
      simpa using hne
    simp [hnone, List.findIdx?_cons]
  rw [position, hplace]

omit [Engine σ] in
theorem position_missing {name : String} {s : Session σ} (h : name ∉ s.ledger.active) :
    position name s = .error (.savepointNotFound name) s := by
  have hplace : s.ledger.position? name = none := by
    rw [Ledger.position?, List.findIdx?_eq_none_iff]
    intro n hn
    have hne : n ≠ name := fun hne => h (hne ▸ hn)
    simpa using hne
  rw [position, hplace]

omit [Engine σ] in
theorem ends_position {name : String} {d : δ} {s : Session σ} {outer inner : List (String × δ)}
    (ho : Session.Open v (outer ++ (name, d) :: inner) s) (hnot : name ∉ outer.map Prod.fst) {E : SchemaError → Session σ → Prop} :
    (position name).Ends s (fun i t => t = s ∧ s.ledger.active.take i = outer.map Prod.fst) E := by
  have hactive : s.ledger.active = outer.map Prod.fst ++ name :: inner.map Prod.fst := by rw [ho.active, List.map_append]; rfl
  refine ends_of_ok (position_eq hactive hnot) ⟨rfl, ?_⟩
  rw [hactive, List.take_left]

omit [Engine σ] in
/-- The engine finds the savepoint of a name if none inside it has that name. -/
theorem finds_of_open {name : String} {d : δ} {s : Session σ} {outer inner : List (String × δ)}
    (ho : Session.Open v (outer ++ (name, d) :: inner) s) (hinner : ∀ p ∈ inner, sameName p.1 name = false) :
    v.Finds s.engine name outer (name, d) :=
  ⟨⟨inner, ho.saved, hinner⟩, sameName_refl name⟩

/-- Reverting a savepoint brings its data back and closes it, with all inside it. -/
theorem ends_revertSavepoint (laws : Transactional v) {name : String} {d : δ} {s : Session σ} {outer inner : List (String × δ)}
    (ho : Session.Open v (outer ++ (name, d) :: inner) s) (hnot : name ∉ outer.map Prod.fst)
    (hinner : ∀ p ∈ inner, sameName p.1 name = false) {E : SchemaError → Session σ → Prop} :
    (revertSavepoint name).Ends s (fun _ t => s.Reaches v outer d t) E := by
  refine (ends_position ho hnot).bind ?_
  rintro i t ⟨rfl, htake⟩
  obtain ⟨n, u, hu, hsaved, hdata, hlegacy⟩ := laws.rollback (finds_of_open ho hinner)
  obtain ⟨m, w, hw, hsaved', hdata', hlegacy'⟩ := laws.release (EngineView.finds_last hsaved)
  exact ends_bind (ends_execute_ok hu (ends_bind (ends_execute_ok hw
    ⟨⟨hsaved', htake⟩, hdata'.trans hdata, hlegacy'.trans hlegacy, rfl⟩)))

/-- Releasing a savepoint keeps the data and closes it, with all inside it. -/
theorem ends_releaseSavepoint (laws : Transactional v) {name : String} {d : δ} {s : Session σ} {outer inner : List (String × δ)}
    (ho : Session.Open v (outer ++ (name, d) :: inner) s) (hnot : name ∉ outer.map Prod.fst)
    (hinner : ∀ p ∈ inner, sameName p.1 name = false) {E : SchemaError → Session σ → Prop} :
    (releaseSavepoint name).Ends s (fun _ t => s.Reaches v outer (v.data s.engine) t) E := by
  refine (ends_position ho hnot).bind ?_
  rintro i t ⟨rfl, htake⟩
  obtain ⟨n, u, hu, hsaved, hdata, hlegacy⟩ := laws.release (finds_of_open ho hinner)
  exact ends_bind (ends_execute_ok hu ⟨⟨hsaved, htake⟩, hdata, hlegacy, rfl⟩)

omit [Engine σ] in
/-- All savepoints are settled from the inside out, if each can be settled where it is the innermost. -/
theorem ends_settleAll {settle : String → Op σ Unit} [Settles settle] {I : List String → Session σ → Prop}
    {E : SchemaError → Session σ → Prop} (hactive : ∀ names t, I names t → t.ledger.active = names)
    (hstep : ∀ outer name t, I (outer ++ [name]) t → (settle name).Ends t (fun _ u => I outer u) E) {names : List String}
    {s : Session σ} (hs : I names s) : (settleAll settle).Ends s (fun _ t => I [] t) E := by
  induction names using List.reverseRecOn generalizing s with
  | nil => exact ends_of_ok (settleAll_done (by rw [hactive [] s hs]; rfl)) hs
  | append_singleton outer name ih =>
    have hlast : s.ledger.active.getLast? = some name := by rw [hactive _ s hs, List.getLast?_concat]
    exact ends_settleAll_last hlast ((hstep outer name s hs).mono (fun _ _ => ih) fun _ _ => id)

/-! ## Looking around -/

omit [Engine σ] in
theorem ends_checkSignal (signal : Signal) (s : Session σ) :
    (checkSignal signal).Ends s (fun _ t => s.Alike t) fun _ t => s.Alike t :=
  preserves_checkSignal signal s

/-- Reading the catalog anew changes nothing but the snapshot. -/
theorem ends_refreshCatalog (laws : Transactional v) (s : Session σ) {E : SchemaError → Session σ → Prop} :
    (refreshCatalog Signal.never).Ends s
      (fun _ t => t.engine = s.engine ∧ t.ledger = s.ledger ∧ t.foreignKeysSuspended = s.foreignKeysSuspended) E := by
  obtain ⟨rows, hrows⟩ := laws.schema s.engine
  refine ends_bind ?_
  unfold readCatalog
  refine ends_session ?_
  rw [hrows]
  refine ends_bind (ends_of_ok rfl (ends_bind ?_))
  refine (((onlyReads_readObjects rows) s).mono (fun objects t ht => ?_) fun _ _ => False.elim)
  exact ⟨ht.engine, ht.ledger, ht.suspended⟩

/-- Foreign keys come back or stay away without further effect. -/
theorem ends_resumeForeignKeys (laws : Transactional v) (s : Session σ) {E : SchemaError → Session σ → Prop} :
    (resumeForeignKeys).Ends s (fun _ t => s.Still v t) E := by
  refine ends_session ?_
  by_cases hresume : (s.foreignKeysSuspended && !s.isDirty) = true
  · rw [if_pos hresume]
    obtain ⟨n, u, hu, hsame⟩ := laws.setForeignKeys true s.engine
    exact ends_bind (ends_execute_ok hu ⟨hsame, rfl, rfl⟩)
  · rw [if_neg hresume]
    exact (Session.Alike.refl s).still

/-! ## Begin and end of a change -/

/-- Where the savepoint of a change goes: into the open savepoints, or into the restore point opened for it. -/
def Under (v : EngineView σ δ) (s : Session σ) (outer : List (String × δ)) : Prop :=
  outer = v.saved s.engine ∨ outer = v.saved s.engine ++ [(restorePoint, v.data s.engine)]

/-- The savepoints that are open when a change opens its own. -/
structure Entered (v : EngineView σ δ) (s : Session σ) (savepoint : String) (outer : List (String × δ)) : Prop where
  under : Under v s outer
  fresh : savepoint ∉ outer.map Prod.fst
  restorePoint : restorePoint ∈ outer.map Prod.fst
  nodup : (v.savepoints s.engine).Nodup → (outer.map Prod.fst).Nodup

omit [Engine σ] in
theorem not_mem_of_isActive {s : Session σ} {outer : List (String × δ)} (ho : Session.Open v outer s) {name : String}
    (hnot : s.ledger.isActive name = false) : name ∉ outer.map Prod.fst := by
  rw [← ho.active]
  simpa [Ledger.isActive] using hnot

/-- A restore point that was opened in vain is closed again. -/
theorem ends_releaseRestorePoint (laws : Transactional v) {s : Session σ} {outer : List (String × δ)} {d : δ}
    (ho : Session.Open v (outer ++ [(restorePoint, d)]) s) (hnot : restorePoint ∉ outer.map Prod.fst)
    {E : SchemaError → Session σ → Prop} :
    (releaseRestorePoint).Ends s (fun _ t => s.Reaches v outer d t) E :=
  ends_bind (Ends.observe (ends_revertSavepoint laws ho hnot (by simp)))

theorem ends_beginOperation (laws : Transactional v) {savepoint : String} (hne : savepoint ≠ restorePoint) {s : Session σ}
    (hs : s.Agrees v) :
    (beginOperation savepoint).Ends s
      (fun _ t => ∃ outer, Entered v s savepoint outer ∧
        s.Reaches v (outer ++ [(savepoint, v.data s.engine)]) (v.data s.engine) t)
      fun _ t => s.Reaches v (v.saved s.engine) (v.data s.engine) t := by
  refine ends_ledger ?_
  by_cases hactive : s.ledger.isActive savepoint = true
  · rw [if_pos hactive]
    exact ⟨hs.open, rfl, rfl, rfl⟩
  have hnot : s.ledger.isActive savepoint = false := by simpa using hactive
  have hmem := not_mem_of_isActive hs.open hnot
  rw [if_neg hactive]
  refine ends_ledger ?_
  cases hheld : s.ledger.isActive restorePoint with
  | true =>
    have hrestore : restorePoint ∈ (v.saved s.engine).map Prod.fst := by
      rw [← hs.open.active]
      simpa [Ledger.isActive] using hheld
    refine (ends_openSavepoint_active hheld).bind ?_
    rintro - t rfl
    refine ends_bind (Ends.observe ((ends_openSavepoint laws hs.open hnot).mono ?_ ?_))
    · exact fun _ u hu => ⟨_, ⟨.inl rfl, hmem, hrestore, id⟩, hu⟩
    · exact fun e u hu => hu.reaches hs.open
  | false =>
    have hrestore := not_mem_of_isActive hs.open hheld
    refine ends_bind ((ends_openSavepoint laws hs.open hheld).mono (fun _ t ht => ?_) fun e t ht => ht.reaches hs.open)
    have hnot' : savepoint ∉ (v.saved s.engine ++ [(restorePoint, v.data s.engine)]).map Prod.fst := by
      rw [List.map_append, List.mem_append, not_or]
      exact ⟨hmem, by simpa using hne⟩
    have hinactive : t.ledger.isActive savepoint = false := by
      rw [← ht.active] at hnot'
      simpa [Ledger.isActive] using hnot'
    refine ends_bind (Ends.observe ((ends_openSavepoint laws ht.toOpen hinactive).mono (fun _ u hu => ?_) fun e u hu => ?_))
    · rw [ht.data] at hu
      refine ⟨_, ⟨.inr rfl, hnot', by simp, fun hnodup => ?_⟩, ht.trans hu⟩
      rw [List.map_append, List.nodup_append]
      exact ⟨hnodup, by simp, fun a ha b hb hab => hrestore (by simp_all)⟩
    · have hback := ends_releaseRestorePoint laws (hu.open ht.toOpen) hrestore (E := fun _ _ => False)
      refine ends_bind (hback.mono (fun _ w hw => ?_) fun _ _ => False.elim)
      exact ht.trans ((hu.reaches ht.toOpen).trans hw)

/-- An operation that fails has its changes reverted. -/
theorem ends_abort (laws : Transactional v) {α : Type} {savepoint : String} {s : Session σ} {outer : List (String × δ)} {d : δ}
    (ho : Session.Open v (outer ++ [(savepoint, d)]) s) (hnot : savepoint ∉ outer.map Prod.fst) (e : SchemaError) :
    (abort savepoint e : Op σ α).Ends s (fun _ _ => False) fun _ t => s.Reaches v outer d t :=
  ends_bind (Ends.observe (ends_revertSavepoint laws ho hnot (by simp)))

/-- While a savepoint is open foreign keys are left as they are. -/
theorem resumeForeignKeys_dirty {s : Session σ} (h : s.isDirty = true) : resumeForeignKeys s = .ok () s := by
  have hno : ¬(s.foreignKeysSuspended && !s.isDirty) = true := by simp [h]
  show (if (s.foreignKeysSuspended && !s.isDirty) = true then _ else _ : Op σ Unit) s = _
  rw [if_neg hno]
  rfl

omit [Engine σ] in
theorem isDirty_of_mem {outer : List (String × δ)} {s : Session σ} (ho : Session.Open v outer s) {name : String}
    (h : name ∈ outer.map Prod.fst) : s.isDirty = true := by
  rw [← ho.active] at h
  simpa [Session.isDirty, Ledger.isDirty] using List.ne_nil_of_mem h

/-- An operation that succeeds keeps its changes, and the catalog is read anew. The restore point stays open. -/
theorem ends_finishOperation (laws : Transactional v) {R : Session σ → Session σ → Prop} [Session.IsEngineFrame R]
    {savepoint : String} {s : Session σ} {outer : List (String × δ)} {d : δ}
    (ho : Session.Open v (outer ++ [(savepoint, d)]) s) (hnot : savepoint ∉ outer.map Prod.fst)
    (hrestore : restorePoint ∈ outer.map Prod.fst) {E : SchemaError → Session σ → Prop} :
    (finishOperation savepoint).Ends s
      (fun _ t => R s t ∧ Session.Open v outer t ∧ v.data t.engine = v.data s.engine ∧
        v.legacyAlter t.engine = v.legacyAlter s.engine) E := by
  have hrelease := (ends_releaseSavepoint laws ho hnot (by simp) (E := fun _ _ => False)).and (preserves_releaseSavepoint (R := R) savepoint s)
  refine ends_bind (ends_bind (hrelease.mono (fun _ t ht => ?_) fun _ _ h => h.1.elim))
  obtain ⟨ht, hrt⟩ := ht
  refine ends_of_ok (resumeForeignKeys_dirty (isDirty_of_mem ht.toOpen hrestore)) (ends_bind ?_)
  have hrefresh := (ends_refreshCatalog laws t (E := fun _ _ => False)).and
    (preserves_refreshCatalog (Session.IsEngineFrame.catalog (R := R)) Signal.never t)
  refine hrefresh.mono (fun _ w hw => ?_) fun _ _ h => h.1.elim
  obtain ⟨⟨hengine, hledger, -⟩, hrw⟩ := hw
  refine ⟨Session.IsFrame.trans hrt hrw, ⟨?_, ?_⟩, ?_, ?_⟩
  · rw [hengine]
    exact ht.saved
  · rw [hledger]
    exact ht.active
  · rw [hengine]
    exact ht.data
  · rw [hengine]
    exact ht.legacyAlter

end Op

/-! ## Whole changes -/

/-- What a change that succeeds leaves of the savepoints and the setting. -/
structure Session.Kept (v : EngineView σ δ) (s t : Session σ) : Prop where
  agrees : t.Agrees v
  restorePoint : s.AtMostRestorePoint t
  legacyAlter : v.legacyAlter t.engine = v.legacyAlter s.engine

/-- What a change that fails leaves: all as it was, but that the restore point may be open. -/
structure Session.Reverted (v : EngineView σ δ) (s t : Session σ) : Prop extends s.Kept v t where
  data : v.data t.engine = v.data s.engine
  catalog : t.catalog = s.catalog

/-- Besides, the restore point, if it was opened, would bring back the data before the change. -/
structure Session.Made (v : EngineView σ δ) (s t : Session σ) : Prop where
  agrees : t.Agrees v
  under : Op.Under v s (v.saved t.engine)
  nodup : (v.savepoints s.engine).Nodup → (v.savepoints t.engine).Nodup
  legacyAlter : v.legacyAlter t.engine = v.legacyAlter s.engine

structure Session.Unmade (v : EngineView σ δ) (s t : Session σ) : Prop extends s.Made v t where
  data : v.data t.engine = v.data s.engine
  catalog : t.catalog = s.catalog

namespace Session

variable {v : EngineView σ δ}

theorem Made.kept {s t : Session σ} (hs : s.Agrees v) (h : s.Made v t) : s.Kept v t := by
  refine ⟨h.agrees, ?_, h.legacyAlter⟩
  rcases h.under with hsame | hrestore
  · left
    rw [h.agrees, hs, EngineView.savepoints, hsame]
    rfl
  · right
    rw [h.agrees, hs, EngineView.savepoints, hrestore, List.map_append]
    rfl

theorem Unmade.reverted {s t : Session σ} (hs : s.Agrees v) (h : s.Unmade v t) : s.Reverted v t :=
  ⟨h.toMade.kept hs, h.data, h.catalog⟩

theorem Reaches.unmade {s t : Session σ} {outer : List (String × δ)} (hunder : Op.Under v s outer)
    (hnodup : (v.savepoints s.engine).Nodup → (outer.map Prod.fst).Nodup) (h : s.Reaches v outer (v.data s.engine) t) : s.Unmade v t :=
  ⟨⟨h.agrees, h.saved ▸ hunder, h.savepoints ▸ hnodup, h.legacyAlter⟩, h.data, h.catalog⟩

/-- Looking around before or after a change does not count. -/
theorem Made.still {s s' t t' : Session σ} (h : s'.Made v t) (hs : s.Still v s') (ht : t.Still v t') : s.Made v t' := by
  have hunder := h.under
  rw [Op.Under, hs.engine.saved, hs.engine.data] at hunder
  have hnodup := h.nodup
  rw [EngineView.savepoints, EngineView.savepoints, hs.engine.saved, ← ht.engine.saved] at hnodup
  exact ⟨(ht.open h.agrees.open).agrees, by rwa [Op.Under, ht.engine.saved], hnodup,
    ht.engine.legacyAlter.trans (h.legacyAlter.trans hs.engine.legacyAlter)⟩

theorem Unmade.still {s s' t t' : Session σ} (h : s'.Unmade v t) (hs : s.Still v s') (ht : t.Still v t') : s.Unmade v t' :=
  ⟨h.toMade.still hs ht, ht.engine.data.trans (h.data.trans hs.engine.data), ht.catalog.trans (h.catalog.trans hs.catalog)⟩

theorem Still.refl (s : Session σ) : s.Still v s := (Alike.refl s).still

/-- A change that has not begun is as good as reverted. -/
theorem Still.unmade {s t : Session σ} (h : s.Still v t) (hs : s.Agrees v) : s.Unmade v t :=
  (h.reaches hs.open).unmade (.inl rfl) id

end Session

namespace Op

variable [Engine σ] {v : EngineView σ δ}

/-- A steady body makes its change or none, under a savepoint that is closed in either case. What operations do by
themselves before and after the body keeps to any relation that allows it. -/
theorem ends_change_framed (laws : Transactional v) {R : Session σ → Session σ → Prop} [Session.IsEngineFrame R] {α : Type}
    {savepoint : String} (hne : savepoint ≠ restorePoint) {s : Session σ} (hs : s.Agrees v) {body : Op σ α}
    {Q : α → Session σ → Session σ → Prop} {F : Session σ → Session σ → Prop}
    (hbody : ∀ t, v.data t.engine = v.data s.engine → t.catalog = s.catalog → R s t →
      body.Ends t (fun a u => t.Steady v u ∧ Q a t u) fun _ u => t.Steady v u ∧ F t u) :
    (change savepoint body).Ends s
      (fun a w => s.Made v w ∧ ∃ t u, R s t ∧ Q a t u ∧ R u w ∧ v.data w.engine = v.data u.engine)
      fun _ w => s.Unmade v w ∧ (R s w ∨ ∃ t u, R s t ∧ F t u ∧ R u w) := by
  have hbegin := (ends_beginOperation laws hne hs).and (preserves_beginOperation (R := R) savepoint s)
  refine ends_bind (hbegin.mono (fun _ t ht => ?_) fun e t ht => ⟨ht.1.unmade (.inl rfl) id, .inl ht.2⟩)
  obtain ⟨⟨outer, hentered, ht⟩, hrt⟩ := ht
  refine ends_bind (Ends.observe ((hbody t ht.data ht.catalog hrt).mono (fun a u hu => ?_) fun e u hu => ?_))
  · obtain ⟨hsteady, hq⟩ := hu
    refine ends_bind ((ends_finishOperation laws (R := R) (hsteady.open ht.toOpen) hentered.fresh hentered.restorePoint).mono (fun _ w hw => ?_) fun _ _ => id)
    obtain ⟨hruw, hopen, hdata, hlegacy⟩ := hw
    refine ⟨⟨hopen.agrees, hopen.saved ▸ hentered.under, ?_, ?_⟩, t, u, hrt, hq, hruw, hdata⟩
    · rw [hopen.savepoints]
      exact hentered.nodup
    · exact hlegacy.trans (hsteady.engine.legacyAlter.trans ht.legacyAlter)
  · obtain ⟨hsteady, hf⟩ := hu
    have habort := (ends_abort laws (α := α) (hsteady.open ht.toOpen) hentered.fresh e).and (preserves_abort (R := R) savepoint e u)
    refine habort.mono (fun _ _ h => h.1.elim) fun _ w hw => ?_
    obtain ⟨hw, hrw⟩ := hw
    refine ⟨Session.Reaches.unmade hentered.under hentered.nodup ⟨hw.toOpen, hw.data, ?_, ?_⟩, .inr ⟨t, u, hrt, hf, hrw⟩⟩
    · exact hw.legacyAlter.trans (hsteady.engine.legacyAlter.trans ht.legacyAlter)
    · exact hw.catalog.trans (hsteady.catalog.trans ht.catalog)

/-- The relation that says nothing. -/
instance : Session.IsEngineFrame fun (_ _ : Session σ) => True where
  alike _ := trivial
  trans _ _ := trivial
  ledger _ _ := trivial
  catalog _ _ := trivial
  savepoint _ _ := trivial
  release _ _ := trivial
  rollback _ _ := trivial
  readLegacyAlter _ := trivial
  setLegacyAlter _ _ := trivial

theorem ends_change (laws : Transactional v) {α : Type} {savepoint : String} (hne : savepoint ≠ restorePoint) {s : Session σ}
    (hs : s.Agrees v) {body : Op σ α} {Q : α → δ → Prop}
    (hbody : ∀ t, v.data t.engine = v.data s.engine → t.catalog = s.catalog →
      body.Ends t (fun a u => t.Steady v u ∧ Q a (v.data u.engine)) fun _ u => t.Steady v u) :
    (change savepoint body).Ends s (fun a t => s.Made v t ∧ Q a (v.data t.engine)) fun _ t => s.Unmade v t := by
  have hend := ends_change_framed laws (R := fun _ _ => True) hne hs (Q := fun a _ u => Q a (v.data u.engine)) (F := fun _ _ => True)
    fun t hdata hcatalog _ => (hbody t hdata hcatalog).mono (fun _ _ hu => hu) fun _ _ hu => ⟨hu, trivial⟩
  refine hend.mono ?_ fun _ _ hw => hw.1
  rintro a w ⟨hmade, t, u, -, hq, -, hdata⟩
  exact ⟨hmade, by rwa [hdata]⟩

/-- What holds across the body holds across the change. -/
theorem ends_change_preserving (laws : Transactional v) {R : Session σ → Session σ → Prop} [Session.IsEngineFrame R] {α : Type}
    {savepoint : String} (hne : savepoint ≠ restorePoint) {s : Session σ} (hs : s.Agrees v) {body : Op σ α}
    (hsteady : body.IsSteady v) (hbody : body.Preserves R) :
    (change savepoint body).Ends s (fun _ t => s.Made v t ∧ R s t) fun _ t => s.Unmade v t ∧ R s t := by
  have hend := ends_change_framed laws (R := R) hne hs (Q := fun _ => R) (F := R) fun t _ _ _ => (hsteady t).and (hbody t)
  have htrans {t u w : Session σ} (ht : R s t) (hu : R t u) (hw : R u w) : R s w := Session.IsFrame.trans ht (Session.IsFrame.trans hu hw)
  refine hend.mono ?_ fun e w hw => ⟨hw.1, ?_⟩
  · rintro a w ⟨hmade, t, u, ht, hu, hw, -⟩
    exact ⟨hmade, htrans ht hu hw⟩
  · rcases hw.2 with hw | ⟨t, u, ht, hu, hw⟩
    · exact hw
    · exact htrans ht hu hw

/-! ## Changes that succeed -/

/-- Savepoints can be opened. -/
def OpensSavepoints (σ : Type) [Engine σ] : Prop := ∀ (name : String) (e : σ), ∃ n e', Engine.execute (savepointSql name) e = (.ok n, e')

theorem ends_openSavepoint_ok (hopens : OpensSavepoints σ) (name : String) (s : Session σ) :
    (openSavepoint name).Ends s (fun _ _ => True) fun _ _ => False := by
  refine ends_ledger ?_
  cases hactive : s.ledger.isActive name with
  | true => exact ends_pure trivial
  | false =>
    obtain ⟨n, e, he⟩ := hopens name s.engine
    exact ends_bind (ends_execute_ok he trivial)

theorem ends_beginOperation_ok (hopens : OpensSavepoints σ) {savepoint : String} {s : Session σ}
    (hinactive : s.ledger.isActive savepoint = false) : (beginOperation savepoint).Ends s (fun _ _ => True) fun _ _ => False := by
  refine ends_ledger ?_
  rw [hinactive, if_neg Bool.false_ne_true]
  refine ends_ledger ((ends_openSavepoint_ok hopens restorePoint s).bind fun _ t _ => ?_)
  refine ends_bind (Ends.observe ((ends_openSavepoint_ok hopens savepoint t).mono (fun _ _ _ => ?_) fun _ _ => False.elim))
  exact ends_pure trivial

/-- A change whose savepoints can be opened succeeds if its body does. -/
theorem ends_change_ok (laws : Transactional v) (hopens : OpensSavepoints σ) {α : Type} {savepoint : String}
    (hne : savepoint ≠ restorePoint) {s : Session σ} (hs : s.Agrees v) (hinactive : s.ledger.isActive savepoint = false)
    {body : Op σ α} {Q : δ → Prop} (hbody : ∀ t, v.data t.engine = v.data s.engine → t.catalog = s.catalog →
      body.Ends t (fun _ u => t.Steady v u ∧ Q (v.data u.engine)) fun _ _ => False) :
    (change savepoint body).Ends s (fun _ t => s.Made v t ∧ Q (v.data t.engine)) fun _ _ => False := by
  have hmade := ends_change laws hne hs (Q := fun _ => Q) fun t hdata hcatalog =>
    (hbody t hdata hcatalog).mono (fun _ _ => id) fun _ _ => False.elim
  have hend : (change savepoint body).Ends s (fun _ _ => True) fun _ _ => False := by
    have hbegin := (ends_beginOperation laws hne hs).and (ends_beginOperation_ok hopens hinactive)
    refine ends_bind (hbegin.mono (fun _ t ht => ?_) fun _ _ h => h.2)
    obtain ⟨⟨outer, hentered, ht⟩, -⟩ := ht
    refine ends_bind (Ends.observe ((hbody t ht.data ht.catalog).mono (fun a u hu => ?_) fun _ _ => False.elim))
    have hfinish := ends_finishOperation laws (R := fun _ _ => True) (hu.1.open ht.toOpen) hentered.fresh hentered.restorePoint
      (E := fun _ _ => False)
    exact ends_bind (hfinish.mono (fun _ _ _ => ends_pure trivial) fun _ _ => id)
  exact (hmade.and hend).mono (fun _ _ h => h.1) fun _ _ h => h.2

end Op

end SchemaEditor
