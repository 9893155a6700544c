import SchemaEditor.Proofs.Engine.View

/-!
# Runs of operations

`op.Ends s P E` says how a run of `op` from the session `s` ends: with a result and a session that satisfy `P`,
or with an error and a session that satisfy `E`. An operation is steady if it ends, in either way, with the
savepoints, the setting, the ledger and the catalog as they were; only the data may have changed.
-/

namespace SchemaEditor

variable {σ δ : Type}

namespace Op

variable {α β : Type}

def Ends (op : Op σ α) (s : Session σ) (P : α → Session σ → Prop) (E : SchemaError → Session σ → Prop) : Prop :=
  match op s with
  | .ok a s' => P a s'
  | .error e s' => E e s'

section
variable {op : Op σ α} {next : α → Op σ β} {s s' : Session σ} {P P' : α → Session σ → Prop}
  {Q : β → Session σ → Prop} {E E' : SchemaError → Session σ → Prop}

theorem Ends.ok {a : α} (h : op.Ends s P E) (hok : op s = .ok a s') : P a s' := by
  unfold Ends at h
  rw [hok] at h
  exact h

theorem Ends.error {e : SchemaError} (h : op.Ends s P E) (herror : op s = .error e s') : E e s' := by
  unfold Ends at h
  rw [herror] at h
  exact h

/-- An operation that cannot fail succeeds. -/
theorem Ends.exists_ok (h : op.Ends s P fun _ _ => False) : ∃ a t, op s = .ok a t ∧ P a t := by
  unfold Ends at h
  split at h
  · next a t hok => exact ⟨a, t, hok, h⟩
  · exact h.elim

theorem ends_of_ok {a : α} (hok : op s = .ok a s') (h : P a s') : op.Ends s P E := by
  unfold Ends
  rw [hok]
  exact h

theorem ends_of_error {e : SchemaError} (herror : op s = .error e s') (h : E e s') : op.Ends s P E := by
  unfold Ends
  rw [herror]
  exact h

theorem Ends.mono (h : op.Ends s P E) (hP : ∀ a s', P a s' → P' a s') (hE : ∀ e s', E e s' → E' e s') : op.Ends s P' E' := by
  unfold Ends at h ⊢
  split
  · next a s' hok => rw [hok] at h; exact hP a s' h
  · next e s' herror => rw [herror] at h; exact hE e s' h

/-- What holds at the end of a run by two accounts of it. -/
theorem Ends.and (h : op.Ends s P E) (h' : op.Ends s P' E') :
    op.Ends s (fun a t => P a t ∧ P' a t) fun e t => E e t ∧ E' e t := by
  unfold Ends at h h' ⊢
  split
  · next hok => rw [hok] at h h'; exact ⟨h, h'⟩
  · next herror => rw [herror] at h h'; exact ⟨h, h'⟩

theorem ends_of_forall_ok (h : ∀ a t, op s = .ok a t → P a t) : op.Ends s P fun _ _ => True := by
  unfold Ends
  split
  · next hok => exact h _ _ hok
  · trivial

/-- An operation goes on after a result and stops at an error. -/
theorem ends_bind (h : op.Ends s (fun a t => (next a).Ends t Q E) E) : (op >>= next).Ends s Q E := by
  unfold Ends at h ⊢
  show match EStateM.bind op next s with | .ok b s' => Q b s' | .error e s' => E e s'
  unfold EStateM.bind
  cases hop : op s with
  | ok a s' =>
    rw [hop] at h
    exact h
  | error e s' =>
    rw [hop] at h
    exact h

theorem Ends.bind (h : op.Ends s P E) (hnext : ∀ a s', P a s' → (next a).Ends s' Q E) : (op >>= next).Ends s Q E :=
  ends_bind (h.mono hnext fun _ _ he => he)

theorem ends_pure {a : α} (h : P a s) : (pure a : Op σ α).Ends s P E := h

theorem ends_throw {e : SchemaError} (h : E e s) : (throw e : Op σ α).Ends s P E := h

/-- What an operation looks up in its session is known. -/
theorem ends_session {next : Session σ → Op σ β} (h : (next s).Ends s Q E) : (session >>= next).Ends s Q E := h

theorem ends_ledger {next : Ledger → Op σ β} (h : (next s.ledger).Ends s Q E) : (ledger >>= next).Ends s Q E := h

theorem ends_catalog {next : Catalog → Op σ β} (h : (next s.catalog).Ends s Q E) : (catalog >>= next).Ends s Q E := h

/-- An observed operation has its error as a result. -/
theorem Ends.observe {P : Except SchemaError α → Session σ → Prop}
    (h : op.Ends s (fun a => P (.ok a)) fun e => P (.error e)) : (observe op).Ends s P E := by
  unfold Ends at h ⊢
  unfold Op.observe
  cases hop : op s with
  | ok a s' => rw [hop] at h; exact h
  | error e s' => rw [hop] at h; exact h

theorem ends_ofExcept {r : Except SchemaError α} (hok : ∀ a, r = .ok a → P a s) (herror : ∀ e, r = .error e → E e s) :
    (ofExcept r).Ends s P E := by
  cases r with
  | ok a => exact hok a rfl
  | error e => exact herror e rfl

end

/-! ## Statements -/

/-- A request ends with its answer. -/
theorem ends_request {f : σ → α × σ} {s : Session σ} {P : α → Session σ → Prop} {E : SchemaError → Session σ → Prop}
    (h : ∀ a u, f s.engine = (a, u) → P a { s with engine := u }) : (request f).Ends s P E :=
  h _ _ rfl

section
variable [Engine σ]

theorem tryExecute_eq (sql : String) (s : Session σ) :
    tryExecute sql s =
      .ok (Engine.execute sql s.engine).1 { s.logStatement sql with engine := (Engine.execute sql s.engine).2 } :=
  rfl

/-- A statement ends with the engine's answer. -/
theorem ends_execute {sql : String} {s : Session σ} {P : Nat → Session σ → Prop} {E : SchemaError → Session σ → Prop}
    (hok : ∀ n t, Engine.execute sql s.engine = (.ok n, t) → P n { s.logStatement sql with engine := t })
    (herror : ∀ e t, Engine.execute sql s.engine = (.error e, t) → E (.engine e) { s.logStatement sql with engine := t }) :
    (execute sql).Ends s P E := by
  refine ends_bind (ends_of_ok (tryExecute_eq sql s) ?_)
  cases hr : Engine.execute sql s.engine with
  | mk r t =>
    cases r with
    | ok n => exact hok n t hr
    | error e => exact herror e t hr

theorem ends_execute_ok {sql : String} {s : Session σ} {P : Nat → Session σ → Prop} {E : SchemaError → Session σ → Prop}
    {n : Nat} {t : σ} (ht : Engine.execute sql s.engine = (.ok n, t)) (h : P n { s.logStatement sql with engine := t }) :
    (execute sql).Ends s P E := by
  refine ends_execute (fun m u hu => ?_) fun e u hu => ?_
  · rw [ht] at hu
    cases hu
    exact h
  · rw [ht] at hu
    cases hu

end

end Op

/-! ## What operations preserve -/

namespace Session

/-- The sessions differ at most in what is counted and reported. -/
structure Alike (s t : Session σ) : Prop where
  engine : t.engine = s.engine
  ledger : t.ledger = s.ledger
  catalog : t.catalog = s.catalog
  suspended : t.foreignKeysSuspended = s.foreignKeysSuspended

theorem Alike.refl (s : Session σ) : s.Alike s := ⟨rfl, rfl, rfl, rfl⟩

theorem Alike.trans {s₁ s₂ s₃ : Session σ} (h : s₁.Alike s₂) (h' : s₂.Alike s₃) : s₁.Alike s₃ :=
  ⟨h'.engine.trans h.engine, h'.ledger.trans h.ledger, h'.catalog.trans h.catalog, h'.suspended.trans h.suspended⟩

/-- A relation between the session before and the session after, which holds along a run if it holds at each step. -/
class IsFrame (R : Session σ → Session σ → Prop) : Prop where
  alike {s t : Session σ} : s.Alike t → R s t
  trans {s t u : Session σ} : R s t → R t u → R s u

theorem IsFrame.refl {R : Session σ → Session σ → Prop} [IsFrame R] (s : Session σ) : R s s := alike (.refl s)

instance : IsFrame (Alike : Session σ → Session σ → Prop) := ⟨id, Alike.trans⟩

end Session

namespace Op

variable {α β : Type} {R : Session σ → Session σ → Prop}

/-- The relation holds from the start to the end, whether the operation succeeds or fails. -/
def Preserves (R : Session σ → Session σ → Prop) (op : Op σ α) : Prop := ∀ s, op.Ends s (fun _ t => R s t) fun _ t => R s t

/-- Two relations are preserved side by side. -/
theorem Preserves.and {R' : Session σ → Session σ → Prop} {op : Op σ α} (h : op.Preserves R) (h' : op.Preserves R') :
    op.Preserves fun s t => R s t ∧ R' s t :=
  fun s => (h s).and (h' s)

theorem Preserves.observe {op : Op σ α} (h : op.Preserves R) : (Op.observe op).Preserves R := fun s => (h s).observe

/-- A look at the session may decide how to go on. -/
theorem Preserves.session {next : Session σ → Op σ β} (hnext : ∀ s, (next s).Preserves R) : (Op.session >>= next).Preserves R :=
  fun s => hnext s s

theorem Preserves.ledger {next : Ledger → Op σ β} (hnext : ∀ l, (next l).Preserves R) : (Op.ledger >>= next).Preserves R :=
  fun s => hnext s.ledger s

theorem Preserves.catalog {next : Catalog → Op σ β} (hnext : ∀ c, (next c).Preserves R) : (Op.catalog >>= next).Preserves R :=
  fun s => hnext s.catalog s

theorem preserves_request {f : σ → α × σ} (h : ∀ s : Session σ, R s { s with engine := (f s.engine).2 }) :
    (request f).Preserves R :=
  fun s => h s

theorem preserves_modifyLedger {f : Ledger → Ledger} (h : ∀ s : Session σ, R s { s with ledger := f s.ledger }) :
    (modifyLedger f).Preserves R :=
  fun s => h s

variable [Session.IsFrame R]

theorem Preserves.bind {op : Op σ α} {next : α → Op σ β} (h : op.Preserves R) (hnext : ∀ a, (next a).Preserves R) :
    (op >>= next).Preserves R := by
  intro s
  refine (h s).bind fun a t ht => ?_
  exact (hnext a t).mono (fun _ _ => Session.IsFrame.trans ht) fun _ _ => Session.IsFrame.trans ht

theorem preserves_pure (a : α) : (pure a : Op σ α).Preserves R := fun s => Session.IsFrame.refl s

theorem preserves_throw (e : SchemaError) : (throw e : Op σ α).Preserves R := fun s => Session.IsFrame.refl s

theorem preserves_ofExcept (r : Except SchemaError α) : (ofExcept r : Op σ α).Preserves R := by
  cases r with
  | ok a => exact preserves_pure a
  | error e => exact preserves_throw e

theorem preserves_ofEngine (r : Except EngineError α) : (ofEngine r : Op σ α).Preserves R := by
  cases r with
  | ok a => exact preserves_pure a
  | error e => exact preserves_throw (.engine e)

theorem preserves_warn (w : Warning) : (warn w : Op σ Unit).Preserves R := fun _ => Session.IsFrame.alike ⟨rfl, rfl, rfl, rfl⟩

theorem preserves_note (n : Notice) : (note n : Op σ Unit).Preserves R := fun _ => Session.IsFrame.alike ⟨rfl, rfl, rfl, rfl⟩

theorem preserves_poll (signal : Signal) : (poll signal : Op σ Bool).Preserves R :=
  fun _ => Session.IsFrame.alike ⟨rfl, rfl, rfl, rfl⟩

theorem preserves_checkSignal (signal : Signal) : (checkSignal signal : Op σ Unit).Preserves R := by
  refine (preserves_poll signal).bind fun stop => ?_
  by_cases hstop : stop = true
  · rw [if_pos hstop]
    exact preserves_throw .cancelled
  · rw [if_neg hstop]
    exact preserves_pure ()

theorem preserves_logStatement (sql : String) : (logStatement sql : Op σ Unit).Preserves R :=
  fun _ => Session.IsFrame.alike ⟨rfl, rfl, rfl, rfl⟩

end Op

/-! ## Steady operations -/

/-- Nothing has changed but the data, and what is counted and reported. -/
structure Session.Steady (v : EngineView σ δ) (s s' : Session σ) : Prop where
  engine : v.Keeps s.engine s'.engine
  ledger : s'.ledger = s.ledger
  catalog : s'.catalog = s.catalog
  suspended : s'.foreignKeysSuspended = s.foreignKeysSuspended

instance (v : EngineView σ δ) : Session.IsFrame (Session.Steady v) where
  alike h := ⟨h.engine ▸ .refl _, h.ledger, h.catalog, h.suspended⟩
  trans h h' :=
    ⟨h.engine.trans h'.engine, h'.ledger.trans h.ledger, h'.catalog.trans h.catalog, h'.suspended.trans h.suspended⟩

def Op.IsSteady {α : Type} (v : EngineView σ δ) (op : Op σ α) : Prop :=
  ∀ s, op.Ends s (fun _ s' => s.Steady v s') fun _ s' => s.Steady v s'

end SchemaEditor
