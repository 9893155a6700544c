import SchemaEditor.Proofs.Database.Mirror

/-!
# Keeping the ledger

Nothing is asked of the engine here: it may refuse any statement, and answer the same statement one way now
and another way later. The ledger counts a savepoint as open from the answer that it is open to the answer
that it is released, and what it announces is what it holds.
-/

namespace SchemaEditor

variable {σ : Type} [Engine σ]

/-- What a caller can ask of the ledger. -/
inductive LedgerCall where
  | begin (name : String)
  | commit (name : String)
  | rollback (name : String)
  | commitAll
  | rollbackAll
  | clear
deriving DecidableEq, Repr

def LedgerCall.run : LedgerCall → Op σ Unit
  | begin name => Op.openSavepoint name
  | commit name => Op.releaseSavepoint name
  | rollback name => Op.revertSavepoint name
  | commitAll => Op.releaseAll
  | rollbackAll => Op.revertAll
  | clear => Op.modifyLedger Ledger.clear

def Session.afterLedgerCalls (s : Session σ) (calls : List LedgerCall) : Session σ :=
  calls.foldl (fun s c => c.run.after s) s

/-! ## The ledger alone -/

namespace Ledger

/-- No savepoint is listed twice, and what was last announced is so. -/
structure IsSound (l : Ledger) : Prop where
  distinct : l.active.Nodup
  announced : l.announced = l.isDirty

theorem isSound_new : ({} : Ledger).IsSound := ⟨List.nodup_nil, rfl⟩

variable {l : Ledger}

theorem IsSound.push (h : l.IsSound) {name : String} (hname : name ∉ l.active) : (l.push name).IsSound := by
  constructor
  · show (l.active ++ [name]).Nodup
    rw [List.nodup_append]
    refine ⟨h.distinct, by simp, ?_⟩
    intro n hn m hm hnm
    apply hname
    rwa [← List.mem_singleton.mp hm, ← hnm]
  · rfl

theorem IsSound.truncate (h : l.IsSound) (n : Nat) : (l.truncate n).IsSound :=
  ⟨h.distinct.sublist (List.take_sublist n l.active), rfl⟩

theorem truncate_active {outer rest : List String} (h : l.active = outer ++ rest) :
    (l.truncate outer.length).active = outer := by
  show l.active.take outer.length = outer
  rw [h, List.take_left]

end Ledger

theorem takeWhile_ne_append {name : String} {outer inner : List String} (h : name ∉ outer) :
    (outer ++ name :: inner).takeWhile (· ≠ name) = outer := by
  have houter : outer.takeWhile (· ≠ name) = outer := takeWhile_ne_of_not_mem h
  rw [List.takeWhile_append, houter]
  simp

namespace Op

/-! ## Statements -/

/-- The last thing done was one of the statements, and the engine refused it with this error. -/
def Refused (sqls : List String) (e : SchemaError) (t : Session σ) : Prop :=
  ∃ sql ∈ sqls, ∃ (u : σ) (answer : EngineError), Engine.execute sql u = (.error answer, t.engine) ∧ e = .engine answer ∧
    t.events.head? = some (.executed (Text.logged sql))

theorem Refused.mono {sqls sqls' : List String} (hsub : ∀ sql ∈ sqls, sql ∈ sqls') {e : SchemaError} {t : Session σ}
    (h : Refused sqls e t) : Refused sqls' e t := by
  obtain ⟨sql, hsql, h⟩ := h
  exact ⟨sql, hsub sql hsql, h⟩

theorem ends_execute_refused (sql : String) (s : Session σ) :
    (execute sql).Ends s (fun _ t => t.ledger = s.ledger) fun e t => t.ledger = s.ledger ∧ Refused [sql] e t := by
  apply ends_execute
  · intro n u hu
    rfl
  · intro e u hu
    exact ⟨rfl, sql, List.mem_singleton.mpr rfl, s.engine, e, hu, rfl, rfl⟩

theorem ends_openSavepoint_ledger (name : String) (s : Session σ) :
    (openSavepoint name).Ends s (fun _ t => t.ledger = if name ∈ s.ledger.active then s.ledger else s.ledger.push name)
      fun _ t => t.ledger = s.ledger := by
  by_cases hname : name ∈ s.ledger.active
  · have hactive : s.ledger.isActive name = true := List.contains_iff_mem.mpr hname
    apply (ends_openSavepoint_active hactive).mono
    · intro _ t ht
      rw [if_pos hname, ht]
    · intro _ _ h
      exact h
  · apply ends_ledger
    have hinactive : s.ledger.isActive name = false := by simpa [Ledger.isActive] using hname
    rw [hinactive, if_neg hname]
    apply ends_bind
    apply (ends_execute_refused (savepointSql name) s).mono
    · intro _ t ht
      show t.ledger.push name = s.ledger.push name
      rw [ht]
    · intro _ t ht
      exact ht.1

/-! ## Settling one savepoint -/

/-- An operation that settles a savepoint by statements: the ledger forgets it, and all inside it, when the last of
them is done, and not before. -/
structure SettlesBy (settle : String → Op σ Unit) (sqls : String → List String) : Prop where
  found {s : Session σ} {name : String} {outer inner : List String} : s.ledger.active = outer ++ name :: inner →
    name ∉ outer → (settle name).Ends s (fun _ t => t.ledger = s.ledger.truncate outer.length)
      fun e t => t.ledger = s.ledger ∧ Refused (sqls name) e t
  missing {s : Session σ} {name : String} : name ∉ s.ledger.active →
    settle name s = .error (.savepointNotFound name) s

theorem settlesBy_release : SettlesBy (releaseSavepoint : String → Op σ Unit) fun name => [releaseSql name] where
  found {s name outer inner} hactive hnot := by
    apply ends_bind
    apply ends_of_ok (position_eq hactive hnot)
    apply ends_bind
    apply (ends_execute_refused (releaseSql name) s).mono
    · intro _ t ht
      show t.ledger.truncate outer.length = _
      rw [ht]
    · intro e t ht
      exact ht
  missing {s name} h := by
    show EStateM.bind (position name) _ s = _
    rw [EStateM.bind, position_missing h]

theorem settlesBy_revert :
    SettlesBy (revertSavepoint : String → Op σ Unit) fun name => [rollbackSql name, releaseSql name] where
  found {s name outer inner} hactive hnot := by
    apply ends_bind
    apply ends_of_ok (position_eq hactive hnot)
    apply ends_bind
    apply (ends_execute_refused (rollbackSql name) s).mono
    · intro _ t ht
      apply ends_bind
      -- the ledger knows nothing yet of the statement that succeeded
      apply (ends_execute_refused (releaseSql name) t).mono
      · intro _ u hu
        show u.ledger.truncate outer.length = _
        rw [hu, ht]
      · intro e u hu
        exact ⟨hu.1.trans ht, hu.2.mono (by simp)⟩
    · intro e t ht
      exact ⟨ht.1, ht.2.mono (by simp)⟩
  missing {s name} h := by
    show EStateM.bind (position name) _ s = _
    rw [EStateM.bind, position_missing h]

variable {settle : String → Op σ Unit} {sqls : String → List String}

theorem SettlesBy.one (h : SettlesBy settle sqls) (name : String) (s : Session σ) :
    (settle name).Ends s
      (fun _ t => ∃ outer inner, s.ledger.active = outer ++ name :: inner ∧ name ∉ outer ∧
        t.ledger = s.ledger.truncate outer.length)
      fun _ t => t.ledger = s.ledger := by
  by_cases hname : name ∈ s.ledger.active
  · have hactive := takeWhile_append_dropWhile_tail hname
    have hnot := not_mem_takeWhile_ne s.ledger.active name
    apply (h.found hactive hnot).mono
    · intro _ t ht
      exact ⟨_, _, hactive, hnot, ht⟩
    · intro _ t ht
      exact ht.1
  · exact ends_of_error (h.missing hname) rfl

/-! ## Settling all savepoints -/

/-- Settles savepoints from the inside out, for at most so many rounds. -/
def settleRounds (settle : String → Op σ Unit) : Nat → Op σ Unit
  | 0 => pure ()
  | n + 1 => fun s =>
    match s.ledger.active.getLast? with
    | none => .ok () s
    | some name => (settle name >>= fun _ => settleRounds settle n) s

section
variable [Settles settle] {s : Session σ}

omit [Engine σ] in
theorem settleAll_of_last {name : String} (hlast : s.ledger.active.getLast? = some name) :
    settleAll settle s = (settle name >>= fun _ => settleAll settle) s := by
  have hends : (settleAll settle).Ends s
      (fun a t => (settle name >>= fun _ => settleAll settle) s = .ok a t)
      fun e t => (settle name >>= fun _ => settleAll settle) s = .error e t := by
    apply ends_settleAll_last hlast
    show (settle name).Ends s (fun _ t => (settleAll settle).Ends t
      (fun a u => EStateM.bind (settle name) (fun _ => settleAll settle) s = .ok a u)
      fun e u => EStateM.bind (settle name) (fun _ => settleAll settle) s = .error e u)
      fun e t => EStateM.bind (settle name) (fun _ => settleAll settle) s = .error e t
    unfold Ends EStateM.bind
    cases settle name s with
    | error e t => rfl
    | ok _ t => cases hrest : settleAll settle t <;> simp [hrest]
  cases hall : settleAll settle s with
  | ok a t => exact (hends.ok hall).symm
  | error e t => exact (hends.error hall).symm

omit [Engine σ] in
/-- There are as many rounds as savepoints, for each round leaves fewer of them. -/
theorem settleAll_eq_settleRounds {n : Nat} (hn : s.ledger.active.length ≤ n) :
    settleAll settle s = settleRounds settle n s := by
  induction n generalizing s with
  | zero =>
    have hnil : s.ledger.active = [] := List.length_eq_zero_iff.mp (Nat.le_zero.mp hn)
    rw [settleAll_done (by rw [hnil]; rfl)]
    rfl
  | succ n ih =>
    cases hlast : s.ledger.active.getLast? with
    | none =>
      rw [settleAll_done hlast]
      simp only [settleRounds, hlast]
    | some name =>
      rw [settleAll_of_last hlast]
      simp only [settleRounds, hlast]
      show EStateM.bind (settle name) _ s = EStateM.bind (settle name) _ s
      unfold EStateM.bind
      cases hrun : settle name s with
      | error e t => rfl
      | ok _ t =>
        have hfewer := Settles.settles hrun
        exact ih (by omega)

/-- All savepoints are settled, or those inside the one whose statement is refused. -/
theorem SettlesBy.all (h : SettlesBy settle sqls) (hs : s.ledger.IsSound) :
    (settleAll settle).Ends s (fun _ t => t.ledger.IsSound ∧ t.ledger.active = [])
      fun e t => t.ledger.IsSound ∧ ∃ outer name inner, s.ledger.active = outer ++ name :: inner ∧
        t.ledger.active = outer ++ [name] ∧ Refused (sqls name) e t := by
  let I (names : List String) (t : Session σ) : Prop :=
    t.ledger.active = names ∧ t.ledger.IsSound ∧ ∃ inner, s.ledger.active = names ++ inner
  have hstart : I s.ledger.active s := ⟨rfl, hs, [], by simp⟩
  apply (ends_settleAll (I := I) _ _ hstart).mono
  · intro _ t ht
    exact ⟨ht.2.1, ht.1⟩
  · intro _ _ h
    exact h
  · intro names t ht
    exact ht.1
  · intro outer name t ht
    obtain ⟨hactive, hsound, inner, hinner⟩ := ht
    have hnot : name ∉ outer := by
      have hdistinct := hsound.distinct
      rw [hactive] at hdistinct
      intro hmem
      exact (List.nodup_append.mp hdistinct).2.2 name hmem name (by simp) rfl
    rw [List.append_assoc] at hinner
    apply (h.found hactive hnot).mono
    · intro _ u hu
      have houter : u.ledger.active = outer := by
        rw [hu]
        exact Ledger.truncate_active hactive
      refine ⟨houter, ?_, _, hinner⟩
      rw [hu]
      exact hsound.truncate _
    · intro e u hu
      rw [hu.1]
      exact ⟨hsound, outer, name, inner, hinner, hactive, hu.2⟩

end

end Op

/-! ## All calls -/

/-- What settling one savepoint, and settling all of them, does to the ledger. -/
structure Session.SettlesRightly (s : Session σ) (settle : String → Op σ Unit) [Op.Settles settle]
    (sqls : String → List String) : Prop where
  /-- Of a savepoint that is not open, nothing is asked of the engine. -/
  inactive (name : String) : name ∉ s.ledger.active → settle name s = .error (.savepointNotFound name) s
  one (name : String) : (settle name).Ends s
    (fun _ t => name ∈ s.ledger.active ∧ t.ledger.active = s.ledger.active.takeWhile (· ≠ name))
    fun _ t => t.ledger.active = s.ledger.active
  rounds : Op.settleAll settle s = Op.settleRounds settle s.ledger.active.length s
  all : (Op.settleAll settle).Ends s (fun _ t => t.ledger.active = [])
    fun e t => ∃ outer name inner, s.ledger.active = outer ++ name :: inner ∧ t.ledger.active = outer ++ [name] ∧
      Op.Refused (sqls name) e t

/-- The ledger is right, and right after any call. -/
structure Session.KeepsBooks (s : Session σ) : Prop where
  distinct : s.ledger.active.Nodup
  announced : s.ledger.announced = s.ledger.isDirty
  begin (name : String) : (LedgerCall.begin name).run.Ends s
    (fun _ t => t.ledger.active = if name ∈ s.ledger.active then s.ledger.active else s.ledger.active ++ [name])
    fun _ t => t.ledger.active = s.ledger.active
  commit : s.SettlesRightly Op.releaseSavepoint fun name => [releaseSql name]
  rollback : s.SettlesRightly Op.revertSavepoint fun name => [rollbackSql name, releaseSql name]
  clear : LedgerCall.clear.run.Ends s (fun _ t => t.ledger.active = []) fun _ _ => False

theorem Op.SettlesBy.settlesRightly {settle : String → Op σ Unit} [Op.Settles settle] {sqls : String → List String}
    (h : Op.SettlesBy settle sqls) {s : Session σ} (hs : s.ledger.IsSound) : s.SettlesRightly settle sqls where
  inactive _ := h.missing
  one name := by
    apply (h.one name s).mono
    · intro _ t ht
      obtain ⟨outer, inner, hactive, hnot, ht⟩ := ht
      rw [ht, Ledger.truncate_active hactive, hactive, takeWhile_ne_append hnot]
      simp
    · intro _ t ht
      rw [ht]
  rounds := Op.settleAll_eq_settleRounds (Nat.le_refl _)
  all := by
    apply (h.all hs).mono
    · intro _ t ht
      exact ht.2
    · intro _ t ht
      exact ht.2

theorem Ledger.IsSound.keepsBooks {s : Session σ} (hs : s.ledger.IsSound) : s.KeepsBooks where
  distinct := hs.distinct
  announced := hs.announced
  begin name := by
    apply (Op.ends_openSavepoint_ledger name s).mono
    · intro _ t ht
      rw [ht]
      split <;> rfl
    · intro _ t ht
      rw [ht]
  commit := Op.settlesBy_release.settlesRightly hs
  rollback := Op.settlesBy_revert.settlesRightly hs
  clear := rfl

theorem Op.SettlesBy.isSound {settle : String → Op σ Unit} {sqls : String → List String} (h : Op.SettlesBy settle sqls)
    (name : String) {s : Session σ} (hs : s.ledger.IsSound) : ((settle name).after s).ledger.IsSound := by
  apply Op.Ends.after (P := fun t => t.ledger.IsSound)
  apply (h.one name s).mono
  · intro _ t ht
    obtain ⟨outer, inner, -, -, ht⟩ := ht
    rw [ht]
    exact hs.truncate _
  · intro _ t ht
    rwa [ht]

/-- One call leaves the ledger sound. -/
theorem LedgerCall.isSound_run (c : LedgerCall) {s : Session σ} (hs : s.ledger.IsSound) : (c.run.after s).ledger.IsSound := by
  cases c with
  | begin name =>
    apply Op.Ends.after (P := fun t => t.ledger.IsSound)
    apply (Op.ends_openSavepoint_ledger name s).mono
    · intro _ t ht
      rw [ht]
      by_cases hname : name ∈ s.ledger.active
      · rwa [if_pos hname]
      · rw [if_neg hname]
        exact hs.push hname
    · intro _ t ht
      rwa [ht]
  | commit name => exact Op.settlesBy_release.isSound name hs
  | rollback name => exact Op.settlesBy_revert.isSound name hs
  | commitAll =>
    apply Op.Ends.after (P := fun t => t.ledger.IsSound)
    exact (Op.settlesBy_release.all hs).mono (fun _ _ h => h.1) fun _ _ h => h.1
  | rollbackAll =>
    apply Op.Ends.after (P := fun t => t.ledger.IsSound)
    exact (Op.settlesBy_revert.all hs).mono (fun _ _ h => h.1) fun _ _ h => h.1
  | clear => exact hs.truncate 0

theorem isSound_afterLedgerCalls (calls : List LedgerCall) {s : Session σ} (hs : s.ledger.IsSound) :
    (s.afterLedgerCalls calls).ledger.IsSound := by
  induction calls generalizing s with
  | nil => exact hs
  | cons c calls ih => exact ih (c.isSound_run hs)

/-- From a new ledger on, the books are kept through any calls, whatever the engine answers. -/
theorem Session.keepsBooks_afterLedgerCalls (s : Session σ) (calls : List LedgerCall) :
    (({ s with ledger := {} } : Session σ).afterLedgerCalls calls).KeepsBooks := by
  have hsound := isSound_afterLedgerCalls calls (s := { s with ledger := {} }) Ledger.isSound_new
  exact hsound.keepsBooks

end SchemaEditor
