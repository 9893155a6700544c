import SchemaEditor.Proofs.Database.Change
import SchemaEditor.Proofs.Engine.Journal

/-!
# The ledger beside the engine

The ledger compares names of savepoints letter by letter, the engine without regard to case. So the two lists
stay the same until a savepoint is settled that has another one of its name, but for case, inside it: then the
engine settles the inner one, and the ledger forgets both.
-/

namespace SchemaEditor

variable {σ δ : Type}

/-! ## Calls -/

/-- What a caller can ask of savepoints. -/
inductive SavepointCall where
  | begin (name : String)
  | commit (name : String)
  | rollback (name : String)
  | commitAll
  | rollbackAll
deriving DecidableEq, Repr

namespace SavepointCall

def run [Engine σ] : SavepointCall → Op σ Unit
  | begin name => Op.openSavepoint name
  | commit name => Op.commit name
  | rollback name => Op.rollback name
  | commitAll => Op.commitAll
  | rollbackAll => Op.rollbackAll

/-- The savepoints after a call, by their names as they are written. -/
def settled (names : List String) : SavepointCall → List String
  | begin name => if name ∈ names then names else names ++ [name]
  | commit name | rollback name => names.takeWhile (· ≠ name)
  | commitAll | rollbackAll => []

/-- The call settles a savepoint that has another one of its name, but for case, inside it. -/
def Shadowed (names : List String) : SavepointCall → Prop
  | commit name | rollback name => ∃ inner ∈ (names.dropWhile (· ≠ name)).tail, sameName inner name = true
  | begin _ | commitAll | rollbackAll => False

instance (names : List String) : (c : SavepointCall) → Decidable (c.Shadowed names)
  | commit name | rollback name =>
    inferInstanceAs (Decidable (∃ inner ∈ (names.dropWhile (· ≠ name)).tail, sameName inner name = true))
  | begin _ | commitAll | rollbackAll => inferInstanceAs (Decidable False)

end SavepointCall

/-- No call of a sequence is shadowed where it is made. -/
def Unshadowed : List String → List SavepointCall → Prop
  | _, [] => True
  | names, c :: calls => ¬c.Shadowed names ∧ Unshadowed (c.settled names) calls

instance decidableUnshadowed : (names : List String) → (calls : List SavepointCall) → Decidable (Unshadowed names calls)
  | _, [] => inferInstanceAs (Decidable True)
  | names, c :: calls =>
    have := decidableUnshadowed (c.settled names) calls
    inferInstanceAs (Decidable (¬c.Shadowed names ∧ Unshadowed (c.settled names) calls))

/-- The session that an operation leaves, whether it succeeds or fails. -/
def Op.after {α : Type} (op : Op σ α) (s : Session σ) : Session σ :=
  match op s with
  | .ok _ t => t
  | .error _ t => t

def Session.after [Engine σ] (s : Session σ) (calls : List SavepointCall) : Session σ :=
  calls.foldl (fun s c => c.run.after s) s

/-! ## What the engine does -/

/-- Savepoints as the engine's documentation has them, and a setting that leaves them alone. -/
structure SavepointStack [Engine σ] (v : EngineView σ δ) : Prop where
  savepoint (name : String) (s : σ) : ∃ n s', Engine.execute (savepointSql name) s = (.ok n, s') ∧
    v.saved s' = v.saved s ++ [(name, v.data s)]
  release {name : String} {s : σ} {outer : List (String × δ)} {found : String × δ} : v.Finds s name outer found →
    ∃ n s', Engine.execute (releaseSql name) s = (.ok n, s') ∧ v.saved s' = outer
  rollback {name : String} {s : σ} {outer : List (String × δ)} {found : String × δ} : v.Finds s name outer found →
    ∃ n s', Engine.execute (rollbackSql name) s = (.ok n, s') ∧ v.saved s' = outer ++ [found]
  setForeignKeys (s : σ) : v.saved (Engine.execute "PRAGMA foreign_keys = 1" s).2 = v.saved s

theorem Journal.savepointStack : SavepointStack Journal.view where
  savepoint name s := ⟨0, _, Journal.execute_savepoint name s, rfl⟩
  release h := by
    obtain ⟨n, s', hs', hsaved, -⟩ := Journal.transactional.release h
    exact ⟨n, s', hs', hsaved⟩
  rollback h := by
    obtain ⟨n, s', hs', hsaved, -⟩ := Journal.transactional.rollback h
    exact ⟨n, s', hs', hsaved⟩
  setForeignKeys s := congrArg (fun answer => Journal.view.saved answer.2) (Journal.execute_foreignKeys true s)

/-- The last of the entries that a test finds. -/
theorem exists_last_of_exists {α : Type} {p : α → Bool} {l : List α} (h : ∃ a ∈ l, p a = true) :
    ∃ outer a inner, l = outer ++ a :: inner ∧ p a = true ∧ ∀ b ∈ inner, p b = false := by
  induction l with
  | nil => simp at h
  | cons a l ih =>
    by_cases hl : ∃ b ∈ l, p b = true
    · obtain ⟨outer, b, inner, rfl, hb, hinner⟩ := ih hl
      exact ⟨a :: outer, b, inner, rfl, hb, hinner⟩
    · have hnone : ∀ b ∈ l, p b = false := fun b hb => by
        simpa using fun hp => hl ⟨b, hb, hp⟩
      obtain ⟨b, hb, hp⟩ := h
      rcases List.mem_cons.mp hb with rfl | hb
      · exact ⟨[], b, l, rfl, hp, hnone⟩
      · exact absurd hp (by simp [hnone b hb])

namespace EngineView

variable {v : EngineView σ δ}

/-- A savepoint with none of its name inside it is found. -/
theorem finds_of_names {s : σ} {outer inner : List String} {name : String} (h : v.savepoints s = outer ++ name :: inner)
    (hinner : ∀ n ∈ inner, sameName n name = false) : ∃ kept found, v.Finds s name kept found ∧ kept.map Prod.fst = outer := by
  obtain ⟨kept, rest, hsaved, rfl, hrest⟩ := List.map_eq_append_iff.mp h
  obtain ⟨found, above, rfl, rfl, rfl⟩ := List.map_eq_cons_iff.mp hrest
  refine ⟨kept, found, ⟨⟨above, hsaved, fun p hp => hinner p.1 (List.mem_map_of_mem hp)⟩, sameName_refl _⟩, rfl⟩

/-- If there is one of its name inside a savepoint, one of those is found. -/
theorem finds_inside {s : σ} {outer inner : List String} {name : String} (h : v.savepoints s = outer ++ name :: inner)
    (hinner : ∃ n ∈ inner, sameName n name = true) :
    ∃ kept found, v.Finds s name kept found ∧ outer.length < kept.length := by
  obtain ⟨kept, rest, hsaved, rfl, hrest⟩ := List.map_eq_append_iff.mp h
  obtain ⟨first, above, rfl, rfl, rfl⟩ := List.map_eq_cons_iff.mp hrest
  have habove : ∃ p ∈ above, sameName p.1 first.1 = true := by simpa using hinner
  obtain ⟨between, found, top, rfl, hfound, htop⟩ := exists_last_of_exists habove
  refine ⟨kept ++ first :: between, found, ⟨⟨top, by simp [hsaved], htop⟩, hfound⟩, ?_⟩
  simp only [List.length_map, List.length_append, List.length_cons]
  omega

end EngineView

namespace Session

/-- The savepoints are `names`, in the ledger and on the engine. -/
structure Mirrors (v : EngineView σ δ) (names : List String) (s : Session σ) : Prop where
  active : s.ledger.active = names
  savepoints : v.savepoints s.engine = names

/-- Ledger and savepoints are as they were. -/
structure SameStack (v : EngineView σ δ) (s t : Session σ) : Prop where
  ledger : t.ledger = s.ledger
  saved : v.saved t.engine = v.saved s.engine

variable {v : EngineView σ δ}

theorem Mirrors.agrees {names : List String} {s : Session σ} (h : s.Mirrors v names) : s.Agrees v :=
  h.active.trans h.savepoints.symm

instance (v : EngineView σ δ) : IsFrame (SameStack v) where
  alike h := ⟨h.ledger, congrArg v.saved h.engine⟩
  trans h h' := ⟨h'.ledger.trans h.ledger, h'.saved.trans h.saved⟩

theorem SameStack.active {s t : Session σ} (h : s.SameStack v t) : t.ledger.active = s.ledger.active :=
  congrArg Ledger.active h.ledger

theorem SameStack.open {s t : Session σ} (h : s.SameStack v t) {outer : List (String × δ)} (ho : Open v outer s) : Open v outer t :=
  ⟨h.saved.trans ho.saved, h.active.trans ho.active⟩

theorem SameStack.mirrors {s t : Session σ} {names : List String} (h : s.SameStack v t) (hs : s.Mirrors v names) :
    t.Mirrors v names :=
  ⟨h.active.trans hs.active, (congrArg (List.map Prod.fst) h.saved).trans hs.savepoints⟩

theorem SameStack.agrees {s t : Session σ} (h : s.SameStack v t) (ht : t.Agrees v) : s.Agrees v := by
  rw [Agrees, EngineView.savepoints, ← h.saved, ← h.active]
  exact ht

end Session

namespace Op

theorem Ends.after {α : Type} {op : Op σ α} {s : Session σ} {P : Session σ → Prop} (h : op.Ends s (fun _ => P) fun _ => P) :
    P (op.after s) := by
  unfold Ends at h
  unfold Op.after
  cases hop : op s with
  | ok a t => rw [hop] at h; exact h
  | error e t => rw [hop] at h; exact h

/-! ## What follows the settling of savepoints -/

/-- The operation leaves ledger and savepoints alone, whether it succeeds or fails. -/
def KeepsStack {α : Type} (v : EngineView σ δ) (op : Op σ α) : Prop :=
  ∀ s, op.Ends s (fun _ t => s.SameStack v t) fun _ t => s.SameStack v t

section
variable [Engine σ] {v : EngineView σ δ}

theorem keepsStack_resumeForeignKeys (laws : SavepointStack v) : (resumeForeignKeys : Op σ Unit).KeepsStack v :=
  preserves_resumeForeignKeys (fun s => ⟨rfl, laws.setForeignKeys s.engine⟩) fun _ _ => ⟨rfl, rfl⟩

theorem keepsStack_refreshCatalog (signal : Signal) : (refreshCatalog signal : Op σ _).KeepsStack v :=
  preserves_refreshCatalog (fun _ _ => ⟨rfl, rfl⟩) signal

end

/-! ## Settling savepoints -/

section
variable [Engine σ] {v : EngineView σ δ}

/-- An operation that settles a savepoint: the ledger forgets it with all inside it, and the engine does so with
the one that it finds. A savepoint that the ledger does not know is not looked for. -/
structure SettlesOne (v : EngineView σ δ) (settle : String → Op σ Unit) : Prop where
  found {s : Session σ} {name : String} {outer inner : List String} {kept : List (String × δ)} {found : String × δ} :
    s.ledger.active = outer ++ name :: inner → name ∉ outer → v.Finds s.engine name kept found →
    (settle name).Ends s (fun _ t => t.ledger.active = outer ∧ v.saved t.engine = kept) fun _ _ => False
  missing {s : Session σ} {name : String} :
    name ∉ s.ledger.active → (settle name).Ends s (fun _ _ => False) fun _ t => t = s

theorem settlesOne_release (laws : SavepointStack v) : SettlesOne v (releaseSavepoint : String → Op σ Unit) where
  found {s name outer inner kept found} hactive hnot hfound := by
    obtain ⟨n, u, hu, hsaved⟩ := laws.release hfound
    refine ends_bind (ends_of_ok (position_eq hactive hnot) (ends_bind (ends_execute_ok hu ⟨?_, hsaved⟩)))
    show s.ledger.active.take outer.length = outer
    rw [hactive, List.take_left]
  missing h := ends_bind (ends_of_error (position_missing h) rfl)

theorem settlesOne_revert (laws : SavepointStack v) : SettlesOne v (revertSavepoint : String → Op σ Unit) where
  found {s name outer inner kept found} hactive hnot hfound := by
    obtain ⟨n, u, hu, hsaved⟩ := laws.rollback hfound
    -- the savepoint that is reverted stays open, so it is the one that is released
    have hagain : v.Finds u name kept found := ⟨⟨[], hsaved, by simp⟩, hfound.named⟩
    obtain ⟨m, w, hw, hsaved'⟩ := laws.release hagain
    refine ends_bind (ends_of_ok (position_eq hactive hnot) (ends_bind (ends_execute_ok hu (ends_bind (ends_execute_ok hw ?_)))))
    refine ⟨?_, hsaved'⟩
    show s.ledger.active.take outer.length = outer
    rw [hactive, List.take_left]
  missing h := ends_bind (ends_of_error (position_missing h) rfl)

end

namespace SettlesOne

variable {v : EngineView σ δ} {settle : String → Op σ Unit}

theorem mirrors (hsettle : SettlesOne v settle) {s : Session σ} {name : String} {outer inner : List String}
    (hs : s.Mirrors v (outer ++ name :: inner)) (hnot : name ∉ outer) (hinner : ∀ n ∈ inner, sameName n name = false) :
    (settle name).Ends s (fun _ t => t.Mirrors v outer) fun _ _ => False := by
  obtain ⟨kept, found, hfound, rfl⟩ := EngineView.finds_of_names hs.savepoints hinner
  refine (hsettle.found hs.active hnot hfound).mono (fun _ t ht => ⟨ht.1, ?_⟩) fun _ _ => id
  rw [EngineView.savepoints, ht.2]

/-- The engine keeps savepoints that the ledger forgets. -/
theorem not_agrees (hsettle : SettlesOne v settle) {s : Session σ} {name : String} {outer inner : List String}
    (hs : s.Mirrors v (outer ++ name :: inner)) (hnot : name ∉ outer) (hinner : ∃ n ∈ inner, sameName n name = true) :
    (settle name).Ends s (fun _ t => ¬t.Agrees v) fun _ _ => False := by
  obtain ⟨kept, found, hfound, hlength⟩ := EngineView.finds_inside hs.savepoints hinner
  refine (hsettle.found hs.active hnot hfound).mono (fun _ t ht hagrees => ?_) fun _ _ => id
  have hsame : outer = kept.map Prod.fst := by rw [← ht.1, ← ht.2]; exact hagrees
  have hsameLength := congrArg List.length hsame
  rw [List.length_map] at hsameLength
  omega

/-- All are settled from the inside out, so each is the innermost when its turn comes. -/
theorem all [Settles settle] (hsettle : SettlesOne v settle) {names : List String} (hnames : names.Nodup) {s : Session σ}
    (hs : s.Mirrors v names) : (settleAll settle).Ends s (fun _ t => t.Mirrors v []) fun _ _ => False := by
  refine (ends_settleAll (I := fun names t => names.Nodup ∧ t.Mirrors v names) (fun _ _ h => h.2.active)
    (fun outer name t ht => ?_) ⟨hnames, hs⟩).mono (fun _ _ h => h.2) fun _ _ => id
  obtain ⟨hnodup, ht⟩ := ht
  obtain ⟨houter, -, hdisjoint⟩ := List.nodup_append.mp hnodup
  have hnot : name ∉ outer := fun h => hdisjoint name h name (by simp) rfl
  exact (hsettle.mirrors ht hnot (by simp)).mono (fun _ _ hu => ⟨houter, hu⟩) fun _ _ => id

end SettlesOne

end Op

/-! ## One call -/

theorem takeWhile_append_dropWhile_tail {names : List String} {name : String} (h : name ∈ names) :
    names = names.takeWhile (· ≠ name) ++ name :: (names.dropWhile (· ≠ name)).tail := by
  induction names with
  | nil => simp at h
  | cons n names ih =>
    by_cases hn : n = name
    · simp [hn]
    · have hname : name ∈ names := by simpa [Ne.symm hn] using h
      simpa [hn] using ih hname

theorem not_mem_takeWhile_ne (names : List String) (name : String) : name ∉ names.takeWhile (· ≠ name) := by
  intro h
  simpa using List.mem_takeWhile_imp h

theorem takeWhile_ne_of_not_mem {names : List String} {name : String} (h : name ∉ names) :
    names.takeWhile (· ≠ name) = names := by
  rw [List.takeWhile_eq_self_iff]
  intro n hn
  have hne : n ≠ name := fun hne => h (hne ▸ hn)
  simpa using hne

theorem dropWhile_ne_of_not_mem {names : List String} {name : String} (h : name ∉ names) :
    names.dropWhile (· ≠ name) = [] := by
  rw [List.dropWhile_eq_nil_iff]
  intro n hn
  have hne : n ≠ name := fun hne => h (hne ▸ hn)
  simpa using hne

namespace Op

variable {v : EngineView σ δ} {settle : String → Op σ Unit}

/-- The savepoints by name after one of them is settled. -/
theorem SettlesOne.after_mirrors (hsettle : SettlesOne v settle) {rest : Op σ Unit} (hrest : rest.KeepsStack v)
    {names : List String} {s : Session σ} (hs : s.Mirrors v names) {name : String}
    (hinner : ∀ n ∈ (names.dropWhile (· ≠ name)).tail, sameName n name = false) :
    ((settle name >>= fun _ => rest).after s).Mirrors v (names.takeWhile (· ≠ name)) := by
  refine Ends.after ?_
  by_cases hmem : name ∈ names
  · have hnames := takeWhile_append_dropWhile_tail hmem
    have hone := hsettle.mirrors (hnames ▸ hs) (not_mem_takeWhile_ne names name) hinner
    refine ends_bind (hone.mono (fun _ t ht => ?_) fun _ _ => False.elim)
    exact (hrest t).mono (fun _ u hu => hu.mirrors ht) fun _ u hu => hu.mirrors ht
  · rw [takeWhile_ne_of_not_mem hmem]
    refine ends_bind ((hsettle.missing (by rwa [hs.active])).mono (fun _ _ => False.elim) fun _ t ht => ?_)
    rw [ht]
    exact hs

theorem SettlesOne.after_not_agrees (hsettle : SettlesOne v settle) {rest : Op σ Unit} (hrest : rest.KeepsStack v)
    {names : List String} {s : Session σ} (hs : s.Mirrors v names) {name : String}
    (hinner : ∃ n ∈ (names.dropWhile (· ≠ name)).tail, sameName n name = true) :
    ¬((settle name >>= fun _ => rest).after s).Agrees v := by
  have hmem : name ∈ names := by
    by_contra hmem
    rw [dropWhile_ne_of_not_mem hmem] at hinner
    simp at hinner
  have hnames := takeWhile_append_dropWhile_tail hmem
  have hone := hsettle.not_agrees (hnames ▸ hs) (not_mem_takeWhile_ne names name) hinner
  refine Ends.after (P := fun t => ¬t.Agrees v) (ends_bind (hone.mono (fun _ t ht => ?_) fun _ _ => False.elim))
  exact (hrest t).mono (fun _ u hu => mt hu.agrees ht) fun _ u hu => mt hu.agrees ht

theorem SettlesOne.after_all [Settles settle] (hsettle : SettlesOne v settle) {rest : Op σ Unit} (hrest : rest.KeepsStack v)
    {names : List String} (hnames : names.Nodup) {s : Session σ} (hs : s.Mirrors v names) :
    ((settleAll settle >>= fun _ => rest).after s).Mirrors v [] := by
  refine Ends.after (ends_bind ((hsettle.all hnames hs).mono (fun _ t ht => ?_) fun _ _ => False.elim))
  exact (hrest t).mono (fun _ u hu => hu.mirrors ht) fun _ u hu => hu.mirrors ht

variable [Engine σ]

theorem after_openSavepoint (laws : SavepointStack v) {names : List String} {s : Session σ} (hs : s.Mirrors v names)
    (name : String) : ((openSavepoint name).after s).Mirrors v (if name ∈ names then names else names ++ [name]) := by
  have hactive : s.ledger.isActive name = decide (name ∈ names) := by rw [Ledger.isActive, hs.active, List.contains_eq_mem]
  refine Ends.after (ends_ledger ?_)
  by_cases hmem : name ∈ names
  · rw [hactive, decide_eq_true hmem, if_pos hmem]
    exact hs
  · obtain ⟨n, u, hu, hsaved⟩ := laws.savepoint name s.engine
    rw [hactive, decide_eq_false hmem, if_neg hmem]
    refine ends_bind (ends_execute_ok hu ⟨?_, ?_⟩)
    · show s.ledger.active ++ [name] = _
      rw [hs.active]
    · show (v.saved u).map Prod.fst = _
      rw [hsaved, List.map_append]
      exact congrArg (· ++ [name]) hs.savepoints

end Op

namespace SavepointCall

theorem nodup_settled {names : List String} (h : names.Nodup) (c : SavepointCall) : (c.settled names).Nodup := by
  cases c with
  | begin name =>
    show (if name ∈ names then names else names ++ [name]).Nodup
    by_cases hmem : name ∈ names
    · rwa [if_pos hmem]
    · rw [if_neg hmem, List.nodup_append]
      refine ⟨h, by simp, fun a ha b hb hab => hmem ?_⟩
      rwa [← List.mem_singleton.mp hb, ← hab]
  | commit name => exact h.sublist (List.takeWhile_sublist _)
  | rollback name => exact h.sublist (List.takeWhile_sublist _)
  | commitAll => exact List.nodup_nil
  | rollbackAll => exact List.nodup_nil

variable [Engine σ] {v : EngineView σ δ}

open Op

theorem keepsStack_afterRollback (laws : SavepointStack v) :
    (do resumeForeignKeys; let _ ← refreshCatalog : Op σ Unit).KeepsStack v :=
  Preserves.bind (keepsStack_resumeForeignKeys laws) fun _ => Preserves.bind (keepsStack_refreshCatalog _) fun _ => preserves_pure ()

/-- A call that is not shadowed does the same to the ledger and to the engine. -/
theorem mirrors (laws : SavepointStack v) {names : List String} (hnames : names.Nodup) {s : Session σ} (hs : s.Mirrors v names)
    {c : SavepointCall} (hc : ¬c.Shadowed names) : (c.run.after s).Mirrors v (c.settled names) := by
  have hinner {name : String} (h : ¬∃ n ∈ (names.dropWhile (· ≠ name)).tail, sameName n name = true) :
      ∀ n ∈ (names.dropWhile (· ≠ name)).tail, sameName n name = false :=
    fun n hn => by simpa using fun hsame => h ⟨n, hn, hsame⟩
  cases c with
  | begin name => exact after_openSavepoint laws hs name
  | commit name => exact (settlesOne_release laws).after_mirrors (keepsStack_resumeForeignKeys laws) hs (hinner hc)
  | rollback name => exact (settlesOne_revert laws).after_mirrors (keepsStack_afterRollback laws) hs (hinner hc)
  | commitAll =>
    refine (settlesOne_release laws).after_all ?_ hnames hs
    exact Preserves.bind (keepsStack_resumeForeignKeys laws) fun _ => preserves_note _
  | rollbackAll =>
    refine (settlesOne_revert laws).after_all ?_ hnames hs
    exact Preserves.bind (keepsStack_resumeForeignKeys laws) fun _ => Preserves.bind (keepsStack_refreshCatalog _) fun _ => preserves_note _

theorem not_agrees (laws : SavepointStack v) {names : List String} {s : Session σ} (hs : s.Mirrors v names) {c : SavepointCall}
    (hc : c.Shadowed names) : ¬(c.run.after s).Agrees v := by
  cases c with
  | commit name => exact (settlesOne_release laws).after_not_agrees (keepsStack_resumeForeignKeys laws) hs hc
  | rollback name => exact (settlesOne_revert laws).after_not_agrees (keepsStack_afterRollback laws) hs hc
  | begin name => exact hc.elim
  | commitAll => exact hc.elim
  | rollbackAll => exact hc.elim

end SavepointCall

/-! ## Sequences of calls -/

namespace Session

variable [Engine σ] {v : EngineView σ δ}

/-- After every call the lists are the same exactly if no call is shadowed. -/
theorem agrees_iff_unshadowed (laws : SavepointStack v) {names : List String} (hnames : names.Nodup) {s : Session σ}
    (hs : s.Mirrors v names) (calls : List SavepointCall) :
    (∀ k, (s.after (calls.take k)).Agrees v) ↔ Unshadowed names calls := by
  induction calls generalizing names s with
  | nil => exact iff_of_true (fun k => by rw [List.take_nil]; exact hs.agrees) trivial
  | cons c calls ih =>
    have hcons (k : Nat) : s.after ((c :: calls).take (k + 1)) = (c.run.after s).after (calls.take k) := rfl
    -- A shadowed call shows at once: ledger and engine differ right behind it.
    by_cases hc : c.Shadowed names
    · refine iff_of_false (fun h => SavepointCall.not_agrees laws hs hc ?_) fun h => h.1 hc
      have hfirst := h 1
      rwa [hcons, List.take_zero] at hfirst
    · have hrest := ih (c.nodup_settled hnames) (SavepointCall.mirrors laws hnames hs hc)
      refine ⟨fun h => ⟨hc, hrest.mp fun k => hcons k ▸ h (k + 1)⟩, fun h k => ?_⟩
      cases k with
      | zero => exact hs.agrees
      | succ k =>
        rw [hcons]
        exact hrest.mpr h.2 k

omit [Engine σ] in
theorem Agrees.isDirty_eq_false_iff {s : Session σ} (h : s.Agrees v) : s.isDirty = false ↔ v.saved s.engine = [] := by
  rw [isDirty, Ledger.isDirty, h, Bool.not_eq_false', List.isEmpty_iff, EngineView.savepoints, List.map_eq_nil_iff]

/-- From a clean connection on, the ledger lists the engine's savepoints after every call exactly if no call is
shadowed; and then a session is clean exactly when no savepoint is open. -/
theorem mirrors_iff_unshadowed (laws : SavepointStack v) {s : Session σ} (hledger : s.ledger.active = [])
    (hsaved : v.saved s.engine = []) (calls : List SavepointCall) :
    ((∀ k, (s.after (calls.take k)).Agrees v) ↔ Unshadowed [] calls) ∧
      (Unshadowed [] calls → ∀ k, (s.after (calls.take k)).isDirty = false ↔ v.saved (s.after (calls.take k)).engine = []) := by
  have hs : s.Mirrors v [] := ⟨hledger, by rw [EngineView.savepoints, hsaved]; rfl⟩
  have hiff := agrees_iff_unshadowed laws List.nodup_nil hs calls
  exact ⟨hiff, fun h k => (hiff.mpr h k).isDirty_eq_false_iff⟩

/-- Releasing `A` around `a` is a shadowed call: the session is clean, and `A` is open. Around `b` all is well. -/
theorem mirrors_iff_unshadowed_letterCase :
    let s : Session Journal := { engine := {} }
    (¬∀ k, (s.after ([.begin "A", .begin "a", .commit "A"].take k)).Agrees Journal.view) ∧
      ((s.after [.begin "A", .begin "a", .commit "A"]).isDirty = false ∧
        Journal.view.savepoints (s.after [.begin "A", .begin "a", .commit "A"]).engine = ["A"]) ∧
      ∀ k, (s.after ([.begin "A", .begin "b", .rollback "a", .commit "A", .rollbackAll].take k)).Agrees Journal.view := by
  have hmirrors := mirrors_iff_unshadowed Journal.savepointStack (s := { engine := {} }) rfl rfl
  refine ⟨fun h => ?_, ⟨by decide, by decide⟩, (hmirrors _).1.mpr (by decide)⟩
  exact absurd ((hmirrors _).1.mp h) (by decide)

end Session

end SchemaEditor
