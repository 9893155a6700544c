import SchemaEditor.Proofs.Database.Calls

/-!
# What can be reverted

A savepoint holds the data of the moment at which it was opened, and it has been open ever since. So at every moment of a
run, to revert a savepoint is to go back to the last moment without it, and to revert all is to go back to the last
moment at which nothing was pending.
-/

namespace SchemaEditor

variable {σ δ : Type}

/-- The last of the moments up to `n` at which `p` holds. -/
structure LastMoment (p : Nat → Prop) (n k : Nat) : Prop where
  le : k ≤ n
  holds : p k
  after : ∀ m, k < m → m ≤ n → ¬p m

/-- An earlier moment at which `p` holds is no later. -/
theorem LastMoment.le_of_holds {p : Nat → Prop} {n k m : Nat} (h : LastMoment p n k) (hm : m ≤ n) (hp : p m) : m ≤ k := by
  by_contra hlt
  exact h.after m (by omega) hm hp

/-! ## The history of a stack -/

/-- From each moment to the next, some of the innermost savepoints are closed, or one is opened with the data of the
moment. -/
def Shifting (saved : Nat → List (String × δ)) (data : Nat → δ) : Prop :=
  ∀ k, saved (k + 1) <+: saved k ∨ ∃ name, saved (k + 1) = saved k ++ [(name, data k)]

/-- An open savepoint holds the data of some moment, at which those outside it were open. Since then it has been open. -/
theorem Shifting.opened {saved : Nat → List (String × δ)} {data : Nat → δ} (h : Shifting saved data) (hstart : saved 0 = [])
    {n : Nat} {outer inner : List (String × δ)} {p : String × δ} (hn : saved n = outer ++ p :: inner) :
    ∃ k < n, saved k = outer ∧ p.2 = data k ∧ ∀ m, k < m → m ≤ n → ∃ rest, saved m = outer ++ p :: rest := by
  induction n generalizing inner with
  | zero => simp [hstart] at hn
  | succ n ih =>
    have hlater {inner' : List (String × δ)} (hn' : saved n = outer ++ p :: inner') :
        ∃ k < n + 1, saved k = outer ∧ p.2 = data k ∧ ∀ m, k < m → m ≤ n + 1 → ∃ rest, saved m = outer ++ p :: rest := by
      obtain ⟨k, hk, hsaved, hdata, hsince⟩ := ih hn'
      refine ⟨k, by omega, hsaved, hdata, fun m hkm hm => ?_⟩
      by_cases hlast : m = n + 1
      · exact ⟨inner, hlast ▸ hn⟩
      · exact hsince m hkm (by omega)
    rcases h n with ⟨closed, hclosed⟩ | ⟨name, hopened⟩
    · rw [hn, List.append_assoc] at hclosed
      exact hlater hclosed.symm
    · rw [hn] at hopened
      rcases List.eq_nil_or_concat inner with rfl | ⟨inner', last, rfl⟩
      · obtain ⟨rfl, hp⟩ := List.append_inj' hopened rfl
        obtain rfl := (List.cons.inj hp).1
        refine ⟨n, by omega, rfl, rfl, fun m hnm hm => ⟨[], ?_⟩⟩
        rw [show m = n + 1 by omega, hn]
      · rw [List.concat_eq_append, ← List.cons_append, ← List.append_assoc] at hopened
        exact hlater (List.append_inj' hopened rfl).1.symm

/-! ## Runs -/

namespace DatabaseCall

/-- Savepoints of different names differ in more than the case of letters. -/
def DistinctNames (calls : List DatabaseCall) : Prop :=
  ∀ a ∈ calls.flatMap opens, ∀ b ∈ calls.flatMap opens, sameName a b = true → a = b

instance (calls : List DatabaseCall) : Decidable (DistinctNames calls) :=
  inferInstanceAs (Decidable (∀ a ∈ calls.flatMap opens, ∀ b ∈ calls.flatMap opens, sameName a b = true → a = b))

/-- Among names that differ in more than case no call is shadowed. -/
theorem not_shadowed {names : List String} (hnodup : names.Nodup) (h : ∀ a ∈ names, ∀ b ∈ names, sameName a b = true → a = b)
    (call : DatabaseCall) : ¬call.Shadowed names := by
  have hnone (name : String) : ¬∃ inner ∈ (names.dropWhile (· ≠ name)).tail, sameName inner name = true := by
    rintro ⟨inner, hinner, hsame⟩
    have hmem : name ∈ names := by
      by_contra hmem
      rw [dropWhile_ne_of_not_mem hmem] at hinner
      simp at hinner
    have hsplit := takeWhile_append_dropWhile_tail hmem
    have hinnerMem : inner ∈ names :=
      hsplit ▸ List.mem_append_right _ (List.mem_cons_of_mem name hinner)
    obtain rfl := h inner hinnerMem name hmem hsame
    rw [hsplit, List.nodup_append, List.nodup_cons] at hnodup
    exact hnodup.2.1.1 hinner
  cases call with
  | savepoint c =>
    cases c with
    | commit name => exact hnone name
    | rollback name => exact hnone name
    | begin | commitAll | rollbackAll => exact id
  | change | statement | script | setPragma | refresh => exact id

end DatabaseCall

namespace Session

section
variable [Engine σ]

/-- The session after the first `n` calls. -/
def moment (s : Session σ) (calls : List DatabaseCall) (n : Nat) : Session σ := s.afterCalls (calls.take n)

theorem moment_zero (s : Session σ) (calls : List DatabaseCall) : s.moment calls 0 = s := rfl

theorem moment_succ (s : Session σ) {calls : List DatabaseCall} {n : Nat} {call : DatabaseCall} (h : calls[n]? = some call) :
    s.moment calls (n + 1) = call.run.after (s.moment calls n) := by
  obtain ⟨hn, rfl⟩ := List.getElem?_eq_some_iff.mp h
  exact s.afterCalls_take_succ hn

theorem moment_succ_of_none (s : Session σ) {calls : List DatabaseCall} {n : Nat} (h : calls[n]? = none) :
    s.moment calls (n + 1) = s.moment calls n := by
  have hn := List.getElem?_eq_none_iff.mp h
  rw [moment, moment, List.take_of_length_le hn, List.take_of_length_le (by omega)]

/-- The SQL of each call, where it is made, opens and settles no savepoints. -/
def QuietCalls (v : EngineView σ δ) (s : Session σ) (calls : List DatabaseCall) : Prop :=
  ∀ (k : Nat) (call : DatabaseCall), calls[k]? = some call → call.IsQuiet v (s.moment calls k).catalog

end

variable [Engine σ] {v : EngineView σ δ} {s : Session σ} {calls : List DatabaseCall}

/-- One step of a run. -/
theorem shifts_moment (laws : Transactional v) (hquiet : s.QuietCalls v calls) {k : Nat} (hs : (s.moment calls k).Agrees v)
    (hnodup : (s.moment calls k).ledger.active.Nodup)
    (hc : ∀ call, calls[k]? = some call → ¬call.Shadowed (s.moment calls k).ledger.active) :
    (s.moment calls k).Shifts v (calls[k]?.elim [] DatabaseCall.opens) (s.moment calls (k + 1)) := by
  cases hcall : calls[k]? with
  | none =>
    rw [moment_succ_of_none s hcall]
    exact (SameStack.grows hs (IsFrame.refl _)).shifts
  | some call =>
    rw [moment_succ s hcall]
    exact (call.ends_run_shifts laws hs hnodup (hc call hcall) (hquiet k call hcall)).after

/-- The ledger lists the engine's savepoints, each once, and all were opened under these names. -/
structure Tracks (v : EngineView σ δ) (names : List String) (s : Session σ) : Prop where
  agrees : s.Agrees v
  nodup : s.ledger.active.Nodup
  subset : s.ledger.active ⊆ names

theorem tracks_moment (laws : Transactional v) (hledger : s.ledger.active = []) (hsaved : v.saved s.engine = [])
    (hnames : DatabaseCall.DistinctNames calls) (hquiet : s.QuietCalls v calls) (n : Nat) :
    (s.moment calls n).Tracks v (calls.flatMap DatabaseCall.opens) := by
  induction n with
  | zero =>
    have hagrees : s.Agrees v := by simp [Agrees, hledger, EngineView.savepoints, hsaved]
    exact ⟨hagrees, by simp [moment_zero, hledger], by simp [moment_zero, hledger]⟩
  | succ n ih =>
    have hshift := shifts_moment laws hquiet ih.agrees ih.nodup fun call _ => call.not_shadowed ih.nodup fun a ha b hb =>
      hnames a (ih.subset ha) b (ih.subset hb)
    refine ⟨hshift.agrees, hshift.nodup ih.nodup, ?_⟩
    have hbefore : (v.saved (s.moment calls n).engine).map Prod.fst ⊆ calls.flatMap DatabaseCall.opens :=
      ih.agrees.open.active ▸ ih.subset
    rw [hshift.agrees.open.active]
    rcases hshift.saved with hclosed | ⟨name, hname, hopened⟩
    · exact fun a ha => hbefore ((hclosed.sublist.map Prod.fst).subset ha)
    · rw [hopened, List.map_append]
      refine List.append_subset.mpr ⟨hbefore, ?_⟩
      cases hcall : calls[n]? with
      | none => simp [hcall] at hname
      | some call =>
        rw [hcall] at hname
        simpa using ⟨call, List.mem_of_getElem? hcall, hname⟩

/-- Going back to the moment `k` undoes nothing that was committed as a whole before the moment `n`. -/
def KeepsCommits (calls : List DatabaseCall) (n k : Nat) : Prop := ∀ i < n, calls[i]? = some (.savepoint .commitAll) → i < k

/-- Pending changes can be reverted to where they began, and settling them otherwise changes no data. -/
structure Revertible (v : EngineView σ δ) (s : Session σ) (calls : List DatabaseCall) (n : Nat) : Prop where
  rollbackAll : ∃ t k, Op.rollbackAll (s.moment calls n) = .ok () t ∧ t.ledger.active = [] ∧
    LastMoment (fun m => (s.moment calls m).ledger.active = []) n k ∧ KeepsCommits calls n k ∧
    v.data t.engine = v.data (s.moment calls k).engine
  rollback {outer inner : List String} {name : String} : (s.moment calls n).ledger.active = outer ++ name :: inner →
    ∃ t k, Op.rollback name (s.moment calls n) = .ok () t ∧ t.ledger.active = outer ∧
      LastMoment (fun m => name ∉ (s.moment calls m).ledger.active) n k ∧ KeepsCommits calls n k ∧
      (s.moment calls k).ledger.active = outer ∧ v.data t.engine = v.data (s.moment calls k).engine
  commit {outer inner : List String} {name : String} : (s.moment calls n).ledger.active = outer ++ name :: inner →
    ∃ t, Op.commit name (s.moment calls n) = .ok () t ∧ t.ledger.active = outer ∧
      v.data t.engine = v.data (s.moment calls n).engine
  commitAll : ∃ t, Op.commitAll (s.moment calls n) = .ok () t ∧ t.ledger.active = [] ∧
    v.data t.engine = v.data (s.moment calls n).engine

section
variable (htracks : ∀ m, (s.moment calls m).Tracks v (calls.flatMap DatabaseCall.opens))
include htracks

/-- Right after all is committed no savepoint is open. -/
theorem keepsCommits (laws : Transactional v) {n k : Nat} (hlast : ∀ m ≤ n, (s.moment calls m).ledger.active = [] → m ≤ k) : KeepsCommits calls n k := by
  intro i hi hcall
  refine hlast (i + 1) hi ?_
  rw [moment_succ s hcall]
  have hcommit := Op.ends_commitAll laws (htracks i).agrees (htracks i).nodup (E := fun _ _ => False)
  exact (hcommit.mono (fun _ _ ht => ht.1.active) fun _ _ => False.elim : Op.Ends _ _ (fun _ t => t.ledger.active = []) _).after

/-- The last moment at which no savepoint was open is where all goes back to. -/
theorem exists_base (hshifting : Shifting (fun m => v.saved (s.moment calls m).engine) fun m => v.data (s.moment calls m).engine)
    (hsaved : v.saved s.engine = []) (n : Nat) :
    ∃ k, LastMoment (fun m => (s.moment calls m).ledger.active = []) n k ∧
      v.base (s.moment calls n).engine = v.data (s.moment calls k).engine := by
  have hempty (m : Nat) : (s.moment calls m).ledger.active = [] ↔ v.saved (s.moment calls m).engine = [] := by
    rw [(htracks m).agrees.open.active, List.map_eq_nil_iff]
  cases hn : v.saved (s.moment calls n).engine with
  | nil =>
    refine ⟨n, ⟨Nat.le_refl n, (hempty n).mpr hn, fun m hm hmn => by omega⟩, ?_⟩
    rw [EngineView.base, hn]
    rfl
  | cons p inner =>
    obtain ⟨k, hk, hbefore, hdata, hsince⟩ := hshifting.opened hsaved (show _ = [] ++ p :: inner from hn)
    refine ⟨k, ⟨by omega, (hempty k).mpr hbefore, fun m hkm hm hnone => ?_⟩, ?_⟩
    · obtain ⟨rest, hrest⟩ := hsince m hkm hm
      rw [hempty m, hrest] at hnone
      cases hnone
    · rw [EngineView.base, hn]
      exact hdata

/-- The last moment without a savepoint is where reverting it goes back to. -/
theorem exists_opened (hshifting : Shifting (fun m => v.saved (s.moment calls m).engine) fun m => v.data (s.moment calls m).engine)
    (hsaved : v.saved s.engine = []) {n : Nat} {outer inner : List (String × δ)} {name : String} {d : δ}
    (ho : Session.Open v (outer ++ (name, d) :: inner) (s.moment calls n)) (hnot : name ∉ outer.map Prod.fst) :
    ∃ k, LastMoment (fun m => name ∉ (s.moment calls m).ledger.active) n k ∧
      (s.moment calls k).ledger.active = outer.map Prod.fst ∧ d = v.data (s.moment calls k).engine := by
  obtain ⟨k, hk, hbefore, hdata, hsince⟩ := hshifting.opened hsaved ho.saved
  have hactive (m : Nat) : (s.moment calls m).ledger.active = (v.saved (s.moment calls m).engine).map Prod.fst :=
    (htracks m).agrees.open.active
  have houter : (s.moment calls k).ledger.active = outer.map Prod.fst := (hactive k).trans (congrArg (List.map Prod.fst) hbefore)
  refine ⟨k, ⟨by omega, houter ▸ hnot, fun m hkm hm hnone => hnone ?_⟩, houter, hdata⟩
  obtain ⟨rest, hrest⟩ := hsince m hkm hm
  rw [hactive m, hrest]
  simp

end

/-- From a clean connection on, whatever the calls and whatever becomes of them: reverting all goes back to the last moment at
which nothing was pending, reverting a savepoint to the last moment without it, and committing changes no data. This rests
on names that differ in more than case, and on SQL that brings no statements for savepoints or settings along. -/
theorem revertible (laws : Transactional v) (hledger : s.ledger.active = []) (hsaved : v.saved s.engine = [])
    (hnames : DatabaseCall.DistinctNames calls) (hquiet : s.QuietCalls v calls) (n : Nat) : s.Revertible v calls n := by
  have htracks := tracks_moment laws hledger hsaved hnames hquiet
  have hunshadowed (m : Nat) (call : DatabaseCall) : ¬call.Shadowed (s.moment calls m).ledger.active :=
    call.not_shadowed (htracks m).nodup fun a ha b hb => hnames a ((htracks m).subset ha) b ((htracks m).subset hb)
  have hshifting : Shifting (fun m => v.saved (s.moment calls m).engine) fun m => v.data (s.moment calls m).engine := by
    intro k
    rcases (shifts_moment laws hquiet (htracks k).agrees (htracks k).nodup fun call _ => hunshadowed k call).saved with h | ⟨name, -, h⟩
    · exact .inl h
    · exact .inr ⟨name, h⟩
  have hsplit {outer inner : List String} {name : String} (h : (s.moment calls n).ledger.active = outer ++ name :: inner) :
      ∃ o d i, Session.Open v (o ++ (name, d) :: i) (s.moment calls n) ∧ o.map Prod.fst = outer ∧ name ∉ o.map Prod.fst ∧
        ∀ p ∈ i, sameName p.1 name = false := by
    obtain ⟨o, d, i, ho, rfl, rfl⟩ := (htracks n).agrees.split h
    have hnodup := (htracks n).nodup
    rw [h, List.nodup_append, List.nodup_cons] at hnodup
    refine ⟨o, d, i, ho, rfl, fun hmem => hnodup.2.2 name hmem name (by simp) rfl, fun p hp => ?_⟩
    have hp' : p.1 ∈ i.map Prod.fst := List.mem_map_of_mem hp
    have hne : p.1 ≠ name := fun he => hnodup.2.1.1 (he ▸ hp')
    have hopened {a : String} (ha : a ∈ (s.moment calls n).ledger.active) := (htracks n).subset ha
    by_contra hsame
    exact hne (hnames p.1 (hopened (by simp [h, hp'])) name (hopened (by simp [h])) (by simpa using hsame))
  have hagrees := (htracks n).agrees
  have hnodup := (htracks n).nodup
  refine ⟨?_, fun hactive => ?_, fun hactive => ?_, ?_⟩
  · obtain ⟨_, t, hrun, ht, hbase⟩ := (Op.ends_rollbackAll laws hagrees hnodup).exists_ok
    obtain ⟨k, hk, hdata⟩ := exists_base htracks hshifting hsaved n
    exact ⟨t, k, hrun, ht.active, hk, keepsCommits htracks laws fun m hm hclean => hk.le_of_holds hm hclean, hbase.trans hdata⟩
  · obtain ⟨o, d, i, ho, rfl, hnot, hinner⟩ := hsplit hactive
    obtain ⟨_, t, hrun, ht, hdata⟩ := (Op.ends_rollback laws ho hnot hinner).exists_ok
    obtain ⟨k, hk, houter, hd⟩ := exists_opened htracks hshifting hsaved ho hnot
    refine ⟨t, k, hrun, ht.active, hk, keepsCommits htracks laws fun m hm hclean => ?_, houter, hdata.trans hd⟩
    exact hk.le_of_holds hm (by simp [hclean])
  · obtain ⟨o, d, i, ho, rfl, hnot, hinner⟩ := hsplit hactive
    obtain ⟨_, t, hrun, ht, hdata⟩ := (Op.ends_commit laws ho hnot hinner).exists_ok
    exact ⟨t, hrun, ht.active, hdata⟩
  · obtain ⟨_, t, hrun, ht, hdata⟩ := (Op.ends_commitAll laws hagrees hnodup).exists_ok
    exact ⟨t, hrun, ht.active, hdata⟩

/-! ## Runs that are reverted -/

/-- A run that commits a table, and then makes and fills another one behind a savepoint. -/
def drafting : List DatabaseCall :=
  [.statement "CREATE TABLE villain (id)" true, .savepoint .commitAll, .savepoint (.begin "draft"),
    .change (.createTableFrom { name := "hero", fields := [{ name := "id" }] }),
    .script "INSERT INTO hero VALUES (1); DELETE FROM villain" .never]

/-- A session on a journal that refuses to delete. -/
def unforgetting : Session Journal where
  engine := { refused := ["DELETE FROM villain"] }

theorem quietCalls_drafting : unforgetting.QuietCalls Journal.view drafting := by
  intro k call hcall
  match k with
  | 0 | 1 | 2 | 3 | 4 =>
    cases hcall
    refine fun sql hsql => Journal.quiet_of_startsElsewhere ?_
    revert sql
    decide +kernel
  | k + 5 => cases hcall

/-- After a script that failed in the middle, the draft is reverted and the committed table stays. -/
theorem revertible_draft :
    ∃ t, Op.rollback "draft" (unforgetting.moment drafting 5) = .ok () t ∧ t.ledger.active = [] ∧
      t.engine.applied = ["CREATE TABLE villain (id)"] := by
  have hactive : (unforgetting.moment drafting 2).ledger.active = [] ∧ (unforgetting.moment drafting 3).ledger.active = ["draft"] ∧
      (unforgetting.moment drafting 4).ledger.active = ["draft", "oxide_restore_point"] ∧
      (unforgetting.moment drafting 5).ledger.active = ["draft", "oxide_restore_point"] ∧
      (unforgetting.moment drafting 2).engine.applied = ["CREATE TABLE villain (id)"] := by decide +kernel
  obtain ⟨h₂, h₃, h₄, h₅, happlied⟩ := hactive
  have hrevertible := revertible Journal.transactional rfl rfl (by decide) quietCalls_drafting 5
  obtain ⟨t, k, hrun, ht, hlast, -, -, hdata⟩ := hrevertible.rollback (show _ = [] ++ "draft" :: [restorePoint] from h₅)
  -- the draft was opened after the second moment, and is open at the later ones
  have hle := hlast.le
  have hmoment := hlast.le_of_holds (show 2 ≤ 5 by decide) (by simp [h₂])
  have hopen {m : Nat} (hm : "draft" ∈ (unforgetting.moment drafting m).ledger.active) : k ≠ m := fun hk => hlast.holds (hk ▸ hm)
  have hopen₃ := hopen (h₃ ▸ List.mem_singleton_self _)
  have hopen₄ := hopen (h₄ ▸ List.mem_cons_self)
  have hopen₅ := hopen (h₅ ▸ List.mem_cons_self)
  obtain rfl : k = 2 := by omega
  exact ⟨t, hrun, ht, hdata.trans happlied⟩

/-- A session on a store in memory. -/
def blank : Session Store.State where
  engine := { access := { isFile := false } }

/-- A table with a column whose type commits all that is pending, and opens savepoints of the same names again. -/
def committing : List DatabaseCall :=
  [.change (.createTableFrom { name := "t", fields := [{ name := "a", sqlType :=
    "); COMMIT; SAVEPOINT oxide_restore_point; SAVEPOINT oxide_create_table; DELETE FROM t WHERE (1" }] })]

/-- What was committed by the SQL of a type cannot be reverted any more. -/
theorem not_revertible_committing :
    blank.ledger.active = [] ∧ SchemaChange.storeView.saved blank.engine = [] ∧ DatabaseCall.DistinctNames committing ∧
      ¬blank.Revertible SchemaChange.storeView committing 1 := by
  refine ⟨rfl, rfl, by decide, fun h => ?_⟩
  have hrun : (blank.moment committing 1).ledger.active ≠ [] ∧
      (Op.done? Op.rollbackAll (blank.moment committing 1)).map (·.engine.content.schema.isEmpty) = some false := by decide +kernel
  obtain ⟨hpending, hleft⟩ := hrun
  obtain ⟨t, k, hrollback, -, hlast, -, hdata⟩ := h.rollbackAll
  have hle := hlast.le
  have hne : k ≠ 1 := fun hk => hpending (hk ▸ hlast.holds)
  obtain rfl : k = 0 := by omega
  have hcontent : t.engine.content = blank.engine.content := hdata
  rw [Op.done?, hrollback, Option.map_some, hcontent] at hleft
  exact absurd hleft (by decide)

end Session

end SchemaEditor
