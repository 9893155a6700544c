import SchemaEditor.Proofs.Table.Places

/-!
# The progress of a reading

A reading of a statement never passes the end, wherever it stops and whether it succeeds or not. So it takes each token at
most once. What it counts stays above zero, what it cuts out of the statement is there, and so are the spans of its errors.
-/

namespace SchemaEditor

namespace Reader

variable {α : Type} {s : String} {n : Nat} {c : Cursor} {r : Reader α}

/-! ## Where a reading stops -/

/-- The place where a reading stops, with or without an error. -/
def after (r : Reader α) (c : Cursor) : Cursor :=
  match r c with
  | .ok _ d | .error _ d => d

/-- The tokens that a reader takes, with or without an error. -/
def taken (r : Reader α) (c : Cursor) : List Token :=
  ((after r c).read.take ((after r c).read.length - c.read.length)).reverse

theorem taken_eq {ts rest : List Token} (h : after r c = c.jump ts rest) : taken r c = ts := by
  simp [taken, h, Cursor.jump]

theorem Lands.after (h : Lands s n (r c)) : (after r c).On s := by
  unfold Reader.after
  generalize r c = x at h
  cases h with
  | ok hc => exact hc
  | error hc => exact hc

theorem Lands.within {e : ParseError} (h : Lands s n (.error e c : EStateM.Result ParseError Cursor α)) :
    e.span.Within s.toList := by
  cases h with
  | error _ he => exact he

theorem after_of_ok {a : α} {d : Cursor} (h : r c = .ok a d) : after r c = d := by rw [after, h]

theorem after_of_error {e : ParseError} {d : Cursor} (h : r c = .error e d) : after r c = d := by rw [after, h]

/-- Where a reading stops that may fail at its end only. -/
theorem after_of_ite {p : Prop} [Decidable p] {a : α} {e : ParseError} {d : Cursor}
    (h : r c = if p then .error e d else .ok a d) : after r c = d := by
  split at h
  · exact after_of_error h
  · exact after_of_ok h

/-! ## Counting parentheses -/

/-- How many parentheses are open behind the tokens. -/
def openBehind (depth : Nat) (ts : List Token) : Nat := ts.foldl (fun d t => depthAfter d t.kind) depth

/-- In front of each closing parenthesis the count is not zero. -/
def CountsDown (depth : Nat) (ts : List Token) : Prop :=
  ∀ us t, us ++ [t] <+: ts → t.kind = .rightParen → 0 < openBehind depth us

section
variable {depth : Nat} {t : Token} {ts : List Token}

theorem countsDown_nil (depth : Nat) : CountsDown depth [] := by
  intro us t h
  simp at h

theorem countsDown_cons : CountsDown depth (t :: ts) ↔
    (t.kind = .rightParen → 0 < depth) ∧ CountsDown (depthAfter depth t.kind) ts := by
  constructor
  · intro h
    refine ⟨fun hk => h [] t (by simp) hk, fun us u hus hk => h (t :: us) u ?_ hk⟩
    rwa [List.cons_append, List.prefix_cons_inj]
  · rintro ⟨hfirst, hrest⟩ us u hus hk
    cases us with
    | nil =>
      obtain rfl : u = t := by simpa using hus
      exact hfirst hk
    | cons v us =>
      rw [List.cons_append, List.cons_prefix_cons] at hus
      obtain ⟨rfl, hus⟩ := hus
      exact hrest us u hus hk

theorem CountsDown.mono {us : List Token} (h : CountsDown depth ts) (hus : us <+: ts) : CountsDown depth us :=
  fun vs u hvs => h vs u (hvs.trans hus)

/-- One more parenthesis that is open stays open. -/
theorem CountsDown.openBehind_succ (h : CountsDown depth ts) : openBehind (depth + 1) ts = openBehind depth ts + 1 := by
  induction ts generalizing depth with
  | nil => rfl
  | cons t ts ih =>
    obtain ⟨hfirst, hrest⟩ := countsDown_cons.mp h
    have hdepth : depthAfter (depth + 1) t.kind = depthAfter depth t.kind + 1 := by
      unfold depthAfter
      split
      · rfl
      · next hk =>
        have hpos := hfirst hk
        omega
      · rfl
    rw [openBehind, List.foldl_cons, hdepth]
    exact ih hrest

/-- The count inside a group in parentheses goes for the group, with or without its last parenthesis. -/
theorem CountsDown.group {l : Token} (hl : l.kind = .leftParen) (h : CountsDown 0 ts) (r : Token) :
    CountsDown 0 (l :: (ts ++ [r])) := by
  refine countsDown_cons.mpr ⟨fun hk => (by rw [hl] at hk; cases hk), fun us u hus _ => ?_⟩
  have hfront : us <+: ts := by
    rcases List.prefix_concat_iff.mp hus with heq | hus
    · obtain ⟨rfl, -⟩ := List.append_inj' heq rfl
      exact List.prefix_rfl
    · exact (List.prefix_append us [u]).trans hus
  rw [hl, depthAfter, (h.mono hfront).openBehind_succ]
  exact Nat.succ_pos _

end

theorem countsDown_takeBalanced {stop : TokenKind → Bool} (hstop : stop .rightParen = true) (depth : Nat) (ts : List Token) :
    CountsDown depth (takeBalanced stop depth ts).1 := by
  induction ts generalizing depth with
  | nil => exact countsDown_nil depth
  | cons t ts ih =>
    rw [takeBalanced]
    split
    · exact countsDown_nil depth
    · next hgoes =>
      refine countsDown_cons.mpr ⟨fun hk => Nat.pos_of_ne_zero fun hzero => ?_, ih _⟩
      rw [hk, hzero, hstop] at hgoes
      exact hgoes rfl

theorem countsDown_takeForeignKey (previous : TokenKind) (depth : Nat) (ts : List Token) :
    CountsDown depth (takeForeignKey previous depth ts).taken := by
  induction ts generalizing previous depth with
  | nil => exact countsDown_nil depth
  | cons t ts ih =>
    cases depth with
    | zero =>
      rw [takeForeignKey]
      split
      · exact countsDown_nil 0
      · next hend =>
        refine countsDown_cons.mpr ⟨fun hk => ?_, ih _ _⟩
        rw [hk] at hend
        exact absurd rfl hend
    | succ k =>
      rw [takeForeignKey]
      split
      · exact countsDown_nil (k + 1)
      · exact countsDown_cons.mpr ⟨fun _ => Nat.succ_pos k, ih _ _⟩

theorem after_inside (c : Cursor) : after inside c =
    c.jump (takeBalanced (· == .rightParen) 0 c.rest).1 (takeBalanced (· == .rightParen) 0 c.rest).2 := after_of_ite rfl

theorem countsDown_inside (c : Cursor) : CountsDown 0 (taken inside c) := by
  rw [taken_eq (after_inside c)]
  exact countsDown_takeBalanced rfl 0 c.rest

theorem countsDown_toNextDefinition (c : Cursor) : CountsDown 0 (taken toNextDefinition c) := by
  rw [taken_eq (after_of_ite rfl)]
  exact countsDown_takeBalanced rfl 0 c.rest

theorem after_foreignKeyTail (c : Cursor) : after foreignKeyTail c =
    let tail := takeForeignKey ((c.read.head?.map Token.kind).getD .eof) 0 c.rest
    c.jump tail.taken tail.rest := by
  unfold after foreignKeyTail
  simp only
  by_cases hdepth : ((takeForeignKey ((c.read.head?.map Token.kind).getD .eof) 0 c.rest).depth == 0) = true
  · rw [if_pos hdepth]
  · rw [if_neg hdepth]

theorem countsDown_foreignKeyTail (c : Cursor) : CountsDown 0 (taken foreignKeyTail c) := by
  rw [taken_eq (after_foreignKeyTail c)]
  exact countsDown_takeForeignKey _ 0 c.rest

theorem expectKind_of_ne {k : TokenKind} (h : c.current.kind ≠ k) : expectKind k c = unexpected (.kind k) c := by
  change (if (c.current.kind == k) = true then skip else unexpected (.kind k)) c = _
  rw [if_neg (by simpa using h)]

theorem countsDown_parenthesized (c : Cursor) : CountsDown 0 (taken parenthesized c) := by
  by_cases hl : c.current.kind = .leftParen
  case neg =>
    have hstop : after parenthesized c = c.jump [] c.rest := after_of_error (bind_eq_of_error (expectKind_of_ne hl))
    rw [taken_eq hstop]
    exact countsDown_nil 0
  case pos =>
    obtain ⟨rest, hrest⟩ := Cursor.rest_of_current (c := c) (by rw [hl]; decide)
    have hopen : expectKind .leftParen c = .ok () (c.jump [c.current] rest) :=
      expectKind_eq_ok.mpr ⟨hl, (Cursor.advance_eq_jump hrest).symm⟩
    have hgroup : parenthesized c = (inside >>= fun _ => skip) (c.jump [c.current] rest) := bind_eq_of_ok hopen
    have hinside := after_inside (c.jump [c.current] rest)
    have hcounts : CountsDown 0 (takeBalanced (· == .rightParen) 0 rest).1 := countsDown_takeBalanced rfl 0 rest
    rw [Cursor.jump_jump] at hinside
    cases h : inside (c.jump [c.current] rest) with
    | error e d =>
      have hstop : after parenthesized c = d := after_of_error (hgroup.trans (bind_eq_of_error h))
      rw [after_of_error h] at hinside
      rw [taken_eq (hstop.trans hinside)]
      exact (hcounts.group hl c.current).mono (by simp)
    | ok ts d =>
      have hstop : after parenthesized c = d.advance := after_of_ok (hgroup.trans (bind_eq_of_ok h))
      obtain ⟨rest', hrest'⟩ := Cursor.rest_of_current (kind_ne_eof_of_isEnd (current_of_inside h))
      rw [after_of_ok h] at hinside
      rw [Cursor.advance_eq_jump hrest', hinside, Cursor.jump_jump] at hstop
      rw [taken_eq hstop]
      exact hcounts.group hl _

/-! ## Texts that are cut out -/

theorem excerpt_typeName (hc : c.Along s) {text : String} {d : Cursor} (h : typeName c = .ok text d) :
    text = "" ∧ d = c ∨ ∃ last, d.read.head? = some last ∧ Excerpt s c.current last text := by
  obtain ⟨ts, rest, hrest, htype, rfl⟩ := (takes_typeName c text d).mp h
  cases htype with
  | none => exact .inl ⟨rfl, by rw [show rest = c.rest from hrest.symm]; rfl⟩
  | given hts =>
    obtain ⟨t, us, rfl⟩ : ∃ t us, ts = t :: us := by
      obtain ⟨words, g, rfl, hne, -⟩ := isType_iff.mp hts
      obtain ⟨t, us, rfl⟩ := List.exists_cons_of_ne_nil hne
      exact ⟨t, us ++ g, rfl⟩
    have hproper : ∀ u ∈ t :: us, u.kind ≠ .eof := fun u hu => kind_ne_eof_of_isEnd (hts.proper u hu)
    rw [Cursor.Along, hrest, ← List.append_assoc] at hc
    have hlast := List.getLast?_eq_some_getLast (List.cons_ne_nil t us)
    have hread : (c.jump (t :: us) rest).read.head? = some ((t :: us).getLast (List.cons_ne_nil t us)) := by
      rw [Cursor.jump, List.head?_append, List.head?_reverse, hlast]
      rfl
    rw [(Cursor.advance_of_rest hrest).1]
    exact .inr ⟨_, hread, excerpt_of_split hc.symm hproper rfl hlast⟩

/-- A number with a sign is two excerpts, and any other default value of one token is an excerpt. -/
theorem excerpt_defaultValue (hc : c.Along s) {text : String} {d : Cursor} (h : defaultValue c = .ok text d) :
    (defaultStart c.current.kind = .sign → ∃ sign number, Excerpt s c.current c.current sign ∧
      Excerpt s c.following c.following number ∧ text = sign ++ number) ∧
    (defaultStart c.current.kind = .single → Excerpt s c.current c.current text) := by
  obtain ⟨ts, rest, hrest, hdefault, rfl⟩ := (takes_defaultValue c text d).mp h
  have hmem : ∀ t ∈ ts, t ∈ tokenize s := by
    intro t ht
    rw [← hc, hrest]
    simp [ht]
  cases hdefault with
  | group hl => rw [(Cursor.advance_of_rest hrest).1, hl]; simp
  | @sign a n ha hn =>
    obtain ⟨hcurrent, hadvance⟩ := Cursor.advance_of_rest hrest
    have hfollowing : c.following = n := by
      rw [Cursor.following_eq, hadvance]
      exact (Cursor.advance_of_rest rfl).1
    have hak : a.kind ≠ .eof := fun hk => by rw [hk] at ha; cases ha
    have hnk : n.kind ≠ .eof := by rw [hn]; decide
    rw [hcurrent, hfollowing, ha]
    refine ⟨fun _ => ⟨_, _, excerpt_of_mem (hmem a (by simp)) hak, excerpt_of_mem (hmem n (by simp)) hnk, ?_⟩, by simp⟩
    simp
  | @single a ha =>
    have hak : a.kind ≠ .eof := fun hk => by rw [hk] at ha; cases ha
    rw [(Cursor.advance_of_rest hrest).1, ha]
    exact ⟨by simp, fun _ => excerpt_of_mem (hmem a (by simp)) hak⟩

end Reader

namespace Table

open Reader (CountsDown taken inside parenthesized toNextDefinition foreignKeyTail typeName defaultValue defaultStart)

/-- The place where the reading of a statement stops, with or without an error. -/
def lastPlace (s : String) : Cursor := Reader.after Reader.table (Cursor.start s)

theorem discardedClauses_eq_lastPlace (s : String) : discardedClauses s = (lastPlace s).discarded.reverse := by
  unfold discardedClauses readStatement lastPlace Reader.after
  cases Reader.table (Cursor.start s) <;> rfl

/-- Reading the statement goes from token to token and not past the end, and what it cuts out of the statement is there. -/
structure StaysInside (s : String) : Prop where
  /-- Each token is read at most once, in the order of the statement. -/
  along : (lastPlace s).Along s
  /-- No step is taken at the end. -/
  read : ∀ t ∈ (lastPlace s).read, t.kind ≠ .eof
  steps : (lastPlace s).read.length < (tokenize s).length
  /-- Whatever counts parentheses closes none that is not open. -/
  counts : ∀ c, CountsDown 0 (taken inside c) ∧ CountsDown 0 (taken parenthesized c) ∧ CountsDown 0 (taken toNextDefinition c) ∧
    CountsDown 0 (taken foreignKeyTail c)
  tokens : ∀ t ∈ tokenize s, t.kind ≠ .eof → Excerpt s t t (String.ofList t.text)
  /-- A type reaches from its first word to the last token that was read. -/
  types : ∀ c d text, c.Along s → typeName c = .ok text d →
    text = "" ∧ d = c ∨ ∃ last, d.read.head? = some last ∧ Excerpt s c.current last text
  defaults : ∀ c d text, c.Along s → defaultValue c = .ok text d →
    (defaultStart c.current.kind = .sign → ∃ sign number, Excerpt s c.current c.current sign ∧
      Excerpt s c.following c.following number ∧ text = sign ++ number) ∧
    (defaultStart c.current.kind = .single → Excerpt s c.current c.current text)
  clauses : ∀ clause ∈ discardedClauses s, IsClause s clause
  errors : ∀ e, parse s = .error e →
    e.span.start ≤ e.span.stop ∧ e.span.stop ≤ byteLength s.toList ∧ e.span.Within s.toList

/-- Whatever the statement is, reading it stays inside it. -/
theorem staysInside (s : String) : StaysInside s := by
  have hlands : Reader.Lands s 0 (Reader.table (Cursor.start s)) :=
    Reader.Stays.lands (Cursor.start s) (Cursor.on_start s) (Nat.zero_le _)
  have hplace : (lastPlace s).On s := hlands.after
  constructor
  case along => exact hplace.along
  case read => exact hplace.read
  case steps => exact hplace.length_read_lt
  case counts =>
    exact fun c => ⟨Reader.countsDown_inside c, Reader.countsDown_parenthesized c, Reader.countsDown_toNextDefinition c,
      Reader.countsDown_foreignKeyTail c⟩
  case tokens => exact fun t ht hk => excerpt_of_mem ht hk
  case types => exact fun c d text hc h => Reader.excerpt_typeName hc h
  case defaults => exact fun c d text hc h => Reader.excerpt_defaultValue hc h
  case clauses =>
    intro clause hclause
    rw [discardedClauses_eq_lastPlace] at hclause
    exact hplace.discarded clause (List.mem_reverse.mp hclause)
  case errors =>
    intro e he
    have hwithin : e.span.Within s.toList := by
      unfold parse readStatement at he
      split at he
      · cases he
      · next h =>
        cases he
        rw [h] at hlands
        exact hlands.within
    exact ⟨hwithin.start_le, hwithin.stop_le, hwithin⟩

/-- A statement that is cut off is read up to its end. -/
example : (lastPlace "CREATE TABLE t (a CHECK (b REFERENCES c").rest.map Token.kind = [.eof] := by decide +kernel

end Table

end SchemaEditor
