import SchemaEditor.Proofs.Table.Expressions

/-!
# What readers take

`Takes r P` says of a reader all that it does when it succeeds: the values `a` it can give, the tokens it takes for
them and the tokens `rest` it leaves are those with `P a taken rest`. What is left matters where a reader looks
ahead. `Records` says the same of a reader that also discards clauses.
-/

namespace SchemaEditor

/-- The kind of the first token. -/
def kindOf (ts : List Token) : TokenKind := (ts.head?.map Token.kind).getD .eof

@[simp] theorem kindOf_cons (t : Token) (ts : List Token) : kindOf (t :: ts) = t.kind := rfl

@[simp] theorem kindOf_nil : kindOf [] = .eof := rfl

namespace Cursor

theorem kind_current (c : Cursor) : c.current.kind = kindOf c.rest := by
  rw [current, kindOf]
  cases c.rest <;> rfl

theorem jump_nil (c : Cursor) : c.jump [] c.rest = c := rfl

theorem advance_eq_jump {c : Cursor} {t : Token} {rest : List Token} (h : c.rest = t :: rest) : c.advance = c.jump [t] rest :=
  (advance_of_rest h).2

/-- Discards clauses, the first one first. -/
def record (c : Cursor) (entries : List String) : Cursor := { c with discarded := entries.reverse ++ c.discarded }

@[simp] theorem record_nil (c : Cursor) : c.record [] = c := rfl

theorem record_jump (c : Cursor) (entries : List String) (ts rest : List Token) :
    (c.record entries).jump ts rest = (c.jump ts rest).record entries := rfl

theorem record_record (c : Cursor) (entries more : List String) :
    (c.record entries).record more = c.record (entries ++ more) := by
  simp [record]

theorem entries_of_record_eq {c : Cursor} {ts us rest rest' : List Token} {entries more : List String}
    (h : (c.jump ts rest).record entries = (c.jump us rest').record more) : entries = more := by
  have hdiscarded := congrArg Cursor.discarded h
  exact List.reverse_inj.mp (List.append_cancel_right hdiscarded)

@[simp] theorem rest_jump (c : Cursor) (ts rest : List Token) : (c.jump ts rest).rest = rest := rfl

@[simp] theorem rest_record (c : Cursor) (entries : List String) : (c.record entries).rest = c.rest := rfl

end Cursor

namespace Reader

variable {α β : Type}

def Takes (r : Reader α) (P : α → List Token → List Token → Prop) : Prop :=
  ∀ c a c', r c = .ok a c' ↔ ∃ ts rest, c.rest = ts ++ rest ∧ P a ts rest ∧ c' = c.jump ts rest

theorem Takes.congr {r : Reader α} {P Q : α → List Token → List Token → Prop} (h : Takes r P)
    (hPQ : ∀ a ts rest, P a ts rest ↔ Q a ts rest) : Takes r Q := by
  intro c a c'
  simp only [h c a c', hPQ]

theorem takes_pure (b : α) : Takes (pure b) fun a ts _ => a = b ∧ ts = [] := by
  intro c a c'
  rw [pure_eq_ok]
  constructor
  · rintro ⟨rfl, rfl⟩
    exact ⟨[], c.rest, rfl, ⟨rfl, rfl⟩, rfl⟩
  · rintro ⟨ts, rest, hc, ⟨rfl, rfl⟩, rfl⟩
    exact ⟨rfl, by rw [show rest = c.rest from hc.symm]; rfl⟩

theorem Takes.bind {r : Reader α} {f : α → Reader β} {P : α → List Token → List Token → Prop}
    {Q : α → β → List Token → List Token → Prop} (hr : Takes r P) (hf : ∀ a, Takes (f a) (Q a)) :
    Takes (r >>= f) fun b ts rest => ∃ a us vs, ts = us ++ vs ∧ P a us (vs ++ rest) ∧ Q a b vs rest := by
  intro c b c'
  rw [bind_eq_ok]
  constructor
  · rintro ⟨a, c₁, h₁, h₂⟩
    obtain ⟨us, rest₁, hc, hP, rfl⟩ := (hr c a c₁).mp h₁
    obtain ⟨vs, rest, hrest, hQ, rfl⟩ := (hf a _ b c').mp h₂
    obtain rfl : rest₁ = vs ++ rest := hrest
    exact ⟨us ++ vs, rest, by rw [hc, List.append_assoc], ⟨a, us, vs, rfl, hP, hQ⟩, Cursor.jump_jump ..⟩
  · rintro ⟨ts, rest, hc, ⟨a, us, vs, rfl, hP, hQ⟩, rfl⟩
    rw [List.append_assoc] at hc
    refine ⟨a, c.jump us (vs ++ rest), (hr ..).mpr ⟨us, _, hc, hP, rfl⟩, (hf ..).mpr ⟨vs, rest, rfl, hQ, ?_⟩⟩
    exact (Cursor.jump_jump ..).symm

/-- What is left to do does not depend on what was read. -/
theorem Takes.andThen {r : Reader α} {s : Reader β} {P : α → List Token → List Token → Prop}
    {Q : β → List Token → List Token → Prop} (hr : Takes r P) (hs : Takes s Q) :
    Takes (r >>= fun _ => s) fun b ts rest => ∃ a us vs, ts = us ++ vs ∧ P a us (vs ++ rest) ∧ Q b vs rest :=
  hr.bind fun _ => hs

theorem takes_never {r : Reader α} (h : ∀ c a c', r c ≠ .ok a c') : Takes r fun _ _ _ => False := by
  intro c a c'
  refine iff_of_false (h c a c') ?_
  rintro ⟨ts, rest, -, hfalse, -⟩
  exact hfalse

theorem takes_unexpected (e : Expected) : Takes (unexpected e : Reader α) fun _ _ _ => False :=
  takes_never fun _ _ _ h => by cases h

/-! ## Looking ahead -/

/-- The reader tests the kind of the first token and takes nothing; the end does not pass. -/
structure Looks (l : Reader Bool) (test : TokenKind → Bool) : Prop where
  look : ∀ c, l c = .ok (test c.current.kind) c
  eof : test .eof = false

theorem looks_atKind {k : TokenKind} (hk : k ≠ .eof) : Looks (atKind k) (· == k) :=
  ⟨fun _ => rfl, by simpa using Ne.symm hk⟩

theorem looks_atKeyword (k : Keyword) : Looks (atKeyword k) (·.keyword? == some k) := ⟨fun _ => rfl, rfl⟩

theorem looks_atWord (w : String) : Looks (atWord w) (·.isWord w) := ⟨fun _ => rfl, rfl⟩

/-- A token that passes is taken, and then `r` reads; before any other token `s` reads. -/
theorem Looks.takes {l : Reader Bool} {test : TokenKind → Bool} (hl : Looks l test) {r s : Reader α}
    {P Q : α → List Token → List Token → Prop} (hr : Takes r P) (hs : Takes s Q) :
    Takes (l >>= fun b => if b = true then skip >>= fun _ => r else s) fun a ts rest =>
      (∃ t us, ts = t :: us ∧ test t.kind = true ∧ P a us rest) ∨ test (kindOf (ts ++ rest)) = false ∧ Q a ts rest := by
  intro c a c'
  rw [bind_eq_of_ok (hl.look c), Cursor.kind_current]
  by_cases htest : test (kindOf c.rest) = true
  · obtain ⟨t, ts, hc⟩ : ∃ t ts, c.rest = t :: ts := by
      cases hc : c.rest with
      | nil => rw [hc, kindOf_nil, hl.eof] at htest; cases htest
      | cons t ts => exact ⟨t, ts, rfl⟩
    have ht : test t.kind = true := by rwa [hc] at htest
    rw [if_pos htest, bind_eq_of_ok (show skip c = .ok () c.advance from rfl), Cursor.advance_eq_jump hc, hr]
    constructor
    · rintro ⟨us, rest, hrest, hP, rfl⟩
      exact ⟨t :: us, rest, hc.trans (congrArg (t :: ·) hrest), .inl ⟨t, us, rfl, ht, hP⟩, Cursor.jump_jump ..⟩
    · rintro ⟨vs, rest, hvs, ⟨t', us, rfl, -, hP⟩ | ⟨hfalse, -⟩, rfl⟩
      · obtain ⟨rfl, hts⟩ := List.cons.inj (hc.symm.trans hvs)
        exact ⟨us, rest, hts, hP, (Cursor.jump_jump c [t] us ts rest).symm⟩
      · rw [← hvs, htest] at hfalse
        cases hfalse
  · rw [if_neg htest, hs]
    constructor
    · rintro ⟨us, rest, hrest, hQ, rfl⟩
      exact ⟨us, rest, hrest, .inr ⟨by rw [← hrest]; simpa using htest, hQ⟩, rfl⟩
    · rintro ⟨vs, rest, hvs, ⟨t', us, rfl, ht', -⟩ | ⟨-, hQ⟩, rfl⟩
      · rw [hvs] at htest
        exact absurd ht' htest
      · exact ⟨vs, rest, hvs, hQ, rfl⟩

/-- A token that passes is taken, if there is one. -/
theorem Looks.takes_skip {l : Reader Bool} {test : TokenKind → Bool} (hl : Looks l test) {s : Reader Unit}
    {Q : Unit → List Token → List Token → Prop} (hs : Takes s Q) :
    Takes (l >>= fun b => if b = true then skip else s) fun u ts rest =>
      (∃ t, ts = [t] ∧ test t.kind = true) ∨ test (kindOf (ts ++ rest)) = false ∧ Q u ts rest := by
  have h := hl.takes (takes_pure ()) hs
  simp only [show (skip >>= fun _ => pure ()) = skip from bind_pure skip] at h
  refine h.congr fun u ts rest => or_congr_left ?_
  constructor
  · rintro ⟨t, us, rfl, ht, -, rfl⟩
    exact ⟨t, rfl, ht⟩
  · rintro ⟨t, rfl, ht⟩
    exact ⟨t, [], rfl, ht, trivial, rfl⟩

theorem Looks.takes_expect {l : Reader Bool} {test : TokenKind → Bool} (hl : Looks l test) (e : Expected) :
    Takes (l >>= fun b => if b = true then skip else unexpected e) fun _ ts _ => ∃ t, ts = [t] ∧ test t.kind = true :=
  (hl.takes_skip (takes_unexpected e)).congr fun _ _ _ => by simp

theorem takes_expectKind {k : TokenKind} (hk : k ≠ .eof) : Takes (expectKind k) fun _ ts _ => ∃ t, ts = [t] ∧ t.kind = k :=
  ((looks_atKind hk).takes_expect (.kind k)).congr fun _ _ _ => by simp

theorem takes_expectKeyword (k : Keyword) : Takes (expectKeyword k) fun _ ts _ => ∃ t, ts = [t] ∧ t.keyword? = some k :=
  ((looks_atKeyword k).takes_expect (.keyword k)).congr fun _ _ _ => by simp [Token.keyword?]

theorem takes_expectWord (w : String) : Takes (expectWord w) fun _ ts _ => ∃ t, ts = [t] ∧ t.kind.isWord w = true :=
  (looks_atWord w).takes_expect (.word w)

theorem rest_of_nameOf? {c : Cursor} {n : String} (h : nameOf? c.current = some n) : ∃ rest, c.rest = c.current :: rest :=
  Cursor.rest_of_current fun hk => by simp [nameOf?, hk] at h

theorem takes_expectName : Takes expectName fun n ts _ => ∃ t, ts = [t] ∧ nameOf? t = some n := by
  intro c n c'
  have hunfold : expectName c = _ := bind_eq_of_ok (show current c = .ok c.current c from rfl)
  rw [hunfold]
  cases hname : nameOf? c.current with
  | none =>
    refine iff_of_false (fun h => by cases h) ?_
    rintro ⟨ts, rest, hc, ⟨t, rfl, ht⟩, -⟩
    rw [(Cursor.advance_of_rest hc).1, ht] at hname
    cases hname
  | some m =>
    obtain ⟨rest, hc⟩ := rest_of_nameOf? hname
    simp only [bind_eq_ok, skip_eq_ok, pure_eq_ok]
    constructor
    · rintro ⟨_, _, rfl, rfl, rfl⟩
      exact ⟨[c.current], rest, hc, ⟨_, rfl, hname⟩, Cursor.advance_eq_jump hc⟩
    · rintro ⟨ts, rest', hc', ⟨t, rfl, ht⟩, rfl⟩
      rw [(Cursor.advance_of_rest hc').1, ht] at hname
      exact ⟨(), _, rfl, (Option.some.inj hname).symm, Cursor.advance_eq_jump hc'⟩

/-! ## Discarding -/

def Records (r : Reader α) (P : α → List String → List Token → List Token → Prop) : Prop :=
  ∀ c a c', r c = .ok a c' ↔ ∃ entries ts rest, c.rest = ts ++ rest ∧ P a entries ts rest ∧ c' = (c.jump ts rest).record entries

theorem Records.congr {r : Reader α} {P Q : α → List String → List Token → List Token → Prop} (h : Records r P)
    (hPQ : ∀ a entries ts rest, P a entries ts rest ↔ Q a entries ts rest) : Records r Q := by
  intro c a c'
  simp only [h c a c', hPQ]

theorem Takes.records {r : Reader α} {P : α → List Token → List Token → Prop} (h : Takes r P) :
    Records r fun a entries ts rest => entries = [] ∧ P a ts rest := by
  intro c a c'
  rw [h]
  constructor
  · rintro ⟨ts, rest, hc, hP, rfl⟩
    exact ⟨[], ts, rest, hc, ⟨rfl, hP⟩, rfl⟩
  · rintro ⟨_, ts, rest, hc, ⟨rfl, hP⟩, rfl⟩
    exact ⟨ts, rest, hc, hP, rfl⟩

theorem Records.takes {r : Reader α} {P : α → List Token → List Token → Prop}
    (h : Records r fun a entries ts rest => entries = [] ∧ P a ts rest) : Takes r P := by
  intro c a c'
  rw [h]
  constructor
  · rintro ⟨_, ts, rest, hc, ⟨rfl, hP⟩, rfl⟩
    exact ⟨ts, rest, hc, hP, rfl⟩
  · rintro ⟨ts, rest, hc, hP, rfl⟩
    exact ⟨[], ts, rest, hc, ⟨rfl, hP⟩, rfl⟩

theorem Records.bind {r : Reader α} {f : α → Reader β} {P : α → List String → List Token → List Token → Prop}
    {Q : α → β → List String → List Token → List Token → Prop} (hr : Records r P) (hf : ∀ a, Records (f a) (Q a)) :
    Records (r >>= f) fun b entries ts rest =>
      ∃ a ds es us vs, entries = ds ++ es ∧ ts = us ++ vs ∧ P a ds us (vs ++ rest) ∧ Q a b es vs rest := by
  intro c b c'
  rw [bind_eq_ok]
  constructor
  · rintro ⟨a, c₁, h₁, h₂⟩
    obtain ⟨ds, us, rest₁, hc, hP, rfl⟩ := (hr c a c₁).mp h₁
    obtain ⟨es, vs, rest, hrest, hQ, rfl⟩ := (hf a _ b c').mp h₂
    obtain rfl : rest₁ = vs ++ rest := hrest
    refine ⟨ds ++ es, us ++ vs, rest, by rw [hc, List.append_assoc], ⟨a, ds, es, us, vs, rfl, rfl, hP, hQ⟩, ?_⟩
    rw [Cursor.record_jump, Cursor.record_record, Cursor.jump_jump]
  · rintro ⟨_, _, rest, hc, ⟨a, ds, es, us, vs, rfl, rfl, hP, hQ⟩, rfl⟩
    rw [List.append_assoc] at hc
    refine ⟨a, (c.jump us (vs ++ rest)).record ds, (hr ..).mpr ⟨ds, us, _, hc, hP, rfl⟩,
      (hf ..).mpr ⟨es, vs, rest, rfl, hQ, ?_⟩⟩
    rw [Cursor.record_jump, Cursor.record_record, Cursor.jump_jump]

/-! ## Loops -/

theorem loop_eq_ok {step : α → Reader (Turn α β)} [∀ a, Progresses (step a)] {a : α} {b : β} {c c' : Cursor} :
    loop step a c = .ok b c' ↔
      step a c = .ok (.done b) c' ∨ ∃ a' c₁, step a c = .ok (.again a') c₁ ∧ loop step a' c₁ = .ok b c' := by
  rw [loop]
  split
  · next a' c₁ h =>
    rw [h]
    constructor
    · exact fun hloop => .inr ⟨a', c₁, rfl, hloop⟩
    · rintro (hdone | ⟨_, _, hagain, hloop⟩)
      · cases hdone
      · cases hagain
        exact hloop
  · next b' c₁ h => simp [h]
  · next e c₁ h => simp [h]

/-- What the turns of a loop come to if each of them comes to what `P` says. -/
inductive Turns (P : α → Turn α β → List String → List Token → List Token → Prop) :
    α → β → List String → List Token → List Token → Prop where
  | done {a : α} {b : β} {entries : List String} {ts rest : List Token} (h : P a (.done b) entries ts rest) :
      Turns P a b entries ts rest
  | again {a a' : α} {b : β} {ds es : List String} {us vs rest : List Token} (h : P a (.again a') ds us (vs ++ rest))
      (hs : Turns P a' b es vs rest) : Turns P a b (ds ++ es) (us ++ vs) rest

theorem records_loop {step : α → Reader (Turn α β)} [∀ a, Progresses (step a)]
    {P : α → Turn α β → List String → List Token → List Token → Prop} (h : ∀ a, Records (step a) (P a)) (a : α) :
    Records (loop step a) (Turns P a) := by
  intro c b c'
  constructor
  · intro hb
    -- A loop ends because each turn but the last leaves fewer tokens.
    induction hn : c.rest.length using Nat.strongRecOn generalizing a c with
    | ind n ih =>
      subst hn
      rcases loop_eq_ok.mp hb with hdone | ⟨a₁, c₁, hagain, hb⟩
      · obtain ⟨entries, ts, rest, hc, hP, rfl⟩ := (h a c _ c').mp hdone
        exact ⟨entries, ts, rest, hc, .done hP, rfl⟩
      · have hlt := Progresses.progresses hagain
        obtain ⟨ds, us, rest₁, hc, hP, rfl⟩ := (h a c _ c₁).mp hagain
        obtain ⟨es, vs, rest, hrest, hs, rfl⟩ := ih _ hlt a₁ _ hb rfl
        obtain rfl : rest₁ = vs ++ rest := hrest
        refine ⟨ds ++ es, us ++ vs, rest, by rw [hc, List.append_assoc], .again hP hs, ?_⟩
        rw [Cursor.record_jump, Cursor.record_record, Cursor.jump_jump]
  · rintro ⟨_, _, rest, hc, hs, rfl⟩
    induction hs generalizing c with
    | done hP => exact loop_eq_ok.mpr (.inl ((h ..).mpr ⟨_, _, _, hc, hP, rfl⟩))
    | @again a a' b ds es us vs rest hP hs ih =>
      rw [List.append_assoc] at hc
      have hloop := ih ((c.jump us (vs ++ rest)).record ds) rfl
      rw [Cursor.record_jump, Cursor.record_record, Cursor.jump_jump] at hloop
      exact loop_eq_ok.mpr (.inr ⟨a', _, (h ..).mpr ⟨ds, us, _, hc, hP, rfl⟩, hloop⟩)

end Reader

end SchemaEditor
