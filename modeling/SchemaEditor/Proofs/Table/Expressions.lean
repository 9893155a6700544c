import SchemaEditor.Proofs.Table.Reading

/-!
# Types, defaults and checks in their surroundings

These parts of a column are kept as text. A text that its reader reads back whole is read back in the
same way where it stands in a definition: its tokens there are the ones it has alone, and the reader needs
no more of what follows than that it begins with a delimiter.
-/

namespace SchemaEditor

/-- A token without its place and the gap before it. -/
def Token.bare (t : Token) : TokenKind × List Char := (t.kind, t.text)

theorem kind_congr {t u : Token} (h : t.bare = u.bare) : t.kind = u.kind := congrArg Prod.fst h

theorem text_congr {t u : Token} (h : t.bare = u.bare) : t.text = u.text := congrArg Prod.snd h

theorem keyword?_congr {t u : Token} (h : t.bare = u.bare) : t.keyword? = u.keyword? := congrArg TokenKind.keyword? (kind_congr h)

theorem map_bare_of_map_form {ts us : List Token} (h : ts.map Token.form = us.map Token.form) :
    ts.map Token.bare = us.map Token.bare := by
  have hcomp : Token.bare = (fun f : TokenKind × List Char × List Char => (f.1, f.2.2)) ∘ Token.form := rfl
  rw [hcomp, ← List.map_map, ← List.map_map, h]

theorem source_of_map_form {ts us : List Token} (h : ts.map Token.form = us.map Token.form) :
    Token.source ts = Token.source us := by
  cases ts with
  | nil => cases us with
    | nil => rfl
    | cons u us => simp at h
  | cons t ts => cases us with
    | nil => simp at h
    | cons u us =>
      simp only [List.map_cons, List.cons.injEq] at h
      have htext : t.text = u.text := congrArg (fun f => f.2.2) h.1
      have hflat := congrArg (List.flatMap fun f : TokenKind × List Char × List Char => f.2.1 ++ f.2.2) h.2
      simp only [List.flatMap_map, Token.form] at hflat
      rw [Token.source, Token.source, htext, hflat]

/-! ## Whole texts -/

/-- `ts` are the tokens of `cs`, and nothing follows the last of them. -/
structure TokensOf (cs : List Char) (ts : List Token) : Prop where
  tokens : ∃ pos e, tokensFrom pos cs = ts ++ [e] ∧ e.gap = []
  proper : ∀ t ∈ ts, t.kind.isEnd = false

/-- What is left of the tokens of a text when nothing is left of the text. -/
theorem rest_of_tokensFrom {cs : List Char} {pos : Nat} {taken rest : List Token}
    (h : tokensFrom pos cs = taken ++ rest) (htaken : ∀ t ∈ taken, t.kind.isEnd = false)
    (hrest : rest.flatMap (fun t => t.gap ++ t.text) = []) : ∃ e, rest = [e] ∧ e.gap = [] := by
  obtain ⟨ts, e, hts, he, -, hne⟩ := tokensFrom_eq_append_end cs pos
  rw [hts] at h
  rcases List.append_eq_append_iff.mp h with ⟨as, htaken', hlast⟩ | ⟨bs, hts', rfl⟩
  · have hmem : e ∉ as := by
      intro hmem
      have := htaken e (by rw [htaken']; exact List.mem_append_right _ hmem)
      simp [he, TokenKind.isEnd] at this
    rcases as with _ | ⟨a, as⟩
    · rw [List.nil_append] at hlast
      subst hlast
      exact ⟨e, rfl, by simpa using (List.append_eq_nil_iff.mp (by simpa using hrest)).1⟩
    · obtain ⟨rfl, -⟩ := List.cons.inj hlast
      exact absurd List.mem_cons_self hmem
  · rcases bs with _ | ⟨b, bs⟩
    · exact ⟨e, rfl, (List.append_eq_nil_iff.mp (by simpa using hrest)).1⟩
    · have hb := (hne b (by simp [hts'])).2
      simp [hb] at hrest

theorem tokensOf_of_rest {cs : List Char} {pos : Nat} {taken rest : List Token}
    (h : tokensFrom pos cs = taken ++ rest) (htaken : ∀ t ∈ taken, t.kind.isEnd = false)
    (hrest : rest.flatMap (fun t => t.gap ++ t.text) = []) : TokensOf cs taken := by
  obtain ⟨e, rfl, he⟩ := rest_of_tokensFrom h htaken hrest
  exact ⟨⟨pos, e, h, he⟩, htaken⟩

theorem TokensOf.tokensFrom {cs : List Char} {ts : List Token} (h : TokensOf cs ts) (pos : Nat) :
    ∃ us e, SchemaEditor.tokensFrom pos cs = us ++ [e] ∧ e.gap = [] ∧ us.map Token.form = ts.map Token.form := by
  obtain ⟨pos', e, hts, he⟩ := h.tokens
  have hforms := map_form_tokensFrom cs pos pos'
  rw [hts, List.map_append] at hforms
  obtain ⟨us, vs, hsplit, hus, hvs⟩ := List.map_eq_append_iff.mp hforms
  obtain ⟨e', rfl, he'⟩ := List.map_eq_singleton_iff.mp hvs
  have hgap : e'.gap = e.gap := congrArg (fun f => f.2.1) he'
  exact ⟨us, e', hsplit, by rw [hgap, he], hus⟩

theorem map_bare_indent (g : List Char) (ts : List Token) : (indent g ts).map Token.bare = ts.map Token.bare := by
  cases ts <;> rfl

theorem source_indent (g : List Char) (ts : List Token) : Token.source (indent g ts) = Token.source ts := by
  cases ts <;> rfl

/-- In front of a delimiter a text has the tokens that it has alone. -/
theorem TokensOf.before {cs rest : List Char} {ts : List Token} (h : TokensOf cs ts) (hrest : Delimited rest)
    {c : Cursor} (hc : c.Before (cs ++ rest)) :
    ∃ taken tail, c.rest = taken ++ tail ∧ taken.map Token.bare = ts.map Token.bare ∧
      Token.source taken = Token.source ts ∧ (c.jump taken tail).Before rest := by
  obtain ⟨pos, g, hg, hc⟩ := hc
  obtain ⟨d, ds, rfl, hd⟩ := hrest
  obtain ⟨us, e, hus, he, hforms⟩ := h.tokensFrom (pos + byteLength g)
  have hbare := map_bare_of_map_form hforms
  have hends : ∀ u ∈ us, u.kind.isEnd = false := by
    intro u hu
    have hmem : u.bare ∈ ts.map Token.bare := hbare ▸ List.mem_map_of_mem hu
    obtain ⟨t, ht, htu⟩ := List.mem_map.mp hmem
    have hkind : t.kind = u.kind := congrArg Prod.fst htu
    rw [← hkind]
    exact h.proper t ht
  rw [tokensFrom_blank_append hg, tokensFrom_append_delimiter hd ds cs _ hus he hends] at hc
  rcases us with _ | ⟨u, us⟩
  · refine ⟨[], c.rest, rfl, hbare, source_of_map_form hforms, pos + byteLength cs, g, hg, ?_⟩
    show c.rest = _
    rw [hc, tokensFrom_blank_append hg, Nat.add_right_comm]
    rfl
  · refine ⟨indent g (u :: us), _, hc, ?_, ?_, _, [], by simp, rfl⟩
    · rw [map_bare_indent, hbare]
    · rw [source_indent, source_of_map_form hforms]

/-! ## Balanced text -/

/-- How many parentheses are open behind the tokens, unless they end early or close one too many. -/
def depthThrough : Nat → List Token → Option Nat
  | depth, [] => some depth
  | depth, t :: ts =>
    if t.kind.isEnd || (depth == 0 && t.kind == .rightParen) then none
    else depthThrough (Reader.depthAfter depth t.kind) ts

/-- What stands between two parentheses that belong together. -/
def Enclosed (ts : List Token) : Prop := depthThrough 0 ts = some 0

theorem depthThrough_congr {ts us : List Token} (h : ts.map Token.bare = us.map Token.bare) (depth : Nat) :
    depthThrough depth ts = depthThrough depth us := by
  induction ts generalizing us depth with
  | nil =>
    obtain rfl : us = [] := by simpa using h.symm
    rfl
  | cons t ts ih =>
    obtain ⟨u, us, rfl⟩ : ∃ u us', us = u :: us' := by
      cases us with
      | nil => simp at h
      | cons u us => exact ⟨u, us, rfl⟩
    simp only [List.map_cons, List.cons.injEq] at h
    have hkind : t.kind = u.kind := congrArg Prod.fst h.1
    rw [depthThrough, depthThrough, hkind, ih h.2]

theorem proper_of_depthThrough {ts : List Token} {depth n : Nat} (h : depthThrough depth ts = some n) :
    ∀ t ∈ ts, t.kind.isEnd = false := by
  induction ts generalizing depth with
  | nil => simp
  | cons t ts ih =>
    rw [depthThrough] at h
    split at h
    · cases h
    · next hstop =>
      intro u hu
      rcases List.mem_cons.mp hu with rfl | hu
      · simp only [Bool.or_eq_true, not_or, Bool.not_eq_true] at hstop
        exact hstop.1
      · exact ih h u hu

namespace Reader

theorem takeBalanced_of_depthThrough {ts rest : List Token} {r : Token} {depth : Nat}
    (h : depthThrough depth ts = some 0) (hr : r.kind = .rightParen) :
    takeBalanced (· == .rightParen) depth (ts ++ r :: rest) = (ts, r :: rest) := by
  induction ts generalizing depth with
  | nil =>
    obtain rfl : depth = 0 := by simpa [depthThrough] using h
    rw [List.nil_append, takeBalanced, if_pos (by simp [hr])]
  | cons t ts ih =>
    rw [depthThrough] at h
    split at h
    · cases h
    · next hstop => rw [List.cons_append, takeBalanced, if_neg hstop, ih h]

theorem depthThrough_of_takeBalanced {l ts rest : List Token} {r : Token} {depth : Nat}
    (h : takeBalanced (· == .rightParen) depth l = (ts, r :: rest)) (hr : r.kind.isEnd = false) :
    depthThrough depth ts = some 0 ∧ r.kind = .rightParen := by
  induction l generalizing depth ts with
  | nil => simp [takeBalanced] at h
  | cons t l ih =>
    rw [takeBalanced] at h
    split at h
    · next hstop =>
      obtain ⟨rfl, rfl, rfl⟩ : ts = [] ∧ t = r ∧ l = rest := by simpa [eq_comm] using h
      obtain ⟨rfl, hk⟩ : depth = 0 ∧ t.kind = .rightParen := by simpa [hr] using hstop
      exact ⟨rfl, hk⟩
    · next hstop =>
      obtain ⟨rfl, hrest⟩ := Prod.mk.inj h
      have hih := ih (Prod.ext rfl hrest : takeBalanced _ _ l = (_, r :: rest))
      refine ⟨?_, hih.2⟩
      rw [depthThrough, if_neg hstop]
      exact hih.1

theorem inside_eq_ok {c c' : Cursor} {ts : List Token} :
    inside c = .ok ts c' ↔
      ∃ r rest, c.rest = ts ++ r :: rest ∧ r.kind = .rightParen ∧ Enclosed ts ∧ c' = c.jump ts (r :: rest) := by
  constructor
  · intro h
    unfold inside at h
    cases hb : takeBalanced (· == .rightParen) 0 c.rest with
    | mk taken rest =>
      have happ := takeBalanced_append (· == .rightParen) 0 c.rest
      simp only [hb] at h happ
      split at h
      · cases h
      · next hend =>
        cases h
        rcases rest with _ | ⟨r, rest⟩
        · exact absurd rfl hend
        · have hr : r.kind.isEnd = false := by simpa [Cursor.current, Cursor.jump] using hend
          obtain ⟨hdepth, hk⟩ := depthThrough_of_takeBalanced hb hr
          exact ⟨r, rest, happ.symm, hk, hdepth, rfl⟩
  · rintro ⟨r, rest, hc, hr, henclosed, rfl⟩
    have hend : (c.jump ts (r :: rest)).current.kind.isEnd = false := by
      simp [Cursor.current, Cursor.jump, hr, TokenKind.isEnd]
    unfold inside
    rw [hc, takeBalanced_of_depthThrough henclosed hr]
    simp [hend]

theorem compact_congr {ts us : List Token} (h : ts.map Token.bare = us.map Token.bare) : compact ts = compact us := by
  fun_induction compact ts generalizing us with
  | case1 =>
    obtain rfl : us = [] := by simpa using h.symm
    rfl
  | case2 t =>
    obtain ⟨u, rfl, hu⟩ := List.map_eq_singleton_iff.mp h.symm
    exact congrArg Prod.snd hu.symm
  | case3 a b ts ih =>
    obtain ⟨u, us, rfl, hu, hus⟩ := List.map_eq_cons_iff.mp h.symm
    obtain ⟨v, us, rfl, hv, -⟩ := List.map_eq_cons_iff.mp hus
    have hka : a.kind = u.kind := (congrArg Prod.fst hu).symm
    have hta : a.text = u.text := (congrArg Prod.snd hu).symm
    have hkb : b.kind = v.kind := (congrArg Prod.fst hv).symm
    have htb : b.text = v.text := (congrArg Prod.snd hv).symm
    rw [compact, ih hus.symm, needsBlank, needsBlank, Token.isWordLike, Token.isWordLike, Token.isWordLike,
      Token.isWordLike, hka, hta, hkb, htb]

/-! ## What the readers take -/

theorem bind_eq_ok {α β : Type} {r : Reader α} {f : α → Reader β} {c c' : Cursor} {b : β} :
    (r >>= f) c = .ok b c' ↔ ∃ a c₁, r c = .ok a c₁ ∧ f a c₁ = .ok b c' := by
  change EStateM.bind r f c = _ ↔ _
  unfold EStateM.bind
  constructor
  · intro h
    split at h
    · next a c₁ hr => exact ⟨a, c₁, hr, h⟩
    · cases h
  · rintro ⟨a, c₁, hr, hf⟩
    rw [hr]
    exact hf

theorem pure_eq_ok {α : Type} {a b : α} {c c' : Cursor} : (pure a : Reader α) c = .ok b c' ↔ a = b ∧ c = c' :=
  ⟨fun h => by cases h; exact ⟨rfl, rfl⟩, fun ⟨ha, hc⟩ => by rw [ha, hc]; rfl⟩

theorem current_eq_ok {t : Token} {c c' : Cursor} : current c = .ok t c' ↔ c.current = t ∧ c = c' :=
  ⟨fun h => by cases h; exact ⟨rfl, rfl⟩, fun ⟨ht, hc⟩ => by rw [← hc, ← ht]; rfl⟩

theorem skip_eq_ok {u : Unit} {c c' : Cursor} : skip c = .ok u c' ↔ c' = c.advance :=
  ⟨fun h => by cases h; rfl, fun h => by rw [h]; rfl⟩

theorem expectKind_eq_ok {k : TokenKind} {u : Unit} {c c' : Cursor} :
    expectKind k c = .ok u c' ↔ c.current.kind = k ∧ c' = c.advance := by
  have hunfold : expectKind k c = if (c.current.kind == k) = true then skip c else unexpected (.kind k) c := by
    by_cases hk : (c.current.kind == k) = true
    · rw [if_pos hk]; show (if (c.current.kind == k) = true then skip else _ : Reader Unit) c = _; rw [if_pos hk]
    · rw [if_neg hk]; show (if (c.current.kind == k) = true then skip else _ : Reader Unit) c = _; rw [if_neg hk]
  rw [hunfold]
  by_cases hk : c.current.kind = k
  · simp [hk, skip_eq_ok]
  · simp [hk, unexpected]

theorem compactExpression_eq_ok {s : String} {c c' : Cursor} :
    compactExpression c = .ok s c' ↔
      ∃ ts r rest, c.rest = ts ++ r :: rest ∧ Enclosed ts ∧ r.kind = .rightParen ∧
        s = String.ofList (compact ts) ∧ c' = c.jump ts (r :: rest) := by
  unfold compactExpression
  simp only [bind_eq_ok, pure_eq_ok, inside_eq_ok]
  constructor
  · rintro ⟨ts, _, ⟨r, rest, hrest, hr, hts, rfl⟩, rfl, rfl⟩
    exact ⟨ts, r, rest, hrest, hts, hr, rfl, rfl⟩
  · rintro ⟨ts, r, rest, hrest, hts, hr, rfl, rfl⟩
    exact ⟨ts, _, ⟨r, rest, hrest, hr, hts, rfl⟩, rfl, rfl⟩

end Reader

namespace Cursor

theorem rest_of_current {c : Cursor} (h : c.current.kind ≠ .eof) : ∃ rest, c.rest = c.current :: rest := by
  cases hr : c.rest with
  | nil => simp [current, hr, Token.atEnd] at h
  | cons t ts => exact ⟨ts, by simp [current, hr]⟩

theorem advance_of_rest {c : Cursor} {t : Token} {rest : List Token} (h : c.rest = t :: rest) :
    c.current = t ∧ c.advance = c.jump [t] rest := by
  simp [current, advance, jump, h]

theorem jump_jump (c : Cursor) (ts us rest rest' : List Token) :
    (c.jump ts rest).jump us rest' = c.jump (ts ++ us) rest' := by
  simp [jump]

theorem sourceSince_jump (c : Cursor) (ts rest : List Token) :
    (c.jump ts rest).sourceSince c.read.length = String.ofList (Token.source ts) := by
  simp [sourceSince, jump]

end Cursor

namespace Reader

theorem parenthesized_eq_ok {u : Unit} {c c' : Cursor} :
    parenthesized c = .ok u c' ↔
      ∃ l ts r rest, c.rest = l :: ts ++ r :: rest ∧ l.kind = .leftParen ∧ Enclosed ts ∧ r.kind = .rightParen ∧
        c' = c.jump (l :: ts ++ [r]) rest := by
  unfold parenthesized
  simp only [bind_eq_ok, expectKind_eq_ok, inside_eq_ok, skip_eq_ok]
  constructor
  · rintro ⟨_, _, ⟨hl, rfl⟩, ts, _, ⟨r, rest, hrest, hr, hts, rfl⟩, rfl⟩
    obtain ⟨rest', hc⟩ := Cursor.rest_of_current (c := c) (by rw [hl]; decide)
    obtain ⟨-, hadv⟩ := Cursor.advance_of_rest hc
    refine ⟨c.current, ts, r, rest, ?_, hl, hts, hr, ?_⟩
    · rw [hadv] at hrest
      rw [hc]
      exact congrArg (c.current :: ·) hrest
    · rw [hadv, Cursor.jump_jump, (Cursor.advance_of_rest rfl).2, Cursor.jump_jump]
      rfl
  · rintro ⟨l, ts, r, rest, hc, hl, hts, hr, rfl⟩
    obtain ⟨hcur, hadv⟩ := Cursor.advance_of_rest hc
    refine ⟨(), c.advance, ⟨by rw [hcur, hl], rfl⟩, ts, _, ⟨r, rest, by rw [hadv]; rfl, hr, hts, rfl⟩, ?_⟩
    rw [hadv, Cursor.jump_jump, (Cursor.advance_of_rest rfl).2, Cursor.jump_jump]
    rfl

/-- The tokens of a type: words, and perhaps a size in parentheses. -/
inductive IsType : List Token → Prop where
  | words {ts : List Token} (hne : ts ≠ []) (hwords : ∀ t ∈ ts, isTypeWord t = true) : IsType ts
  | sized {ts inside : List Token} {l r : Token} (hne : ts ≠ []) (hwords : ∀ t ∈ ts, isTypeWord t = true)
      (hl : l.kind = .leftParen) (hinside : Enclosed inside) (hr : r.kind = .rightParen) :
      IsType (ts ++ l :: (inside ++ [r]))

/-- The tokens of a default value, and the value. -/
inductive IsDefault : List Token → String → Prop where
  | group {ts : List Token} {l r : Token} (hl : defaultStart l.kind = .group) (hts : Enclosed ts) (hr : r.kind = .rightParen) :
      IsDefault (l :: (ts ++ [r])) ("(" ++ String.ofList (compact ts) ++ ")")
  | sign {a n : Token} (ha : defaultStart a.kind = .sign) (hn : n.kind = .number) :
      IsDefault [a, n] (String.ofList (a.text ++ n.text))
  | single {a : Token} (ha : defaultStart a.kind = .single) : IsDefault [a] (String.ofList a.text)

theorem closedExpression_eq_ok {s : String} {c c' : Cursor} :
    closedExpression c = .ok s c' ↔
      ∃ ts r rest, c.rest = ts ++ r :: rest ∧ Enclosed ts ∧ r.kind = .rightParen ∧
        s = String.ofList (compact ts) ∧ c' = c.jump (ts ++ [r]) rest := by
  unfold closedExpression
  simp only [bind_eq_ok, pure_eq_ok, compactExpression_eq_ok, expectKind_eq_ok]
  constructor
  · rintro ⟨_, _, ⟨ts, r, rest, hrest, hts, hr, rfl, rfl⟩, _, _, ⟨-, rfl⟩, rfl, rfl⟩
    exact ⟨ts, r, rest, hrest, hts, hr, rfl, by rw [(Cursor.advance_of_rest rfl).2, Cursor.jump_jump]⟩
  · rintro ⟨ts, r, rest, hrest, hts, hr, rfl, rfl⟩
    refine ⟨_, _, ⟨ts, r, rest, hrest, hts, hr, rfl, rfl⟩, (), _, ⟨hr, rfl⟩, rfl, ?_⟩
    rw [(Cursor.advance_of_rest rfl).2, Cursor.jump_jump]

theorem rest_of_defaultStart {c : Cursor} {d : DefaultStart} (h : defaultStart c.current.kind = d) (hd : d ≠ .none) :
    ∃ rest, c.rest = c.current :: rest :=
  Cursor.rest_of_current fun hk => hd (by rw [← h, hk]; rfl)

theorem isDefault_of_ok {s : String} {c c' : Cursor} (h : defaultValue c = .ok s c') :
    ∃ ts rest, c.rest = ts ++ rest ∧ IsDefault ts s ∧ c' = c.jump ts rest := by
  have hfirst : defaultValue c = _ := bind_eq_of_ok (show current c = .ok c.current c from rfl)
  rw [hfirst] at h
  cases hstart : defaultStart c.current.kind with
  | group =>
    obtain ⟨rest, hc⟩ := rest_of_defaultStart hstart (by decide)
    simp only [hstart, bind_eq_ok, skip_eq_ok, pure_eq_ok, closedExpression_eq_ok] at h
    obtain ⟨_, _, rfl, _, _, ⟨ts, r, rest', hrest, hts, hr, rfl, rfl⟩, rfl, rfl⟩ := h
    rw [(Cursor.advance_of_rest hc).2] at hrest ⊢
    refine ⟨c.current :: (ts ++ [r]), rest', ?_, .group hstart hts hr, by rw [Cursor.jump_jump]; rfl⟩
    rw [hc, show rest = ts ++ r :: rest' from hrest]
    simp
  | sign =>
    obtain ⟨rest, hc⟩ := rest_of_defaultStart hstart (by decide)
    simp only [hstart, bind_eq_ok, skip_eq_ok] at h
    obtain ⟨_, _, rfl, n, _, hn, h⟩ := h
    cases hn
    split at h
    · next hnumber =>
      simp only [bind_eq_ok, skip_eq_ok, pure_eq_ok] at h
      obtain ⟨_, _, rfl, rfl, rfl⟩ := h
      have hk : c.advance.current.kind = .number := by simpa using hnumber
      obtain ⟨rest', hc'⟩ := Cursor.rest_of_current (c := c.advance) (by rw [hk]; decide)
      refine ⟨[c.current, c.advance.current], rest', ?_, .sign hstart hk, ?_⟩
      · rw [hc]
        rw [(Cursor.advance_of_rest hc).2] at hc' ⊢
        exact congrArg (c.current :: ·) hc'
      · rw [(Cursor.advance_of_rest hc').2]
        have hadv := congrArg (Cursor.jump · [c.advance.current] rest') (Cursor.advance_of_rest hc).2
        exact hadv.trans (Cursor.jump_jump ..)
    · cases h
  | single =>
    obtain ⟨rest, hc⟩ := rest_of_defaultStart hstart (by decide)
    simp only [hstart, bind_eq_ok, skip_eq_ok, pure_eq_ok] at h
    obtain ⟨_, _, rfl, rfl, rfl⟩ := h
    exact ⟨[c.current], rest, hc, .single hstart, (Cursor.advance_of_rest hc).2⟩
  | none => simp only [hstart] at h; cases h

theorem IsDefault.ok {ts rest : List Token} {s : String} (h : IsDefault ts s) {c : Cursor} (hc : c.rest = ts ++ rest) :
    defaultValue c = .ok s (c.jump ts rest) := by
  have hfirst : defaultValue c = _ := bind_eq_of_ok (show current c = .ok c.current c from rfl)
  rw [hfirst]
  cases h with
  | @group ts l r hl hts hr =>
    have hc' : c.rest = l :: (ts ++ r :: rest) := by simpa using hc
    obtain ⟨rfl, hadv⟩ := Cursor.advance_of_rest hc'
    simp only [hl, bind_eq_ok, skip_eq_ok, pure_eq_ok, closedExpression_eq_ok]
    refine ⟨(), _, rfl, _, _, ⟨ts, r, rest, by rw [hadv]; rfl, hts, hr, rfl, rfl⟩, rfl, ?_⟩
    rw [hadv, Cursor.jump_jump]
    rfl
  | @sign a n ha hn =>
    have hc' : c.rest = a :: n :: rest := hc
    obtain ⟨rfl, hadv⟩ := Cursor.advance_of_rest hc'
    obtain ⟨rfl, hadv'⟩ := Cursor.advance_of_rest (show c.advance.rest = n :: rest by rw [hadv]; rfl)
    simp only [ha, bind_eq_ok, skip_eq_ok, current_eq_ok]
    refine ⟨(), _, rfl, _, _, ⟨rfl, rfl⟩, ?_⟩
    rw [if_pos (by simp [hn])]
    simp only [bind_eq_ok, skip_eq_ok, pure_eq_ok]
    refine ⟨(), _, rfl, trivial, hadv'.trans ?_⟩
    exact (congrArg (Cursor.jump · [c.advance.current] rest) hadv).trans (Cursor.jump_jump ..)
  | single ha =>
    obtain ⟨rfl, hadv⟩ := Cursor.advance_of_rest (show c.rest = _ :: rest from hc)
    simp only [ha, bind_eq_ok, skip_eq_ok, pure_eq_ok]
    exact ⟨(), _, rfl, trivial, hadv⟩

/-- The reader of types, cut where it looks for a size. -/
theorem typeName_eq (c : Cursor) :
    typeName c =
      if isTypeWord c.current then
        let c₁ := c.jump (c.rest.takeWhile isTypeWord) (c.rest.dropWhile isTypeWord)
        if c₁.current.kind == .leftParen then (parenthesized >>= fun _ => sourceSince c.read.length) c₁
        else .ok (c₁.sourceSince c.read.length) c₁
      else .ok (c.sourceSince c.read.length) c := by
  unfold typeName
  rw [bind_eq_of_ok (show mark c = .ok c.read.length c from rfl),
    bind_eq_of_ok (show current c = .ok c.current c from rfl)]
  by_cases hword : isTypeWord c.current = true
  · simp only [if_pos hword]
    rw [bind_eq_of_ok (show typeWords c = .ok () _ from rfl), bind_eq_of_ok (show atKind _ _ = .ok _ _ from rfl)]
    generalize c.jump (c.rest.takeWhile isTypeWord) (c.rest.dropWhile isTypeWord) = c₁
    by_cases hparen : (c₁.current.kind == .leftParen) = true
    · simp only [if_pos hparen]
    · simp only [if_neg hparen]
      rfl
  · simp only [if_neg hword]
    rfl

theorem isType_of_ok {s : String} {c c' : Cursor} (h : typeName c = .ok s c') (hne : s ≠ "") :
    ∃ ts rest, c.rest = ts ++ rest ∧ IsType ts ∧ s = String.ofList (Token.source ts) ∧ c' = c.jump ts rest := by
  rw [typeName_eq] at h
  split at h
  · next hword =>
    have hsplit := List.takeWhile_append_dropWhile (p := isTypeWord) (l := c.rest)
    have hall : ∀ t ∈ c.rest.takeWhile isTypeWord, isTypeWord t = true := fun t ht => List.mem_takeWhile_imp ht
    have hwords : c.rest.takeWhile isTypeWord ≠ [] := by
      cases hr : c.rest with
      | nil => simp [Cursor.current, hr, Token.atEnd, isTypeWord] at hword
      | cons t ts =>
        have ht : isTypeWord t = true := by simpa [Cursor.current, hr] using hword
        simp [ht]
    simp only at h
    split at h
    · simp only [bind_eq_ok, parenthesized_eq_ok] at h
      obtain ⟨-, _, ⟨l, ts, r, rest, hrest, hl, hts, hr, rfl⟩, h⟩ := h
      rw [Cursor.jump_jump] at h
      refine ⟨_, rest, ?_, .sized hwords hall hl hts hr, ?_, ?_⟩
      · have hdrop : c.rest.dropWhile isTypeWord = l :: ts ++ r :: rest := hrest
        rw [hdrop] at hsplit
        exact hsplit.symm.trans (by simp)
      · cases h
        exact Cursor.sourceSince_jump ..
      · cases h
        rfl
    · cases h
      exact ⟨_, _, hsplit.symm, .words hwords hall, Cursor.sourceSince_jump .., rfl⟩
  · cases h
    exact absurd (by simp [Cursor.sourceSince, Token.source]) hne

/-- Words in front of something else are all the words there are. -/
theorem span_words {words rest : List Token} {c : Cursor} (hc : c.rest = words ++ rest) (hne : words ≠ [])
    (hwords : ∀ t ∈ words, isTypeWord t = true) (hend : isTypeWord (c.jump words rest).current = false) :
    isTypeWord c.current = true ∧ c.rest.takeWhile isTypeWord = words ∧ c.rest.dropWhile isTypeWord = rest := by
  have hrest : rest.takeWhile isTypeWord = [] ∧ rest.dropWhile isTypeWord = rest := by
    cases rest with
    | nil => exact ⟨rfl, rfl⟩
    | cons r rest =>
      have hr : isTypeWord r = false := hend
      simp [hr]
  refine ⟨?_, ?_, ?_⟩
  · obtain ⟨t, ts, rfl⟩ := List.exists_cons_of_ne_nil hne
    rw [(Cursor.advance_of_rest hc).1]
    exact hwords t List.mem_cons_self
  · rw [hc, List.takeWhile_append_of_pos hwords, hrest.1, List.append_nil]
  · rw [hc, List.dropWhile_append_of_pos hwords, hrest.2]

theorem IsType.ok {ts rest : List Token} (h : IsType ts) {c : Cursor} (hc : c.rest = ts ++ rest)
    (hword : isTypeWord (c.jump ts rest).current = false) (hparen : (c.jump ts rest).current.kind ≠ .leftParen) :
    typeName c = .ok (String.ofList (Token.source ts)) (c.jump ts rest) := by
  rw [typeName_eq]
  cases h with
  | words hne hwords =>
    obtain ⟨hcur, htake, hdrop⟩ := span_words hc hne hwords hword
    rw [if_pos hcur]
    simp only [htake, hdrop]
    rw [if_neg (by simpa using hparen), Cursor.sourceSince_jump]
  | @sized words inside l r hne hwords hl hinside hr =>
    have hc' : c.rest = words ++ (l :: inside ++ r :: rest) := by simpa using hc
    have hend : isTypeWord (c.jump words (l :: inside ++ r :: rest)).current = false := by
      simp [Cursor.current, Cursor.jump, isTypeWord, hl]
    obtain ⟨hcur, htake, hdrop⟩ := span_words hc' hne hwords hend
    rw [if_pos hcur]
    simp only [htake, hdrop]
    rw [if_pos (by simp [Cursor.jump, Cursor.current, hl])]
    simp only [bind_eq_ok, parenthesized_eq_ok]
    refine ⟨(), _, ⟨l, inside, r, rest, rfl, hl, hinside, hr, rfl⟩, ?_⟩
    rw [Cursor.jump_jump, ← Cursor.sourceSince_jump c _ rest]
    rfl

/-! ## The same tokens elsewhere -/

theorem isTypeWord_congr {t u : Token} (h : t.kind = u.kind) : isTypeWord t = isTypeWord u := by
  rw [isTypeWord, isTypeWord, h]

theorem forall_isTypeWord_congr {ts us : List Token} (h : ts.map Token.bare = us.map Token.bare)
    (hts : ∀ t ∈ ts, isTypeWord t = true) : ∀ u ∈ us, isTypeWord u = true := by
  intro u hu
  have hmem : u.bare ∈ ts.map Token.bare := h ▸ List.mem_map_of_mem hu
  obtain ⟨t, ht, htu⟩ := List.mem_map.mp hmem
  rw [← isTypeWord_congr (congrArg Prod.fst htu)]
  exact hts t ht

theorem ne_nil_of_map_bare {ts us : List Token} (h : ts.map Token.bare = us.map Token.bare) (hne : ts ≠ []) : us ≠ [] := by
  rintro rfl
  exact hne (List.map_eq_nil_iff.mp h)

theorem IsType.congr {ts us : List Token} (h : ts.map Token.bare = us.map Token.bare) (hts : IsType ts) : IsType us := by
  cases hts with
  | words hne hwords => exact .words (ne_nil_of_map_bare h hne) (forall_isTypeWord_congr h hwords)
  | sized hne hwords hl hinside hr =>
    rw [List.map_append, List.map_cons, List.map_append] at h
    obtain ⟨words', size', rfl, hw, hs⟩ := List.map_eq_append_iff.mp h.symm
    obtain ⟨l', size', rfl, hl', hs⟩ := List.map_eq_cons_iff.mp hs
    obtain ⟨inside', last', rfl, hi, hlast⟩ := List.map_eq_append_iff.mp hs
    obtain ⟨r', rfl, hr'⟩ := List.map_eq_singleton_iff.mp hlast
    have hlk := congrArg Prod.fst hl'
    have hrk := congrArg Prod.fst hr'
    refine .sized (ne_nil_of_map_bare hw.symm hne) (forall_isTypeWord_congr hw.symm hwords) (hlk.trans hl) ?_ (hrk.trans hr)
    rw [Enclosed, ← depthThrough_congr hi.symm]
    exact hinside

theorem IsDefault.congr {ts us : List Token} {s : String} (h : ts.map Token.bare = us.map Token.bare)
    (hts : IsDefault ts s) : IsDefault us s := by
  cases hts with
  | @group ts l r hl hts hr =>
    rw [List.map_cons, List.map_append] at h
    obtain ⟨l', rest', rfl, hl', hs⟩ := List.map_eq_cons_iff.mp h.symm
    obtain ⟨inside', last', rfl, hi, hlast⟩ := List.map_eq_append_iff.mp hs
    obtain ⟨r', rfl, hr'⟩ := List.map_eq_singleton_iff.mp hlast
    have hlk := congrArg Prod.fst hl'
    have hrk := congrArg Prod.fst hr'
    rw [compact_congr hi.symm]
    refine .group ((congrArg defaultStart hlk).trans hl) ?_ (hrk.trans hr)
    rw [Enclosed, ← depthThrough_congr hi.symm]
    exact hts
  | @sign a n ha hn =>
    obtain ⟨a', rest', rfl, ha', hs⟩ := List.map_eq_cons_iff.mp h.symm
    obtain ⟨n', rfl, hn'⟩ := List.map_eq_singleton_iff.mp hs
    have hak := congrArg Prod.fst ha'
    have hnk := congrArg Prod.fst hn'
    have hat := congrArg Prod.snd ha'
    have hnt := congrArg Prod.snd hn'
    rw [show a.text = a'.text from hat.symm, show n.text = n'.text from hnt.symm]
    exact .sign ((congrArg defaultStart hak).trans ha) (hnk.trans hn)
  | @single a ha =>
    obtain ⟨a', rfl, ha'⟩ := List.map_eq_singleton_iff.mp h.symm
    have hak := congrArg Prod.fst ha'
    have hat := congrArg Prod.snd ha'
    rw [show a.text = a'.text from hat.symm]
    exact .single ((congrArg defaultStart hak).trans ha)

/-! ## Texts that are read back -/

end Reader

/-- What the cursor has in front of it. -/
def Cursor.remaining (c : Cursor) : List Char := c.rest.flatMap fun t => t.gap ++ t.text

namespace Reader

/-- Whether the reader, in front of `text` and `rest`, gives `text` unchanged and stops before `rest`. -/
def readsBack (r : Reader String) (text rest : String) : Bool :=
  match r (Cursor.start (text ++ rest)) with
  | .ok s c => s == text && c.remaining == rest.toList
  | .error .. => false

theorem ok_of_readsBack {r : Reader String} {text rest : String} (h : readsBack r text rest = true) :
    ∃ c, r (Cursor.start (text ++ rest)) = .ok text c ∧ c.remaining = rest.toList := by
  unfold readsBack at h
  split at h
  · next s c hr =>
    simp only [Bool.and_eq_true, beq_iff_eq] at h
    obtain ⟨rfl, hc⟩ := h
    exact ⟨c, hr, hc⟩
  · cases h

/-! ## Reading them in a definition -/

/-- What may stand behind a part of a printed column. -/
def endsPart : TokenKind → Bool
  | .comma | .rightParen => true
  | .keyword .primary | .keyword .not | .keyword .unique | .keyword .default | .keyword .check => true
  | _ => false

theorem isTypeWord_of_endsPart {t : Token} (h : endsPart t.kind = true) : isTypeWord t = false := by
  unfold endsPart at h
  split at h <;> simp_all [isTypeWord, startsConstraint]

theorem IsType.proper {ts : List Token} (h : IsType ts) : ∀ t ∈ ts, t.kind.isEnd = false := by
  have hword : ∀ t, isTypeWord t = true → t.kind.isEnd = false := by
    intro t ht
    unfold isTypeWord at ht
    split at ht <;> simp_all [TokenKind.isEnd]
  cases h with
  | words hne hwords => exact fun t ht => hword t (hwords t ht)
  | sized hne hwords hl hinside hr =>
    intro t ht
    simp only [List.mem_append, List.mem_cons, List.not_mem_nil, or_false] at ht
    rcases ht with ht | rfl | ht | rfl
    · exact hword t (hwords t ht)
    · rw [hl]; rfl
    · exact proper_of_depthThrough hinside t ht
    · rw [hr]; rfl

theorem reads_typeName {s : String} {rest : List Char} {k : TokenKind} (h : s = "" ∨ readsBack typeName s "" = true)
    (hrest : Delimited rest) (hk : Starts rest k) (hend : endsPart k = true) : Reads typeName s.toList s rest := by
  have hstop : ∀ c : Cursor, c.Before rest → isTypeWord c.current = false := fun c hc =>
    isTypeWord_of_endsPart (by rw [hk c hc, hend])
  intro c hc
  by_cases hs : s = ""
  · subst hs
    refine ⟨c, ?_, hc, rfl⟩
    rw [typeName_eq, if_neg (by simp [hstop c hc])]
    simp [Cursor.sourceSince, Token.source]
  · obtain ⟨c₀, hok, hrem⟩ := ok_of_readsBack (h.resolve_left hs)
    obtain ⟨ts, rest₀, hts, htype, hsource, rfl⟩ := isType_of_ok hok hs
    have htokenize : tokensFrom 0 s.toList = ts ++ rest₀ := by simpa [Cursor.start, tokenize] using hts
    have htokens : TokensOf s.toList ts := tokensOf_of_rest htokenize htype.proper hrem
    obtain ⟨taken, tail, htaken, hbare, hsame, hbefore⟩ := htokens.before hrest hc
    refine ⟨c.jump taken tail, ?_, hbefore, rfl⟩
    have hparen : (c.jump taken tail).current.kind ≠ .leftParen := by
      rw [hk _ hbefore]
      rintro rfl
      cases hend
    rw [(htype.congr hbare.symm).ok htaken (hstop _ hbefore) hparen, hsame, ← hsource]

theorem IsDefault.proper {ts : List Token} {s : String} (h : IsDefault ts s) : ∀ t ∈ ts, t.kind.isEnd = false := by
  have hstart : ∀ t : Token, defaultStart t.kind ≠ .none → t.kind.isEnd = false := by
    intro t ht
    unfold TokenKind.isEnd
    split <;> simp_all [defaultStart]
  intro t ht
  cases h with
  | group hl hinside hr =>
    simp only [List.mem_append, List.mem_cons, List.not_mem_nil, or_false] at ht
    rcases ht with rfl | ht | rfl
    · exact hstart t (by rw [hl]; decide)
    · exact proper_of_depthThrough hinside t ht
    · rw [hr]; rfl
  | sign ha hn =>
    simp only [List.mem_cons, List.not_mem_nil, or_false] at ht
    rcases ht with rfl | rfl
    · exact hstart t (by rw [ha]; decide)
    · rw [hn]; rfl
  | single ha =>
    obtain rfl := List.mem_singleton.mp ht
    exact hstart t (by rw [ha]; decide)

theorem reads_defaultValue {s : String} {rest : List Char} (h : readsBack defaultValue s "" = true)
    (hrest : Delimited rest) : Reads defaultValue s.toList s rest := by
  intro c hc
  obtain ⟨c₀, hok, hrem⟩ := ok_of_readsBack h
  obtain ⟨ts, rest₀, hts, hdefault, rfl⟩ := isDefault_of_ok hok
  have htokenize : tokensFrom 0 s.toList = ts ++ rest₀ := by simpa [Cursor.start, tokenize] using hts
  have htokens : TokensOf s.toList ts := tokensOf_of_rest htokenize hdefault.proper hrem
  obtain ⟨taken, tail, htaken, hbare, -, hbefore⟩ := htokens.before hrest hc
  exact ⟨c.jump taken tail, (hdefault.congr hbare.symm).ok htaken, hbefore, rfl⟩

theorem text_ne_nil_of_mem {cs : List Char} {pos : Nat} {t : Token} (ht : t ∈ tokensFrom pos cs) (hk : t.kind ≠ .eof) :
    t.text ≠ [] := by
  obtain ⟨ts, e, hts, he, -, hne⟩ := tokensFrom_eq_append_end cs pos
  rw [hts] at ht
  rcases List.mem_append.mp ht with ht | ht
  · exact (hne t ht).2
  · obtain rfl := List.mem_singleton.mp ht
    exact absurd he hk

/-- The tokens of a check, and the parenthesis behind them. -/
theorem enclosed_of_readsBack {s : String} (h : readsBack compactExpression s ")" = true) :
    ∃ ts r rest, (Cursor.start (s ++ ")")).rest = ts ++ [r] ++ rest ∧ Enclosed ts ∧ r.kind = .rightParen ∧
      s = String.ofList (compact ts) ∧ TokensOf (s.toList ++ [')']) (ts ++ [r]) := by
  obtain ⟨c, hok, hrem⟩ := ok_of_readsBack h
  obtain ⟨ts, r, rest, hrest, hts, hr, hs, rfl⟩ := compactExpression_eq_ok.mp hok
  have htokenize : tokensFrom 0 (s.toList ++ [')']) = ts ++ r :: rest := by
    simpa [Cursor.start, tokenize] using hrest
  have htext : r.text ≠ [] := text_ne_nil_of_mem (by rw [htokenize]; simp) (by rw [hr]; decide)
  have hflat : r.gap ++ (r.text ++ rest.flatMap fun t => t.gap ++ t.text) = [')'] := by
    simpa [Cursor.remaining, Cursor.jump] using hrem
  have hnil : rest.flatMap (fun t => t.gap ++ t.text) = [] := by
    have hlen := congrArg List.length hflat
    have hpos := List.length_pos_iff.mpr htext
    simp only [List.length_append, List.length_cons, List.length_nil] at hlen
    exact List.length_eq_zero_iff.mp (by omega)
  refine ⟨ts, r, rest, by simpa using hrest, hts, hr, hs, tokensOf_of_rest (by simpa using htokenize) ?_ hnil⟩
  intro t ht
  rcases List.mem_append.mp ht with ht | ht
  · exact proper_of_depthThrough hts t ht
  · obtain rfl := List.mem_singleton.mp ht
    rw [hr]
    rfl

/-- Whether a check begins with the name of its column and one more check. -/
def wrapsCheck (column : String) (c : Cursor) : Bool :=
  nameOf? c.current == some column && c.following.keyword? == some .check

theorem nameOf?_congr {t u : Token} (h : t.bare = u.bare) : nameOf? t = nameOf? u := by
  have hk : t.kind = u.kind := congrArg Prod.fst h
  have ht : t.text = u.text := congrArg Prod.snd h
  rw [nameOf?, nameOf?, hk, ht]

theorem wrapsCheck_congr {c c' : Cursor} {ts us rest rest' : List Token} (hc : c.rest = ts ++ rest)
    (hc' : c'.rest = us ++ rest') (h : ts.map Token.bare = us.map Token.bare) (hlen : 2 ≤ ts.length) (column : String) :
    wrapsCheck column c = wrapsCheck column c' := by
  match ts, hlen with
  | t₁ :: t₂ :: ts, _ =>
    obtain ⟨u₁, us, rfl, h₁, h⟩ := List.map_eq_cons_iff.mp h.symm
    obtain ⟨u₂, us, rfl, h₂, -⟩ := List.map_eq_cons_iff.mp h
    have hfirst : nameOf? c.current = nameOf? c'.current := by
      rw [(Cursor.advance_of_rest hc).1, (Cursor.advance_of_rest hc').1]
      exact nameOf?_congr h₁.symm
    have hsecond : c.following.keyword? = c'.following.keyword? := by
      have hk : t₂.kind = u₂.kind := (congrArg Prod.fst h₂).symm
      simp [Cursor.following, hc, hc', Token.keyword?, hk]
    rw [wrapsCheck, wrapsCheck, hfirst, hsecond]

theorem reads_checkExpression {s column : String} {rest : List Char} (h : readsBack compactExpression s ")" = true)
    (hs : s ≠ "") (hown : wrapsCheck column (Cursor.start (s ++ ")")) = false) (hrest : Delimited rest) :
    Reads (checkExpression column) ('(' :: (s.toList ++ [')'])) s rest := by
  obtain ⟨ts, r, rest₀, hstart, hts, hr, hvalue, htokens⟩ := enclosed_of_readsBack h
  show Reads _ (['('] ++ (s.toList ++ [')'])) s rest
  refine (reads_expectKind (isToken_leftParen _)).bind ?_
  intro c hc
  obtain ⟨taken, tail, htaken, hbare, -, hbefore⟩ := htokens.before hrest hc
  rw [List.map_append] at hbare
  obtain ⟨us, last, rfl, hus, hlast⟩ := List.map_eq_append_iff.mp hbare
  obtain ⟨r', rfl, hr'⟩ := List.map_eq_singleton_iff.mp hlast
  have hne : ts ≠ [] := by
    rintro rfl
    exact hs hvalue
  have hlen : 2 ≤ (us ++ [r']).length := by
    have hpos := List.length_pos_iff.mpr hne
    have hsame := congrArg List.length hus
    simp only [List.length_map] at hsame
    simp only [List.length_append, List.length_singleton]
    omega
  have hwraps : wrapsCheck column c = false := by
    rw [wrapsCheck_congr htaken hstart (by rw [hbare, List.map_append]) hlen column]
    exact hown
  refine ⟨c.jump (us ++ [r']) tail, ?_, hbefore, rfl⟩
  rw [bind_eq_of_ok (show current c = .ok c.current c from rfl),
    bind_eq_of_ok (show following c = .ok c.following c from rfl)]
  have hcond : (nameOf? c.current == some column && c.following.keyword? == some .check) = false := hwraps
  rw [if_neg (by simp [hcond]), closedExpression_eq_ok]
  refine ⟨us, r', tail, by simpa using htaken, ?_, (congrArg Prod.fst hr').trans hr, ?_, rfl⟩
  · rw [Enclosed, depthThrough_congr hus]
    exact hts
  · rw [hvalue, compact_congr hus]

end Reader

end SchemaEditor
