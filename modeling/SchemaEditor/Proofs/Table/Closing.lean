import SchemaEditor.Proofs.Table.Clauses
import SchemaEditor.Proofs.Table.Nesting

/-!
# Where an expression ends

A compact expression may be cut into other tokens than it was made of: `a`, a point and `5` come back as `a` and `.5`.
The reader still stops at the parenthesis that was put behind it. What it gives may differ from the text; if it does
not, the text is read back in any surroundings.
-/

namespace SchemaEditor

/-! ## Text without gaps -/

theorem bare_eq {t u : Token} (h : t.bare = u.bare) : t.kind = u.kind ∧ t.text = u.text := Prod.mk.inj h

/-- The first token has no gap if its text stands at the front. -/
theorem gap_eq_nil {cs left : List Char} {pos : Nat} {t : Token} {post : List Token} (h : tokensFrom pos cs = t :: post)
    (hk : t.kind.isEnd = false) (hgap : ∀ c ∈ t.gap, Text.isBlank c = true) (hcs : cs = t.text ++ left) :
    t.gap = [] ∧ ∃ pos', tokensFrom pos' left = post := by
  obtain ⟨gap, c, rest, hsplit, rfl, hpost⟩ := tokensFrom_eq_cons h hk
  have hwhole := gap_lexeme_append hsplit
  have hhead := head?_lexeme_text c rest
  have hstart : splitGap .blank (c :: rest) = ([], c :: rest) := by
    have hrest := splitGap_rest .blank cs
    rwa [hsplit] at hrest
  have hnone : gap = [] := by
    cases gap with
    | nil => rfl
    | cons b gap =>
      obtain ⟨w, hw⟩ := List.head?_eq_some_iff.mp hhead
      rw [hcs] at hwhole
      simp only [hw, List.cons_append] at hwhole
      obtain ⟨rfl, -⟩ := List.cons.inj hwhole
      have hblank := splitGap_blank_append (List.forall_mem_singleton.mpr (hgap b List.mem_cons_self)) rest
      rw [List.singleton_append, hstart] at hblank
      cases (Prod.mk.inj hblank).1
  subst hnone
  refine ⟨rfl, pos + byteLength [] + byteLength (lexeme c rest).text, ?_⟩
  rw [hcs, List.nil_append] at hwhole
  rw [← List.append_cancel_left hwhole]
  exact hpost

/-! ### Blanks in front -/

theorem of_indent_eq {g : List Char} {ts vs post : List Token} (h : indent g ts = vs ++ post) (hne : vs ≠ []) :
    ∃ ws, ts = ws ++ post ∧ vs = indent g ws ∧ ws ≠ [] := by
  obtain ⟨v, vs, rfl⟩ := List.exists_cons_of_ne_nil hne
  cases ts with
  | nil => cases h
  | cons t ts =>
    obtain ⟨rfl, rfl⟩ := List.cons.inj h
    exact ⟨t :: vs, rfl, rfl, List.cons_ne_nil t vs⟩

theorem flatMap_indent (g : List Char) {ws : List Token} (h : ws ≠ []) :
    (indent g ws).flatMap (fun t => t.gap ++ t.text) = g ++ ws.flatMap fun t => t.gap ++ t.text := by
  obtain ⟨w, ws, rfl⟩ := List.exists_cons_of_ne_nil h
  simp [indent]

theorem forall_kind_indent {g : List Char} {ws : List Token} (h : ∀ t ∈ indent g ws, t.kind.isEnd = false) :
    ∀ t ∈ ws, t.kind.isEnd = false := by
  cases ws with
  | nil => simp
  | cons w ws => simpa [indent] using h

theorem forall_gap_indent {g : List Char} {ws : List Token} (h : ∀ t ∈ indent g ws, ∀ c ∈ t.gap, Text.isBlank c = true) :
    ∀ t ∈ ws, ∀ c ∈ t.gap, Text.isBlank c = true := by
  cases ws with
  | nil => simp
  | cons w ws =>
    obtain ⟨hw, hws⟩ := List.forall_mem_cons.mp h
    exact List.forall_mem_cons.mpr ⟨fun c hc => hw c (List.mem_append_right g hc), hws⟩

/-- Tokens whose compact form is the text they are taken from have no gaps but those of the compact form. -/
theorem flatMap_eq_compact {us vs post : List Token} {rest : List Char} {pos : Nat}
    (h : tokensFrom pos (Reader.compact us ++ rest) = vs ++ post) (hbare : vs.map Token.bare = us.map Token.bare)
    (hproper : ∀ t ∈ vs, t.kind.isEnd = false) (hgaps : ∀ t ∈ vs, ∀ c ∈ t.gap, Text.isBlank c = true) :
    vs.flatMap (fun t => t.gap ++ t.text) = Reader.compact us := by
  fun_induction Reader.compact us generalizing vs pos with
  | case1 =>
    obtain rfl : vs = [] := by simpa using hbare
    rfl
  | case2 u =>
    obtain ⟨v, rfl, hv⟩ := List.map_eq_singleton_iff.mp hbare
    obtain ⟨hnil, -⟩ := gap_eq_nil h (hproper v List.mem_cons_self) (hgaps v List.mem_cons_self)
      (by rw [(bare_eq hv).2])
    simp [hnil, (bare_eq hv).2]
  | case3 a b us ih =>
    obtain ⟨v, vs, rfl, hv, hvs⟩ := List.map_eq_cons_iff.mp hbare
    rw [List.append_assoc, List.append_assoc] at h
    obtain ⟨hnil, pos', hrest⟩ := gap_eq_nil h (hproper v List.mem_cons_self) (hgaps v List.mem_cons_self)
      (by rw [(bare_eq hv).2])
    have hproper' : ∀ t ∈ vs, t.kind.isEnd = false := fun t ht => hproper t (List.mem_cons_of_mem v ht)
    have hgaps' : ∀ t ∈ vs, ∀ c ∈ t.gap, Text.isBlank c = true := fun t ht => hgaps t (List.mem_cons_of_mem v ht)
    rw [List.flatMap_cons, hnil, List.nil_append, (bare_eq hv).2, List.append_assoc]
    congr 1
    by_cases hblank : Reader.needsBlank a b = true
    · rw [if_pos hblank] at hrest ⊢
      rw [tokensFrom_blank_append isBlank_space] at hrest
      have hne : vs ≠ [] := Reader.ne_nil_of_map_bare hvs.symm (List.cons_ne_nil b us)
      obtain ⟨ws, hws, rfl, hwsne⟩ := of_indent_eq hrest hne
      rw [map_bare_indent] at hvs
      rw [flatMap_indent [' '] hwsne, ih hws hvs (forall_kind_indent hproper') (forall_gap_indent hgaps')]
    · rw [if_neg hblank] at hrest ⊢
      exact ih hrest hvs hproper' hgaps'

/-! ## The closing parenthesis -/

section
variable {c : Cursor} {ts us post : List Token} {r : Token} {rest : List Char} (hts : ∀ t ∈ ts, t.IsLexeme)
  (henclosed : Enclosed ts) (hc : c.Before (Reader.compact ts ++ ')' :: rest)) (h : c.rest = us ++ r :: post)
  (hus : Enclosed us) (hr : r.kind = .rightParen)
include hts henclosed hc h hus hr

/-- The tokens up to the parenthesis that closes them spell the expression, and the text goes on behind it. -/
theorem closes_at_end : ∃ pos g, (∀ x ∈ g, Text.isBlank x = true) ∧
    c.rest = tokensFrom pos (g ++ (Reader.compact ts ++ ')' :: rest)) ∧
    g ++ Reader.compact ts = us.flatMap (fun t => t.gap ++ t.text) ++ r.gap ∧ r.text = [')'] ∧
    (∀ t ∈ us ++ [r], ∀ x ∈ t.gap, Text.isBlank x = true) ∧ (c.jump (us ++ [r]) post).Before rest := by
  obtain ⟨pos, g, hg, hrest⟩ := hc
  have hclose := Nesting.closing?_compact hts henclosed hg rest
  rw [h] at hrest
  obtain ⟨hbefore, htext, hgaps, pos', hpost⟩ := Nesting.tokens_of_closing? hrest.symm hus hr hclose
  exact ⟨pos, g, hg, h.trans hrest, hbefore, htext, hgaps, pos', [], by simp, hpost⟩

/-- In front of the parenthesis alone the expression has the same tokens. -/
theorem tokens_alone : ∃ us' r' e, tokensFrom 0 (Reader.compact ts ++ [')']) = us' ++ [r', e] ∧
    us'.map Token.bare = us.map Token.bare ∧ r'.bare = r.bare ∧ ∀ t ∈ us', ∀ x ∈ t.gap, Text.isBlank x = true := by
  obtain ⟨pos, g, hg, hrest, hspelled, htext, hgaps, -⟩ := closes_at_end hts henclosed hc h hus hr
  have hproper : ∀ t ∈ us ++ [r], t.kind.isEnd = false := by
    intro t ht
    rcases List.mem_append.mp ht with ht | ht
    · exact proper_of_depthThrough hus t ht
    · obtain rfl := List.mem_singleton.mp ht
      rw [hr]
      rfl
  have hflat : (us ++ [r]).flatMap (fun t => t.gap ++ t.text) = g ++ (Reader.compact ts ++ [')']) := by
    rw [List.flatMap_append, List.flatMap_singleton, htext, ← List.append_assoc, ← hspelled, List.append_assoc]
  have hwhole : tokensFrom pos ((g ++ (Reader.compact ts ++ [')'])) ++ rest) = (us ++ [r]) ++ post := by
    have hsame : (g ++ (Reader.compact ts ++ [')'])) ++ rest = g ++ (Reader.compact ts ++ ')' :: rest) := by simp
    rw [hsame, ← hrest, h]
    simp
  obtain ⟨e, hcut, -⟩ := tokensFrom_cut hwhole hflat hproper
  rw [tokensFrom_blank_append hg] at hcut
  obtain ⟨ws, hws, hindent, -⟩ := of_indent_eq hcut (by simp)
  rw [hindent] at hgaps
  have hforms := map_form_tokensFrom (Reader.compact ts ++ [')']) 0 (pos + byteLength g)
  rw [hws, List.map_append] at hforms
  obtain ⟨vs, es, hvs, hvforms, hes⟩ := List.map_eq_append_iff.mp hforms
  obtain ⟨e', rfl, -⟩ := List.map_eq_singleton_iff.mp hes
  have hbare := map_bare_of_map_form hvforms
  rw [← map_bare_indent g ws, ← hindent, List.map_append] at hbare
  obtain ⟨us', rs, rfl, husbare, hrs⟩ := List.map_eq_append_iff.mp hbare
  obtain ⟨r', rfl, hrbare⟩ := List.map_eq_singleton_iff.mp hrs
  refine ⟨us', r', e', by rw [hvs]; simp, husbare, hrbare, ?_⟩
  intro t ht
  have hmem : t.form ∈ ws.map Token.form := hvforms ▸ List.mem_map_of_mem (List.mem_append_left _ ht)
  obtain ⟨w, hw, hform⟩ := List.mem_map.mp hmem
  have hgap : w.gap = t.gap := congrArg (fun f => f.2.1) hform
  rw [← hgap]
  exact forall_gap_indent hgaps w hw

theorem readsBack_of_compact_eq (hvalue : Reader.compact us = Reader.compact ts) :
    Reader.readsBack Reader.compactExpression (String.ofList (Reader.compact ts)) ")" = true := by
  obtain ⟨us', r', e, htokens, hbare, hrbare, hgaps⟩ := tokens_alone hts henclosed hc h hus hr
  have hvalue' : Reader.compact us' = Reader.compact ts := by rw [Reader.compact_congr hbare, hvalue]
  have henclosed' : Enclosed us' := by
    rw [Enclosed, depthThrough_congr hbare]
    exact hus
  let c₀ := Cursor.start (String.ofList (Reader.compact ts) ++ ")")
  have hstart : c₀.rest = us' ++ r' :: [e] := by
    show tokenize _ = _
    rw [tokenize, String.toList_append, String.toList_ofList]
    exact htokens
  have hr' : r'.kind = .rightParen := (bare_eq hrbare).1.trans hr
  have hok : Reader.compactExpression c₀ = .ok (String.ofList (Reader.compact us')) (c₀.jump us' [r', e]) :=
    Reader.compactExpression_eq_ok.mpr ⟨us', r', [e], hstart, henclosed', hr', rfl, rfl⟩
  have hflat : us'.flatMap (fun t => t.gap ++ t.text) = Reader.compact us' := by
    rw [← hvalue'] at htokens
    exact flatMap_eq_compact htokens rfl (proper_of_depthThrough henclosed') hgaps
  have hremaining : (c₀.jump us' [r', e]).remaining = [')'] := by
    have hall := flatMap_tokensFrom (Reader.compact ts ++ [')']) 0
    rw [htokens, List.flatMap_append, hflat, hvalue'] at hall
    exact List.append_cancel_left hall
  unfold Reader.readsBack
  rw [hok]
  simp only [hremaining, hvalue', beq_self_eq_true, Bool.true_and]
  rfl

end

/-! ## Checks -/

theorem depthThrough_append (d : Nat) (ts us : List Token) :
    depthThrough d (ts ++ us) = (depthThrough d ts).bind fun e => depthThrough e us := by
  induction ts generalizing d with
  | nil => rfl
  | cons t ts ih =>
    rw [List.cons_append, depthThrough, depthThrough]
    split
    · rfl
    · exact ih _

/-- Balanced tokens are balanced under more parentheses. -/
theorem depthThrough_succ {ts : List Token} {d e : Nat} (h : depthThrough d ts = some e) :
    depthThrough (d + 1) ts = some (e + 1) := by
  induction ts generalizing d with
  | nil =>
    cases h
    rfl
  | cons t ts ih =>
    obtain ⟨hk, hclose, hrest⟩ := Reader.depthThrough_cons h
    have hdepth : Reader.depthAfter (d + 1) t.kind = Reader.depthAfter d t.kind + 1 := by
      cases hkind : t.kind with
      | rightParen =>
        have hd : d ≠ 0 := fun hd => hclose ⟨hd, hkind⟩
        simp only [Reader.depthAfter]
        omega
      | _ => rfl
    rw [depthThrough, if_neg (by simp [hk]), hdepth]
    exact ih hrest

/-- The blanks of compact text hold no parentheses, and the source of its tokens at least as many. -/
theorem count_compact (ts : List Token) :
    (Reader.compact ts).count '(' = (ts.flatMap Token.text).count '(' := by
  fun_induction Reader.compact ts with
  | case1 => rfl
  | case2 t => simp
  | case3 a b ts ih =>
    have hblank : (if Reader.needsBlank a b = true then [' '] else []).count '(' = 0 := by split <;> rfl
    rw [List.count_append, List.count_append, hblank, ih, Nat.add_zero, List.flatMap_cons (x := a), List.count_append]

theorem le_count_flatMap (ts : List Token) :
    (ts.flatMap Token.text).count '(' ≤ (ts.flatMap fun t => t.gap ++ t.text).count '(' := by
  induction ts with
  | nil => exact le_rfl
  | cons t ts ih =>
    simp only [List.flatMap_cons, List.count_append]
    omega

theorem text_of_leftParen {t : Token} (ht : t.IsLexeme) (hk : t.kind = .leftParen) : t.text = ['('] := by
  obtain ⟨c, hsingle, htext⟩ := ht.single (by rw [hk]; rfl)
  rw [htext]
  rw [hk] at hsingle
  unfold singleKind? at hsingle
  split at hsingle <;> simp_all

namespace Reader

open Grammar

theorem enclosed_wrapped {column : String} {n k l r : Token} {ts : List Token} (hn : nameOf? n = some column)
    (hk : k.keyword? = some .check) (hl : l.kind = .leftParen) (hts : Enclosed ts) (hr : r.kind = .rightParen) :
    Enclosed (n :: k :: l :: (ts ++ [r])) := by
  have hname : n.kind.isEnd = false ∧ n.kind ≠ .rightParen ∧ depthAfter 0 n.kind = 0 := by
    unfold nameOf? at hn
    split at hn <;> simp_all [TokenKind.isEnd, depthAfter]
  have hcheck : k.kind = .keyword .check := by
    unfold Token.keyword? TokenKind.keyword? at hk
    split at hk <;> simp_all
  have hinside : depthThrough 1 (ts ++ [r]) = some 0 := by
    rw [depthThrough_append, depthThrough_succ hts, Option.bind_some]
    simp [depthThrough, hr, TokenKind.isEnd, depthAfter]
  rw [Enclosed, depthThrough, if_neg (by simp [hname]), hname.2.2, depthThrough, hcheck, if_neg (by simp [TokenKind.isEnd])]
  rw [depthThrough, hl, if_neg (by simp [TokenKind.isEnd, depthAfter])]
  exact hinside

theorem wrapsCheck_bare {column : String} {ts us : List Token} (h : ts.map Token.bare = us.map Token.bare)
    (hts : WrapsCheck column ts) : WrapsCheck column us := by
  obtain ⟨n, k, ts, rfl, hn, hk⟩ := hts
  obtain ⟨n', us, rfl, hn', h⟩ := List.map_eq_cons_iff.mp h.symm
  obtain ⟨k', us, rfl, hk', -⟩ := List.map_eq_cons_iff.mp h
  refine ⟨n', k', us, rfl, ?_, ?_⟩
  · rw [nameOf?_congr hn']
    exact hn
  · rw [Token.keyword?, (bare_eq hk').1]
    exact hk

/-- An expression that is read back is read back in parentheses, as a default value. -/
theorem readsBack_group {s : String} (h : readsBack compactExpression s ")" = true) :
    readsBack defaultValue ("(" ++ s ++ ")") "" = true := by
  obtain ⟨ts, r, rest, -, hts, hr, hs, htokens⟩ := enclosed_of_readsBack h
  obtain ⟨vs, e, hvs, he, hforms⟩ := htokens.tokensFrom (0 + byteLength ['('])
  have hbare := map_bare_of_map_form hforms
  rw [List.map_append] at hbare
  obtain ⟨us, rs, rfl, hus, hrs⟩ := List.map_eq_append_iff.mp hbare
  obtain ⟨r', rfl, hr'⟩ := List.map_eq_singleton_iff.mp hrs
  let l : Token := ⟨.leftParen, ⟨0, 0 + byteLength ['(']⟩, [], ['(']⟩
  have hstart : (Cursor.start ("(" ++ s ++ ")" ++ "")).rest = (l :: (us ++ [r'])) ++ [e] := by
    show tokenize _ = _
    have htext : ("(" ++ s ++ ")" ++ "").toList = ['('] ++ (s.toList ++ [')']) := by simp
    rw [tokenize, htext, (isToken_leftParen _).tokensFrom, hvs]
    rfl
  have hdefault : IsDefault (l :: (us ++ [r'])) ("(" ++ String.ofList (compact us) ++ ")") :=
    .group rfl (by rw [Enclosed, depthThrough_congr hus]; exact hts) ((bare_eq hr').1.trans hr)
  rw [compact_congr hus, ← hs] at hdefault
  have hlast : e.text = [] := by
    obtain ⟨ts', e', hts', -, htext, -⟩ := tokensFrom_eq_append_end (s.toList ++ [')']) (0 + byteLength ['('])
    rw [hvs] at hts'
    rw [(List.append_singleton_inj.mp hts').2]
    exact htext
  unfold readsBack
  rw [hdefault.ok hstart]
  simp [Cursor.remaining, Cursor.jump, he, hlast]

section
variable {ts : List Token} {c c' : Cursor} {s : String} {rest : List Char} (hts : ∀ t ∈ ts, t.IsLexeme)
  (henclosed : Enclosed ts) (hc : c.Before (['('] ++ (compact ts ++ ')' :: rest)))
include hts henclosed hc

/-- A check that is read from print ends where the print ends; if it is the printed one it is read back anywhere. -/
theorem checkExpression_closes {column : String} (h : checkExpression column c = .ok s c') :
    c'.Before rest ∧ (s = String.ofList (compact ts) → readsBack compactExpression s ")" = true ∧
      wrapsCheck column (Cursor.start (s ++ ")")) = false) := by
  obtain ⟨-, -, hadv⟩ := hc.token (isToken_leftParen _)
  obtain ⟨_, tail, hrest, hcheck, rfl⟩ := (takes_checkExpression column c s c').mp h
  cases hcheck with
  | @plain l r us hl hus hr hown =>
    have hafter : c.advance.rest = us ++ r :: tail := by
      rw [(Cursor.advance_of_rest hrest).2]
      simp [Cursor.jump]
    obtain ⟨-, -, -, -, -, -, -, hbefore⟩ := closes_at_end hts henclosed hadv hafter hus hr
    refine ⟨hbefore, fun hvalue => ?_⟩
    have hcompact : compact us = compact ts := String.ofList_injective hvalue
    rw [hvalue]
    refine ⟨readsBack_of_compact_eq hts henclosed hadv hafter hus hr hcompact, ?_⟩
    obtain ⟨us', r', e, htokens, hbare, hrbare, -⟩ := tokens_alone hts henclosed hadv hafter hus hr
    by_contra hwraps
    have hstart : (Cursor.start (String.ofList (compact ts) ++ ")")).rest = us' ++ r' :: [e] := by
      show tokenize _ = _
      rw [tokenize, String.toList_append, String.toList_ofList]
      exact htokens
    have hwrapped := wrapsCheck_iff.mp (Bool.of_not_eq_false hwraps)
    rw [hstart, wrapsCheck_append ((bare_eq hrbare).1.trans hr)] at hwrapped
    exact hown (wrapsCheck_bare hbare hwrapped)
  | @wrapped l n k l' r' r us hl hn hk hl' hus hr' hr =>
    have hafter : c.advance.rest = (n :: k :: l' :: (us ++ [r'])) ++ r :: tail := by
      rw [(Cursor.advance_of_rest hrest).2]
      simp [Cursor.jump]
    have hinside := enclosed_wrapped hn hk hl' hus hr'
    obtain ⟨pos, g, hg, hrow, hspelled, -, -, hbefore⟩ := closes_at_end hts henclosed hadv hafter hinside hr
    refine ⟨hbefore, fun hvalue => ?_⟩
    -- The inner check has fewer parentheses than the whole one.
    have hinner : compact us = compact ts := String.ofList_injective hvalue
    have hlexemes := isLexeme_of_inRow ⟨pos, _, r :: tail, hrow.symm.trans hafter⟩ (proper_of_depthThrough hinside)
    have hparen : l'.text = ['('] := text_of_leftParen (hlexemes l' (by simp)) hl'
    have hblank : g.count '(' = 0 := List.count_eq_zero.mpr fun hmem => absurd (hg '(' hmem) (by decide)
    have hcount := congrArg (List.count '(') hspelled
    rw [List.count_append, List.count_append, hblank, ← hinner, count_compact] at hcount
    have hle := le_count_flatMap (n :: k :: l' :: (us ++ [r']))
    have hlt : (us.flatMap Token.text).count '(' < ((n :: k :: l' :: (us ++ [r'])).flatMap Token.text).count '(' := by
      simp only [List.flatMap_cons, List.flatMap_append, List.count_append, hparen, List.count_singleton_self]
      omega
    omega

/-- The same for a default value in parentheses. -/
theorem defaultValue_closes (h : defaultValue c = .ok s c') :
    c'.Before rest ∧ (s = "(" ++ String.ofList (compact ts) ++ ")" → readsBack defaultValue s "" = true) := by
  obtain ⟨hkind, -, hadv⟩ := hc.token (isToken_leftParen _)
  obtain ⟨_, tail, hrest, hdefault, rfl⟩ := (takes_defaultValue c s c').mp h
  cases hdefault with
  | @group us l r hl hus hr =>
    have hafter : c.advance.rest = us ++ r :: tail := by
      rw [(Cursor.advance_of_rest hrest).2]
      simp [Cursor.jump]
    obtain ⟨-, -, -, -, -, -, -, hbefore⟩ := closes_at_end hts henclosed hadv hafter hus hr
    refine ⟨hbefore, fun hvalue => ?_⟩
    have hcompact : compact us = compact ts := by
      have hlist := congrArg String.toList hvalue
      simp only [String.toList_append, String.toList_ofList] at hlist
      exact List.append_cancel_left (List.append_cancel_right hlist)
    rw [hvalue]
    exact readsBack_group (readsBack_of_compact_eq hts henclosed hadv hafter hus hr hcompact)
  | @sign a n ha hn =>
    rw [(Cursor.advance_of_rest hrest).1] at hkind
    rw [hkind] at ha
    cases ha
  | @single a ha =>
    rw [(Cursor.advance_of_rest hrest).1] at hkind
    rw [hkind] at ha
    cases ha

end

end Reader

end SchemaEditor
