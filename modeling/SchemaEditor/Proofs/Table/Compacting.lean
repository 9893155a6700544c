import SchemaEditor.Proofs.Sql.Neighbours
import SchemaEditor.Proofs.Table.Closing

/-!
# The tokens of compact expressions

An expression is kept with no more blanks than the reader thinks necessary: between two words, and where a comment would
begin. Where no token runs on into the next one these are enough. Then the compact text has the tokens of the expression, and
is read as itself.
-/

namespace SchemaEditor

namespace Reader

/-- Tokens that do not run on into each other are the tokens of their compact form. -/
theorem tokensFrom_compact {ts : List Token} (halone : ∀ t ∈ ts, IsToken t.text t.kind [])
    (hproper : ∀ t ∈ ts, t.kind.isEnd = false) (hapart : ts.IsChain fun a b => a.fuses b = false) (pos : Nat) :
    ∃ us e, tokensFrom pos (compact ts) = us ++ [e] ∧ us.map Token.bare = ts.map Token.bare ∧ e.kind = .eof ∧ e.gap = [] := by
  fun_induction compact ts generalizing pos with
  | case1 => exact ⟨[], _, tokensFrom_end rfl pos, rfl, rfl, rfl⟩
  | case2 t =>
    have htoken := (halone t List.mem_cons_self).tokensFrom pos
    rw [List.append_nil, tokensFrom_end (show splitGap .blank [] = ([], []) from rfl)] at htoken
    exact ⟨[_], _, htoken, rfl, rfl, rfl⟩
  | case3 a b ts ih =>
    obtain ⟨hfuse, hrest⟩ := List.isChain_cons_cons.mp hapart
    have ha := halone a List.mem_cons_self
    have hka := hproper a List.mem_cons_self
    have hb := halone b (by simp)
    have hkb := hproper b (by simp)
    have ih := ih (fun t ht => halone t (List.mem_cons_of_mem a ht)) (fun t ht => hproper t (List.mem_cons_of_mem a ht)) hrest
    -- A blank ends every token. Without one the text that follows begins with the next token, which is all a scanner looks at.
    cases hblank : needsBlank a b with
    | true =>
      have htoken := (ha.before_blank hka (d := ' ') (by decide) (compact (b :: ts))).tokensFrom pos
      obtain ⟨us, e, hus, hbare, he, hgap⟩ := ih (pos + byteLength a.text + byteLength [' '])
      obtain ⟨u, us, rfl⟩ := List.exists_cons_of_ne_nil (ne_nil_of_map_bare hbare.symm (List.cons_ne_nil b ts))
      rw [← List.singleton_append, tokensFrom_blank_append isBlank_space, hus] at htoken
      exact ⟨⟨a.kind, ⟨pos, _⟩, [], a.text⟩ :: { u with gap := [' '] ++ u.gap } :: us, e, by simpa [indent] using htoken,
        congrArg (a.bare :: ·) hbare, he, hgap⟩
    | false =>
      simp only [needsBlank, Bool.or_eq_false_iff] at hblank
      obtain ⟨⟨hwords, hline⟩, hblock⟩ := hblank
      have hhead := Nesting.head?_compact b ts (by obtain ⟨c, cs, hc, -⟩ := hb.lexeme; rw [hc]; exact List.cons_ne_nil c cs)
      have htoken := (ha.before hka hb hkb hwords hline hblock hfuse hhead).tokensFrom pos
      obtain ⟨us, e, hus, hbare, he, hgap⟩ := ih (pos + byteLength a.text)
      rw [hus] at htoken
      exact ⟨⟨a.kind, ⟨pos, _⟩, [], a.text⟩ :: us, e, by simpa using htoken, congrArg (a.bare :: ·) hbare, he, hgap⟩

/-- A compact expression whose tokens do not run on into each other has these tokens, balanced as they were, and in front of any
closing parenthesis it is read as itself. -/
theorem compactExpression_keepsTokens {s x : String} {c c' : Cursor} {ts : List Token} (hs : c.rest <:+ tokenize s)
    (h : compactExpression c = .ok x c') (hts : c.rest = ts ++ c'.rest) (hapart : ts.IsChain fun a b => a.fuses b = false) :
    ∃ us e, tokenize x = us ++ [e] ∧ us.map Token.bare = ts.map Token.bare ∧ e.kind = .eof ∧ Enclosed us ∧
      ∀ rest, ∃ d, compactExpression (Cursor.start (x ++ ")" ++ rest)) = .ok x d ∧ d.remaining = ')' :: rest.toList := by
  obtain ⟨ts', r, post, hrest, henclosed, -, rfl, rfl⟩ := compactExpression_eq_ok.mp h
  obtain rfl : ts' = ts := List.append_cancel_right (hrest.symm.trans hts)
  have hproper := proper_of_depthThrough henclosed
  have hrow : InRow ts' := by
    obtain ⟨before, hbefore⟩ := hs
    have hwhole : InRow (before ++ (ts' ++ r :: post)) := ⟨0, s.toList, [], by rw [List.append_nil, ← hrest, hbefore]; rfl⟩
    exact hwhole.right.left
  obtain ⟨us, e, hus, hbare, he, hgap⟩ := tokensFrom_compact (hrow.isToken hproper) hproper hapart 0
  have henclosed' : Enclosed us := by rwa [Enclosed, depthThrough_congr hbare]
  refine ⟨us, e, by rw [tokenize, String.toList_ofList]; exact hus, hbare, he, henclosed', fun rest => ?_⟩
  have hstart : (Cursor.start (String.ofList (compact ts') ++ ")" ++ rest)).rest =
      tokensFrom 0 (compact ts' ++ ')' :: rest.toList) := by
    show tokenize _ = _
    simp [tokenize]
  have hparen := (isToken_rightParen rest.toList).tokensFrom (0 + byteLength (compact ts'))
  have hremaining := flatMap_tokensFrom (')' :: rest.toList) (0 + byteLength (compact ts'))
  rw [List.singleton_append] at hparen
  rw [tokensFrom_append_delimiter rfl rest.toList _ 0 hus hgap (proper_of_depthThrough henclosed'), hparen] at hstart
  rw [hparen] at hremaining
  exact ⟨_, compactExpression_eq_ok.mpr ⟨us, _, _, hstart, henclosed', rfl, by rw [compact_congr hbare], rfl⟩, hremaining⟩

/-- Two signs in a row and words next to words keep a blank, and the tokens are kept. -/
theorem compactExpression_keepsTokens_signs :
    ∃ ts c' us e, compactExpression (Cursor.start "a - -1 > 0 AND b.c IS NOT NULL)") = .ok "a- -1>0 AND b.c IS NOT NULL" c' ∧
      (Cursor.start "a - -1 > 0 AND b.c IS NOT NULL)").rest = ts ++ c'.rest ∧ ts.IsChain (fun a b => a.fuses b = false) ∧
      tokenize "a- -1>0 AND b.c IS NOT NULL" = us ++ [e] ∧ us.map Token.bare = ts.map Token.bare := by
  let c := Cursor.start "a - -1 > 0 AND b.c IS NOT NULL)"
  have hrest : c.rest = c.rest.take 13 ++ ⟨.rightParen, ⟨30, 31⟩, [], [')']⟩ :: c.rest.drop 14 := by decide +kernel
  have henclosed : depthThrough 0 (c.rest.take 13) = some 0 := by decide +kernel
  have hok : compactExpression c = .ok "a- -1>0 AND b.c IS NOT NULL" _ :=
    compactExpression_eq_ok.mpr ⟨_, _, _, hrest, henclosed, rfl, by decide +kernel, rfl⟩
  have hapart : (c.rest.take 13).IsChain fun a b => a.fuses b = false := by decide +kernel
  obtain ⟨us, e, hus, hbare, -⟩ :=
    compactExpression_keepsTokens (s := "a - -1 > 0 AND b.c IS NOT NULL)") List.suffix_rfl hok hrest hapart
  exact ⟨_, _, us, e, hok, hrest, hapart, hus, hbare⟩

end Reader

end SchemaEditor
