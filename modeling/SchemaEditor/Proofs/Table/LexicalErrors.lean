import SchemaEditor.Proofs.Table.Statements

/-!
# Lexical errors in statements that are read

Text that is no token becomes a token of its own, an error. No part of a statement takes one, but for the references
of a column: behind the name of the other table, and outside of parentheses, they go on over errors as over any token.
-/

namespace SchemaEditor

open Reader (nameOf? isTypeWord defaultStart depthAfter takeForeignKey takeBalanced endsForeignKey IsType IsDefault)

def TokenKind.isError : TokenKind → Bool
  | error _ => true
  | _ => false

def lexicalErrors (ts : List Token) : List Token := ts.filter (·.kind.isError)

@[simp] theorem lexicalErrors_nil : lexicalErrors [] = [] := rfl

@[simp] theorem lexicalErrors_append (ts us : List Token) : lexicalErrors (ts ++ us) = lexicalErrors ts ++ lexicalErrors us :=
  List.filter_append ..

theorem lexicalErrors_cons (t : Token) (ts : List Token) :
    lexicalErrors (t :: ts) = if t.kind.isError = true then t :: lexicalErrors ts else lexicalErrors ts :=
  List.filter_cons

@[simp] theorem lexicalErrors_skip {t : Token} (ht : t.kind.isError = false) (ts : List Token) :
    lexicalErrors (t :: ts) = lexicalErrors ts := by
  simp [lexicalErrors_cons, ht]

/-! ## Tokens that are no errors -/

section
variable {t : Token}

theorem isError_of_kind {k : TokenKind} (h : t.kind = k) (hk : k.isError = false) : t.kind.isError = false := by rwa [h]

theorem isError_of_isEnd (h : t.kind.isEnd = false) : t.kind.isError = false := by
  cases hk : t.kind <;> simp_all [TokenKind.isEnd, TokenKind.isError]

theorem isError_of_keyword? {k : Keyword} (h : t.keyword? = some k) : t.kind.isError = false :=
  isError_of_kind (Token.kind_of_keyword? h) rfl

theorem isError_of_isWord {w : String} (h : t.kind.isWord w = true) : t.kind.isError = false := by
  obtain ⟨name, hk⟩ := TokenKind.exists_of_isWord h
  exact isError_of_kind hk rfl

theorem isError_of_nameOf? {name : String} (h : nameOf? t = some name) : t.kind.isError = false := by
  cases hk : t.kind <;> simp_all [nameOf?, TokenKind.isError]

theorem isError_of_isTypeWord (h : isTypeWord t = true) : t.kind.isError = false := by
  cases hk : t.kind <;> simp_all [isTypeWord, TokenKind.isError]

theorem isError_of_defaultStart {start : Reader.DefaultStart} (h : defaultStart t.kind = start) (hstart : start ≠ .none) :
    t.kind.isError = false := by
  cases hk : t.kind <;> simp_all [defaultStart, TokenKind.isError]

theorem isError_of_isResolution (h : Reader.isResolution t.keyword? = true) : t.kind.isError = false := by
  cases hk : t.keyword? with
  | none => rw [hk] at h; cases h
  | some k => exact isError_of_keyword? hk

theorem lexicalErrors_eq_nil {ts : List Token} (h : ∀ t ∈ ts, t.kind.isError = false) : lexicalErrors ts = [] := by
  simpa [lexicalErrors, List.filter_eq_nil_iff] using h

end

/-! ## Balanced text -/

theorem lexicalErrors_enclosed {ts : List Token} (h : Enclosed ts) : lexicalErrors ts = [] :=
  lexicalErrors_eq_nil fun t ht => isError_of_isEnd (proper_of_depthThrough h t ht)

theorem lexicalErrors_takeBalanced (stop : TokenKind → Bool) (depth : Nat) (ts : List Token) :
    lexicalErrors (takeBalanced stop depth ts).1 = [] := by
  fun_induction takeBalanced stop depth ts with
  | case1 => rfl
  | case2 => rfl
  | case3 depth t ts hgo us rest htake ih =>
    have hend : t.kind.isEnd = false := by simp_all
    rw [lexicalErrors_skip (isError_of_isEnd hend)]
    rwa [htake] at ih

/-- The tokens outside of parentheses, if `depth` are open before the first one. -/
def outside : Nat → List Token → List Token
  | _, [] => []
  | 0, t :: ts => t :: outside (depthAfter 0 t.kind) ts
  | n + 1, t :: ts => outside (depthAfter (n + 1) t.kind) ts

/-- Inside of parentheses a foreign key clause takes no error. -/
theorem lexicalErrors_takeForeignKey (previous : TokenKind) (depth : Nat) (ts : List Token) :
    lexicalErrors (takeForeignKey previous depth ts).taken =
      lexicalErrors (outside depth (takeForeignKey previous depth ts).taken) := by
  fun_induction takeForeignKey previous depth ts with
  | case1 => cases ‹Nat› <;> rfl
  | case2 => rfl
  | case3 previous t ts _ tail ih => rw [outside, lexicalErrors_cons, lexicalErrors_cons, ih]
  | case4 => rfl
  | case5 previous t ts n hend tail ih =>
    rw [outside, lexicalErrors_skip (isError_of_isEnd (by simpa using hend)), ih]

/-! ## Parts of the grammar -/

namespace Grammar

theorem Group.noErrors {ts : List Token} (h : Group ts) : lexicalErrors ts = [] := by
  obtain ⟨hl, hts, hr⟩ := h
  simp [lexicalErrors_enclosed hts, isError_of_kind hl rfl, isError_of_kind hr rfl]

theorem SortOrder.noErrors {ts rest : List Token} (h : SortOrder ts rest) : lexicalErrors ts = [] := by
  cases h with
  | given ht => rcases ht with ht | ht <;> simp [isError_of_keyword? ht]
  | none => rfl

theorem Conflict.noErrors {ts rest : List Token} (h : Conflict ts rest) : lexicalErrors ts = [] := by
  cases h with
  | given ho hc hr => simp [isError_of_keyword? ho, isError_of_keyword? hc, isError_of_isResolution hr]
  | none => rfl

theorem TypeName.noErrors {s : String} {ts rest : List Token} (h : TypeName s ts rest) : lexicalErrors ts = [] := by
  have hwords {words : List Token} (h : ∀ t ∈ words, isTypeWord t = true) : lexicalErrors words = [] :=
    lexicalErrors_eq_nil fun t ht => isError_of_isTypeWord (h t ht)
  cases h with
  | given hts =>
    cases hts with
    | words _ hts => exact hwords hts
    | sized _ hts hl hinside hr =>
      simp [hwords hts, lexicalErrors_enclosed hinside, isError_of_kind hl rfl, isError_of_kind hr rfl]
  | none => rfl

theorem IsDefault.noErrors {value : String} {ts : List Token} (h : IsDefault ts value) : lexicalErrors ts = [] := by
  cases h with
  | group hl hts hr =>
    simp [lexicalErrors_enclosed hts, isError_of_defaultStart hl (by decide), isError_of_kind hr rfl]
  | sign ha hn => simp [isError_of_defaultStart ha (by decide), isError_of_kind hn rfl]
  | single ha => simp [isError_of_defaultStart ha (by decide)]

theorem Check.noErrors {column expression : String} {ts : List Token} (h : Check column expression ts) :
    lexicalErrors ts = [] := by
  cases h with
  | plain hl hts hr => simp [lexicalErrors_enclosed hts, isError_of_kind hl rfl, isError_of_kind hr rfl]
  | wrapped hl hn hk hl' hts hr' hr =>
    simp [lexicalErrors_enclosed hts, isError_of_kind hl rfl, isError_of_nameOf? hn, isError_of_keyword? hk,
      isError_of_kind hl' rfl, isError_of_kind hr' rfl, isError_of_kind hr rfl]

theorem Generated.noErrors {ts rest : List Token} (h : Generated ts rest) : lexicalErrors ts = [] := by
  cases h with
  | stored hg ht => rcases ht with ht | ht <;> simp [hg.noErrors, isError_of_isWord ht]
  | bare hg => exact hg.noErrors

/-! ## Columns -/

/-- The tokens of a references clause of which nothing is asked: those behind the name of the other table and outside of
parentheses. -/
def ColumnClause.unguarded (c : ColumnClause) : List Token :=
  match c.part with
  | .references => outside 0 (c.tokens.drop 2)
  | _ => []

theorem ColumnClause.Spells.lexicalErrors_eq {column : String} {c : ColumnClause} {ts rest : List Token}
    (h : c.Spells column ts rest) : lexicalErrors ts = lexicalErrors c.unguarded := by
  obtain ⟨part, tokens⟩ := c
  obtain ⟨htokens, t, k, us, rfl, hfirst, htail⟩ := h
  obtain rfl : tokens = t :: us := htokens
  rw [lexicalErrors_skip (isError_of_keyword? hfirst)]
  cases htail with
  | named ht => simp [unguarded, isError_of_nameOf? ht]
  | primaryKey hk horder hconflict =>
    simp [unguarded, isError_of_keyword? hk, horder.noErrors, hconflict.noErrors]
  | autoIncrement hk horder hconflict ha =>
    simp [unguarded, isError_of_keyword? hk, horder.noErrors, hconflict.noErrors, isError_of_keyword? ha]
  | notNull hn hconflict => simp [unguarded, isError_of_keyword? hn, hconflict.noErrors]
  | null hconflict | unique hconflict => simp [unguarded, hconflict.noErrors]
  | check hcheck => simp [unguarded, hcheck.noErrors]
  | default hdefault => simp [unguarded, IsDefault.noErrors hdefault]
  | collate ht => simp [unguarded, isError_of_nameOf? ht]
  | @references u _ ts _ hu hts =>
    have htake := lexicalErrors_takeForeignKey u.kind 0 (ts ++ rest)
    rw [hts] at htake
    simpa [unguarded, isError_of_nameOf? hu] using htake
  | generated ha hk hts => simp [unguarded, isError_of_isWord ha, isError_of_keyword? hk, hts.noErrors]
  | as hts => simp [unguarded, hts.noErrors]

theorem ColumnClause.All.lexicalErrors_eq {column : String} {cs : List ColumnClause} {ts rest : List Token}
    (h : All column cs ts rest) : lexicalErrors ts = lexicalErrors (cs.flatMap unguarded) := by
  induction h with
  | nil => rfl
  | cons hc _ ih => simp [hc.lexicalErrors_eq, ih]

/-! ## Definitions -/

theorem KeyPart.Spells.noErrors {k : KeyPart} {ts rest : List Token} (h : k.Spells ts rest) : lexicalErrors ts = [] := by
  cases h with
  | plain ht _ horder => simp [isError_of_nameOf? ht, horder.noErrors]
  | collated ht hc hu horder => simp [isError_of_nameOf? ht, isError_of_keyword? hc, isError_of_nameOf? hu, horder.noErrors]

/-- The errors of a list are those of its items. -/
theorem CommaList.lexicalErrors_eq {α : Type} {P : α → List Token → List Token → Prop} {f : α → List Token}
    (hP : ∀ a ts rest, P a ts rest → lexicalErrors ts = lexicalErrors (f a)) {as : List α} {ts rest : List Token}
    (h : CommaList P as ts rest) : lexicalErrors ts = lexicalErrors (as.flatMap f) := by
  induction h with
  | last ha => simp [hP _ _ _ ha]
  | cons ha hcomma _ ih => simp [hP _ _ _ ha, isError_of_kind hcomma rfl, ih]

def Definition.unguarded : Definition → List Token
  | column _ _ clauses => clauses.flatMap ColumnClause.unguarded
  | key _ | unique _ | check _ | foreignKey _ => []

theorem Definition.Constraint.lexicalErrors_eq {label ts rest : List Token} {d : Definition} (h : Constraint label d ts rest) :
    lexicalErrors ts = lexicalErrors d.unguarded := by
  cases h with
  | @key _ _ _ _ _ _ _ parts hp hk hl hparts hr hconflict =>
    have hkeys : lexicalErrors _ = lexicalErrors (parts.flatMap fun _ => []) :=
      hparts.lexicalErrors_eq fun _ _ _ => KeyPart.Spells.noErrors
    rw [List.flatMap_eq_nil_iff.mpr fun _ _ => rfl] at hkeys
    simp [unguarded, isError_of_keyword? hp, isError_of_keyword? hk, isError_of_kind hl rfl, hkeys,
      isError_of_kind hr rfl, hconflict.noErrors]
  | unique hu hg hconflict => simp [unguarded, isError_of_keyword? hu, hg.noErrors, hconflict.noErrors]
  | check hc hg => simp [unguarded, isError_of_keyword? hc, hg.noErrors]
  | @foreignKey g ts _ f k hf hk hg hts =>
    have htake := lexicalErrors_takeBalanced (fun k => k == .comma || k == .rightParen) 0 (ts ++ rest)
    rw [hts] at htake
    simp [unguarded, isError_of_keyword? hf, isError_of_keyword? hk, hg.noErrors, htake]

theorem Definition.Spells.lexicalErrors_eq {d : Definition} {ts rest : List Token} (h : d.Spells ts rest) :
    lexicalErrors ts = lexicalErrors d.unguarded := by
  cases h with
  | column _ ht htype hclauses => simp [unguarded, isError_of_nameOf? ht, htype.noErrors, hclauses.lexicalErrors_eq]
  | constraint hlabel hd =>
    cases hlabel with
    | given hc ht => simp [isError_of_keyword? hc, isError_of_nameOf? ht, hd.lexicalErrors_eq]
    | none => simp [hd.lexicalErrors_eq]

/-! ## Statements -/

theorem TableOption.Spells.noErrors {o : TableOption} {ts : List Token} (h : o.Spells ts) : lexicalErrors ts = [] := by
  cases h with
  | withoutRowid hw ht => simp [isError_of_keyword? hw, isError_of_isWord ht]
  | strict ht => simp [isError_of_isWord ht]

theorem TableOption.All.noErrors {os : List TableOption} {ts rest : List Token} (h : All os ts rest) :
    lexicalErrors ts = [] := by
  induction h with
  | nil => rfl
  | last ho => exact ho.noErrors
  | cons ho hcomma _ ih => simp [ho.noErrors, isError_of_kind hcomma rfl, ih]

theorem Temporary.noErrors {ts : List Token} (h : Temporary ts) : lexicalErrors ts = [] := by
  cases h with
  | given ht => rcases ht with ht | ht <;> simp [isError_of_keyword? ht]
  | none => rfl

theorem IfNotExists.noErrors {ts rest : List Token} (h : IfNotExists ts rest) : lexicalErrors ts = [] := by
  cases h with
  | given hi hn he => simp [isError_of_keyword? hi, isError_of_keyword? hn, isError_of_keyword? he]
  | none => rfl

theorem TableName.noErrors {name : String} {ts : List Token} (h : TableName name ts) : lexicalErrors ts = [] := by
  cases h with
  | bare ht => simp [isError_of_nameOf? ht]
  | qualified hs hd ht => simp [isError_of_nameOf? hs, isError_of_kind hd rfl, isError_of_nameOf? ht]

theorem Semicolon.noErrors {ts : List Token} (h : Semicolon ts) : lexicalErrors ts = [] := by
  cases h with
  | given ht => simp [isError_of_kind ht rfl]
  | none => rfl

namespace Statement

def unguarded (x : Statement) : List Token := x.definitions.flatMap Definition.unguarded

theorem Spells.lexicalErrors_eq {x : Statement} {ts rest : List Token} (h : x.Spells ts rest) :
    lexicalErrors ts = lexicalErrors x.unguarded := by
  obtain ⟨hc, htemporary, hb, hexists, hname, hl, hdefinitions, hr, hoptions, hsemicolon, -⟩ := h
  have hds := hdefinitions.lexicalErrors_eq fun _ _ _ hd => hd.lexicalErrors_eq
  simp [unguarded, isError_of_keyword? hc, htemporary.noErrors, isError_of_keyword? hb, hexists.noErrors, hname.noErrors,
    isError_of_kind hl rfl, hds, isError_of_kind hr rfl, hoptions.noErrors, hsemicolon.noErrors]

theorem Spells.kindOf_rest {x : Statement} {ts rest : List Token} (h : x.Spells ts rest) : kindOf rest = .eof := by
  obtain ⟨-, -, -, -, -, -, -, -, -, -, hend⟩ := h
  exact hend

end Statement

end Grammar

/-- Nothing follows the end of the text. -/
theorem lexicalErrors_atEnd {cs : List Char} {pos : Nat} {ts rest : List Token} (h : tokensFrom pos cs = ts ++ rest)
    (hend : kindOf rest = .eof) : lexicalErrors rest = [] := by
  obtain ⟨us, e, hus, he, -, hne⟩ := tokensFrom_eq_append_end cs pos
  rw [hus] at h
  rcases rest with _ | ⟨t, rest⟩
  · rfl
  · have ht : t.kind = .eof := hend
    rcases List.eq_nil_or_concat rest with rfl | ⟨vs, v, rfl⟩
    · simp [ht, TokenKind.isError]
    · rw [List.concat_eq_append, ← List.cons_append, ← List.append_assoc] at h
      have hmem : t ∈ us := by simp [(List.append_inj' h rfl).1]
      exact absurd ht (hne t hmem).1

namespace Table

open Grammar

/-- The lexical errors of a statement that is read are those that its references clauses go on over. So a text with a
lexical error anywhere else is refused. -/
theorem lexicalErrors_of_parse {s : String} {t : Table} (h : parse s = .ok t) :
    (∃ x : Statement, x.SpellsText s ∧ x.table? = some t) ∧
      ∀ x : Statement, x.SpellsText s → lexicalErrors (tokenize s) = lexicalErrors x.unguarded := by
  refine ⟨parse_eq_ok_iff.mp h, ?_⟩
  rintro x ⟨ts, rest, hs, hx⟩
  have hrest : lexicalErrors rest = [] := lexicalErrors_atEnd hs hx.kindOf_rest
  rw [hs, lexicalErrors_append, hrest, List.append_nil, hx.lexicalErrors_eq]

/-- A character that begins no token, behind the name of another table. -/
theorem lexicalErrors_of_parse_stray :
    parse "CREATE TABLE t (a REFERENCES b !)" = .ok { name := "t", fields := [{ name := "a" }] } ∧
      ∃ x : Statement, x.SpellsText "CREATE TABLE t (a REFERENCES b !)" ∧
        lexicalErrors x.unguarded = [⟨.error (.unexpected '!'), ⟨31, 32⟩, [' '], ['!']⟩] := by
  have hparse : parse "CREATE TABLE t (a REFERENCES b !)" = .ok { name := "t", fields := [{ name := "a" }] } := by decide +kernel
  have herrors : lexicalErrors (tokenize "CREATE TABLE t (a REFERENCES b !)") =
      [⟨.error (.unexpected '!'), ⟨31, 32⟩, [' '], ['!']⟩] := by decide +kernel
  obtain ⟨⟨x, hx, -⟩, heq⟩ := lexicalErrors_of_parse hparse
  exact ⟨hparse, x, hx, (heq x hx).symm.trans herrors⟩

end Table

end SchemaEditor
