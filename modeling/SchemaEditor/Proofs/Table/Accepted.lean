import SchemaEditor.Proofs.Table.Nesting
import SchemaEditor.Proofs.Table.Statements

/-!
# Columns of accepted statements

A column that was read keeps its type as it was written and its expressions in compact form. So each of its texts is
made of tokens that stood in a row in the statement, and a type or a default value of one word is read back wherever
it is printed. An expression need not be: compact text may be cut into other tokens.
-/

namespace SchemaEditor

open Grammar

/-- The texts of the column are made of tokens that stand in a row. -/
structure Field.Spelled (f : Field) : Prop where
  sqlType : f.sqlType = "" ∨ ∃ ts, InRow ts ∧ Reader.IsType ts ∧ f.sqlType = String.ofList (Token.source ts)
  defaultValue : f.defaultValue = "" ∨ ∃ ts, InRow ts ∧ Reader.IsDefault ts f.defaultValue
  check : f.check = "" ∨ ∃ ts, InRow ts ∧ Enclosed ts ∧ f.check = String.ofList (Reader.compact ts)

namespace Grammar

variable {ts rest : List Token}

/-! ## Parts of columns -/

theorem TypeName.inRow {s : String} (h : TypeName s ts rest) (hts : InRow ts) :
    s = "" ∨ ∃ us, InRow us ∧ Reader.IsType us ∧ s = String.ofList (Token.source us) := by
  cases h with
  | given htype => exact .inr ⟨ts, hts, htype, rfl⟩
  | none => exact .inl rfl

theorem Check.inRow {column s : String} (h : Check column s ts) (hts : InRow ts) :
    ∃ us, InRow us ∧ Enclosed us ∧ s = String.ofList (Reader.compact us) := by
  cases h with
  | plain hl hus => exact ⟨_, hts.tail.left, hus, rfl⟩
  | wrapped hl hn hk hl' hus => exact ⟨_, hts.tail.tail.tail.tail.left, hus, rfl⟩

/-- A clause leaves the texts of its column spelled, whatever it adds. -/
theorem ColumnPart.Tail.spelled {column : String} {k : Keyword} {p : ColumnPart} (h : p.Tail column k ts rest) (hts : InRow ts)
    {f : Field} (hf : f.Spelled) : (p.apply f).Spelled := by
  cases h with
  | check hcheck => exact ⟨hf.sqlType, hf.defaultValue, .inr (hcheck.inRow hts)⟩
  | default hdefault => exact ⟨hf.sqlType, .inr ⟨_, hts, hdefault⟩, hf.check⟩
  | _ => exact ⟨hf.sqlType, hf.defaultValue, hf.check⟩

theorem ColumnClause.All.spelled {column : String} {clauses : List ColumnClause} (h : ColumnClause.All column clauses ts rest)
    (hts : InRow ts) {f : Field} (hf : f.Spelled) : (clauses.foldl (fun f c => c.part.apply f) f).Spelled := by
  induction h generalizing f with
  | nil => exact hf
  | cons hc hcs ih =>
    obtain ⟨-, t, k, us, rfl, -, htail⟩ := hc
    exact ih hts.right (htail.spelled hts.tail.left hf)

theorem Definition.Spells.spelled {d : Definition} (h : d.Spells ts rest) (hts : InRow ts) {f : Field}
    (hf : d.field? = some f) : f.Spelled := by
  cases h with
  | column hstart ht htype hclauses =>
    cases hf
    have hparts := hts.tail
    exact hclauses.spelled hparts.right ⟨htype.inRow hparts.left, .inl rfl, .inl rfl⟩
  | constraint hlabel hd => cases hd <;> cases hf

/-! ## Statements -/

theorem CommaList.inRow {α : Type} {P : α → List Token → List Token → Prop} {as : List α} (h : CommaList P as ts rest)
    (hts : InRow ts) : ∀ a ∈ as, ∃ us rest, InRow us ∧ P a us rest := by
  induction h with
  | last ha => exact List.forall_mem_singleton.mpr ⟨_, _, hts, ha⟩
  | cons ha hcomma has ih => exact List.forall_mem_cons.mpr ⟨⟨_, _, hts.left, ha⟩, ih hts.right.tail⟩

theorem Statement.definitions_inRow {x : Statement} (h : x.Spells ts rest) (hts : InRow ts) :
    ∀ d ∈ x.definitions, ∃ us rest, InRow us ∧ d.Spells us rest := by
  cases h with
  | mk hc htemporary hb hexists hname hl hdefinitions =>
    exact hdefinitions.inRow hts.tail.right.tail.right.right.tail.left

end Grammar

namespace Table

/-- Every column of a table that was read is spelled. -/
theorem spelled_of_parse {s : String} {t : Table} (h : parse s = .ok t) : ∀ f ∈ t.fields, f.Spelled := by
  obtain ⟨x, ⟨ts, rest, htokens, hx⟩, htable⟩ := parse_eq_ok_iff.mp h
  intro f hf
  -- A key column is the column of its definition but for the key, which is no text.
  let texts : Field → String × String × String := fun f => (f.sqlType, f.defaultValue, f.check)
  have hmap := Statement.map_fields (g := texts) (fun _ => rfl) htable
  have hmem : texts f ∈ (x.definitions.filterMap Definition.field?).map texts := hmap ▸ List.mem_map_of_mem hf
  obtain ⟨f₀, hf₀, htexts⟩ := List.mem_map.mp hmem
  obtain ⟨d, hd, hfield⟩ := List.mem_filterMap.mp hf₀
  obtain ⟨us, rest', hus, hspells⟩ := Statement.definitions_inRow hx ⟨0, _, rest, htokens⟩ d hd
  obtain ⟨htype, hdefault, hcheck⟩ := hspells.spelled hus hfield
  simp only [texts, Prod.mk.injEq] at htexts
  rw [htexts.1] at htype
  rw [htexts.2.1] at hdefault
  rw [htexts.2.2] at hcheck
  exact ⟨htype, hdefault, hcheck⟩

end Table

/-! ## Row columns -/

namespace Grammar

/-- How the rows of the table are found. -/
def rowKey (t : Table) : String × Bool := (t.rowidColumn, t.withoutRowid)

theorem rowKey_addTo? {keys keys' : Reader.KeyList} {parts : List KeyPart} (h : parts.foldlM KeyPart.addTo? keys = some keys') :
    rowKey keys'.table = rowKey keys.table := by
  induction parts generalizing keys with
  | nil => cases h; rfl
  | cons k parts ih =>
    rw [List.foldlM_cons] at h
    obtain ⟨keys₁, hk, hparts⟩ := Option.bind_eq_some_iff.mp h
    refine (ih hparts).trans ?_
    unfold KeyPart.addTo? at hk
    split at hk
    · next f t _ hmodify =>
      cases hk
      obtain ⟨i, -, rfl⟩ := Option.map_eq_some_iff.mp hmodify
      rfl
    · cases hk

theorem rowKey_foldlM {t t' : Table} {ds : List Definition} (h : ds.foldlM Definition.addTo? t = some t') :
    rowKey t' = rowKey t := by
  induction ds generalizing t with
  | nil => cases h; rfl
  | cons d ds ih =>
    rw [List.foldlM_cons] at h
    obtain ⟨t₁, hd, hds⟩ := Option.bind_eq_some_iff.mp h
    refine (ih hds).trans ?_
    cases d with
    | column name sqlType clauses => cases hd; rfl
    | key parts =>
      obtain ⟨keys, hkeys, rfl⟩ := Option.map_eq_some_iff.mp hd
      exact rowKey_addTo? hkeys
    | unique _ | check _ | foreignKey _ => cases hd; rfl

end Grammar

namespace Table

/-- The row column of a table that was read follows from its key. -/
theorem rowid_of_parse {s : String} {t : Table} (h : parse s = .ok t) :
    (t.withoutRowid = false → t.rowidColumn = defaultRowidColumn) ∧
      (t.withoutRowid = true → t.primaryKey.head?.map Field.name = some t.rowidColumn) := by
  obtain ⟨x, -, htable⟩ := parse_eq_ok_iff.mp h
  rw [show x.table? = _ from Reader.table?_mk x.name x.definitions x.options] at htable
  obtain ⟨t₀, hfold, hfinish⟩ := Option.bind_eq_some_iff.mp htable
  obtain ⟨hcolumn, hwithout⟩ := Prod.mk.inj (rowKey_foldlM hfold)
  unfold Reader.finish? at hfinish
  split at hfinish
  · split at hfinish
    · cases hfinish
    · next hkey =>
      cases hfinish
      refine ⟨fun hw => (Bool.noConfusion hw), fun _ => ?_⟩
      obtain ⟨key, keys, hkeys⟩ := List.exists_cons_of_ne_nil (by simpa using hkey : t₀.primaryKey ≠ [])
      show (t₀.primaryKey.head?.map Field.name) = some (t₀.setWithoutRowid true).rowidColumn
      unfold Table.setWithoutRowid
      rw [hkeys]
      rfl
  · cases hfinish
    refine ⟨fun _ => hcolumn, fun hw => ?_⟩
    rw [hwithout] at hw
    cases hw

end Table

/-! ## Texts that are read back -/

/-- The source of tokens that stand in a row has the same tokens by itself. -/
theorem InRow.alone {ts : List Token} (h : InRow ts) (hproper : ∀ t ∈ ts, t.kind.isEnd = false) (pos : Nat) :
    ∃ us e, tokensFrom pos (Token.source ts) = us ++ [e] ∧ us.map Token.bare = ts.map Token.bare ∧
      Token.source us = Token.source ts ∧ e.kind = .eof ∧ e.gap = [] ∧ e.text = [] := by
  obtain ⟨pos', e, htokens, he⟩ := h.tokensFrom_source hproper
  have hflush : (flush ts).map Token.bare = ts.map Token.bare ∧ Token.source (flush ts) = Token.source ts ∧
      ∀ t ∈ flush ts, t.kind.isEnd = false := by
    cases ts with
    | nil => exact ⟨rfl, rfl, hproper⟩
    | cons t ts => exact ⟨rfl, rfl, by simpa [flush] using hproper⟩
  have halone : TokensOf (Token.source ts) (flush ts) := ⟨⟨pos', e, htokens, he⟩, hflush.2.2⟩
  obtain ⟨us, e', hus, hgap, hforms⟩ := halone.tokensFrom pos
  obtain ⟨vs, e'', hvs, hkind, htext, -⟩ := tokensFrom_eq_append_end (Token.source ts) pos
  obtain ⟨-, rfl⟩ := List.append_singleton_inj.mp (hus.symm.trans hvs)
  exact ⟨us, e', hus, (map_bare_of_map_form hforms).trans hflush.1, (source_of_map_form hforms).trans hflush.2.1,
    hkind, hgap, htext⟩

namespace Reader

theorem remaining_end {e : Token} (hgap : e.gap = []) (htext : e.text = []) (c : Cursor) (ts : List Token) :
    (c.jump ts [e]).remaining = [] := by
  simp [Cursor.remaining, Cursor.jump, hgap, htext]

theorem start_ofList (cs : List Char) : (Cursor.start (String.ofList cs ++ "")).rest = tokensFrom 0 cs := by
  show tokenize _ = _
  rw [tokenize, String.append_empty, String.toList_ofList]

/-- A type is read back as it was written. -/
theorem readsBack_typeName {ts : List Token} (h : InRow ts) (htype : IsType ts) :
    readsBack typeName (String.ofList (Token.source ts)) "" = true := by
  obtain ⟨us, e, hus, hbare, hsource, hkind, hgap, htext⟩ := h.alone htype.proper 0
  have hstart := (start_ofList (Token.source ts)).trans hus
  have hend : isTypeWord e = false ∧ e.kind ≠ .leftParen := by
    rw [isTypeWord, hkind]
    exact ⟨rfl, by decide⟩
  unfold readsBack
  rw [(htype.congr hbare.symm).ok hstart hend.1 hend.2, hsource]
  simp [remaining_end hgap htext]

theorem readsBack_of_isDefault {ts us : List Token} {e : Token} {s : String} {cs : List Char}
    (htokens : tokensFrom 0 cs = us ++ [e])
    (hbare : us.map Token.bare = ts.map Token.bare) (hgap : e.gap = []) (htext : e.text = []) (h : IsDefault ts s)
    (hs : s = String.ofList cs) : readsBack defaultValue s "" = true := by
  have hstart := (start_ofList cs).trans htokens
  unfold readsBack
  rw [hs] at h ⊢
  rw [(h.congr hbare.symm).ok hstart]
  simp [remaining_end hgap htext]

/-- A sign in front of a number is a token by itself. -/
theorem isToken_sign {a n : Token} (ha : a.IsLexeme) (hn : n.IsLexeme) (hsign : a.kind = .plus ∨ a.kind = .minus)
    (hnumber : n.kind = .number) : IsToken a.text a.kind n.text := by
  obtain ⟨c, hsingle, htext⟩ := ha.single (by rcases hsign with hk | hk <;> rw [hk] <;> rfl)
  have hc : c = '+' ∨ c = '-' := by
    have hkind := hsingle
    unfold singleKind? at hkind
    rcases hsign with hk | hk <;> rw [hk] at hkind <;> split at hkind <;> simp at hkind <;> simp
  have hhead : ∀ w, n.text = '-' :: w → False := by
    intro w hw
    obtain ⟨d, cs, hkind, hntext⟩ := hn
    have hd := head?_lexeme_text d cs
    rw [← hntext, hw] at hd
    obtain rfl : '-' = d := Option.some.inj hd
    have hminus : ∀ e, pairKind? '-' e = none := fun e => by simp [pairKind?]
    have hlexeme : (lexeme '-' cs).kind = .minus := by
      cases cs <;> simp [lexeme, operator, singleKind?, hminus, Text.isAlphabetic]
    rw [hnumber, hlexeme] at hkind
    cases hkind
  have hpair : n.text.head?.bind (pairKind? c) = none := by
    rcases hc with rfl | rfl <;> cases n.text <;> simp [pairKind?]
  have hop : operator c n.text = ⟨a.kind, [c], n.text⟩ := by
    rw [operator_of_single hpair, hsingle]
    rfl
  rw [htext]
  constructor
  · rw [List.singleton_append, splitGap.eq_3 _ _ (fun w _ hw => hhead w hw) (by rcases hc with rfl | rfl <;> simp)]
    rcases hc with rfl | rfl <;> rfl
  · refine ⟨c, [], rfl, ?_⟩
    rw [List.nil_append, ← hop]
    unfold lexeme
    rcases hc with rfl | rfl <;> rfl

/-- A default value is read back as it was written, unless it is an expression. -/
theorem readsBack_defaultValue {ts : List Token} {s : String} (h : InRow ts) (hdefault : IsDefault ts s) :
    readsBack defaultValue s "" = true ∨
      ∃ us, InRow us ∧ Enclosed us ∧ s = "(" ++ String.ofList (compact us) ++ ")" := by
  have hlexemes := isLexeme_of_inRow h hdefault.proper
  cases hdefault with
  | group hl hus hr => exact .inr ⟨_, h.tail.left, hus, rfl⟩
  | @sign a n ha hn =>
    have hsign : a.kind = .plus ∨ a.kind = .minus := by
      unfold defaultStart at ha
      split at ha
      all_goals first | exact .inl ‹_› | exact .inr ‹_› | (split at ha <;> cases ha) | cases ha
    have hn' : InRow [n] := h.tail
    obtain ⟨us, e, hus, hbare, -, -, hgap, htext⟩ := hn'.alone (fun t ht => by simp_all [TokenKind.isEnd])
      (0 + byteLength a.text)
    have hnumber : Token.source [n] = n.text := by simp [Token.source]
    have hsplit := (isToken_sign (hlexemes a (by simp)) (hlexemes n (by simp)) hsign hn).tokensFrom 0
    rw [← hnumber, hus, ← List.cons_append, hnumber] at hsplit
    exact .inl (readsBack_of_isDefault hsplit (by simp [hbare, Token.bare]) hgap htext (.sign ha hn) rfl)
  | @single a ha =>
    obtain ⟨us, e, hus, hbare, -, -, hgap, htext⟩ := h.alone (IsDefault.single ha).proper 0
    exact .inl (readsBack_of_isDefault hus hbare hgap htext (.single ha) (by simp [Token.source]))

end Reader

end SchemaEditor
