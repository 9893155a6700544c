import SchemaEditor.Proofs.Table.Clauses

/-!
# Reading statements by the grammar

The statements that are read are those of the grammar, and the grammar says what comes of them: the table, and the
clauses that are discarded.
-/

namespace SchemaEditor

open Grammar

namespace Reader

/-! ## Lists -/

theorem takes_turnAtComma {α : Type} (a : α) : Takes (turnAtComma a) fun turn ts rest =>
    (∃ comma, ts = [comma] ∧ comma.kind = .comma ∧ turn = .again a) ∨ ts = [] ∧ kindOf rest ≠ .comma ∧ turn = .done a := by
  intro c turn c'
  unfold turnAtComma
  rw [Cursor.kind_current]
  by_cases hk : kindOf c.rest = .comma
  · obtain ⟨comma, rest, hc⟩ : ∃ comma rest, c.rest = comma :: rest := by
      cases hc : c.rest with
      | nil => rw [hc] at hk; cases hk
      | cons comma rest => exact ⟨comma, rest, rfl⟩
    have hcomma : comma.kind = .comma := by rwa [hc] at hk
    rw [if_pos hk, Cursor.advance_eq_jump hc]
    constructor
    · intro h
      cases h
      exact ⟨[comma], rest, hc, .inl ⟨comma, rfl, hcomma, rfl⟩, rfl⟩
    · rintro ⟨_, rest', hc', ⟨comma', rfl, -, rfl⟩ | ⟨rfl, hno, -⟩, rfl⟩
      · obtain ⟨rfl, rfl⟩ := List.cons.inj (hc.symm.trans hc')
        rfl
      · rw [hc'] at hk
        exact absurd hk hno
  · rw [if_neg hk]
    constructor
    · intro h
      cases h
      exact ⟨[], c.rest, rfl, .inr ⟨rfl, hk, rfl⟩, rfl⟩
    · rintro ⟨_, rest, hc, ⟨comma, rfl, hcomma, -⟩ | ⟨rfl, -, rfl⟩, rfl⟩
      · rw [hc] at hk
        exact absurd hcomma hk
      · obtain rfl : c.rest = rest := hc
        rfl

/-- A list with commas is read item by item. -/
theorem records_commaList {α ι : Type} {item : α → Reader α} [∀ a, Progresses (item a >>= turnAtComma)]
    {P : ι → List Token → List Token → Prop} {step : α → ι → Option α} {entries : ι → List String}
    (hitem : ∀ a, Records (item a) fun b es ts rest => ∃ x, P x ts rest ∧ step a x = some b ∧ es = entries x) (a : α) :
    Records (loop (fun a => item a >>= turnAtComma) a) fun b es ts rest =>
      ∃ xs, CommaList P xs ts rest ∧ xs.foldlM step a = some b ∧ es = xs.flatMap entries := by
  have hturn (a : α) := (hitem a).bind fun b => (takes_turnAtComma b).records
  refine (records_loop hturn a).congr fun b es ts rest => ⟨fun h => ?_, ?_⟩
  · induction h with
    | done h =>
      obtain ⟨_, _, _, us, _, rfl, rfl, ⟨x, hx, hstep, rfl⟩, rfl, ⟨_, -, -, hagain⟩ | ⟨rfl, hrest, hlast⟩⟩ := h
      · cases hagain
      · cases hlast
        simp only [List.append_nil, List.nil_append] at hx ⊢
        exact ⟨[x], .last hx hrest, by simp [hstep], by simp⟩
    | again h _ ih =>
      obtain ⟨_, _, _, us, _, rfl, rfl, ⟨x, hx, hstep, rfl⟩, rfl, ⟨comma, rfl, hcomma, hagain⟩ | ⟨-, -, hlast⟩⟩ := h
      · cases hagain
        obtain ⟨xs, hxs, hfold, rfl⟩ := ih
        rw [List.append_nil, List.append_assoc, List.singleton_append]
        exact ⟨x :: xs, .cons hx hcomma hxs, by rw [List.foldlM_cons, hstep]; exact hfold, rfl⟩
      · cases hlast
  · rintro ⟨xs, hxs, hfold, rfl⟩
    induction hxs generalizing a with
    | @last x ts rest hx hrest =>
      have hstep : step a x = some b := by simpa using hfold
      exact .done ⟨b, entries x, [], ts, [], by simp, by simp, ⟨x, hx, hstep, rfl⟩, rfl, .inr ⟨rfl, hrest, rfl⟩⟩
    | @cons x xs ts us rest comma hx hcomma _ ih =>
      rw [List.foldlM_cons] at hfold
      obtain ⟨a₁, hstep, hfold⟩ := Option.bind_eq_some_iff.mp hfold
      have hts : ts ++ comma :: us = (ts ++ [comma]) ++ us := by simp
      rw [hts]
      exact .again ⟨a₁, entries x, [], ts, [comma], (List.append_nil _).symm, rfl, ⟨x, hx, hstep, rfl⟩, rfl,
        .inl ⟨comma, rfl, hcomma, rfl⟩⟩ (ih a₁ hfold)

/-! ## Keys -/

/-- What is done with a column of a key once it has been read. -/
theorem takes_addTo? (keys : KeyList) (start : Token) (column : String) (collation : Option String) :
    Takes (match keys.table.field? column, keys.table.modifyField? column Field.asPrimaryKey with
      | some field, some table => pure { table, listed := keys.listed ++ [field.name] }
      | _, _ => fail (.unknownKeyColumn column) start.span : Reader KeyList) fun keys' ts _ =>
        KeyPart.addTo? keys ⟨column, collation⟩ = some keys' ∧ ts = [] := by
  have hnever (c : Cursor) (a : KeyList) (c' : Cursor) :
      (fail (.unknownKeyColumn column) start.span : Reader KeyList) c ≠ .ok a c' := fun h => by cases h
  unfold KeyPart.addTo?
  cases keys.table.field? column with
  | none => exact (takes_never hnever).congr fun _ _ _ => by simp
  | some field =>
    cases keys.table.modifyField? column Field.asPrimaryKey with
    | none => exact (takes_never hnever).congr fun _ _ _ => by simp
    | some table => exact (takes_pure _).congr fun _ _ _ => by simp [eq_comm]

theorem takes_keyColumn (keys : KeyList) :
    Takes (keyColumn keys) fun keys' ts rest => ∃ k : KeyPart, k.Spells ts rest ∧ k.addTo? keys = some keys' := by
  have hstart (start : Token) := takes_expectName.bind fun column =>
    (looks_atKeyword .collate).takes (takes_expectName.bind fun collation =>
        takes_sortOrder.andThen (takes_addTo? keys start column (some collation)))
      (takes_sortOrder.andThen (takes_addTo? keys start column none))
  intro c keys' c'
  refine Iff.trans ((hstart c.current) c keys' c') ?_
  refine exists_congr fun ts => exists_congr fun rest => and_congr_right fun _ => and_congr_left fun _ => ?_
  constructor
  · rintro ⟨column, _, _, rfl, ⟨t, rfl, ht⟩, ⟨k, _, rfl, hk, collation, _, _, rfl, ⟨u, rfl, hu⟩, -, order, _, rfl,
      horder, hadd, rfl⟩ |
      ⟨hno, -, order, _, rfl, horder, hadd, rfl⟩⟩
    · rw [List.append_nil]
      exact ⟨_, .collated ht (by simpa [Token.keyword?] using hk) hu horder, hadd⟩
    · rw [List.append_nil] at hno ⊢
      exact ⟨_, .plain ht (by simpa using hno) horder, hadd⟩
  · rintro ⟨_, ⟨ht, hno, horder⟩ | ⟨ht, hk, hu, horder⟩, hadd⟩
    · refine ⟨_, [_], _, rfl, ⟨_, rfl, ht⟩, .inr ⟨by simpa using hno, (), _, [], (List.append_nil _).symm, horder, hadd, rfl⟩⟩
    · refine ⟨_, [_], _, rfl, ⟨_, rfl, ht⟩, .inl ⟨_, _, rfl, by simpa [Token.keyword?] using hk, _, [_], _, rfl,
        ⟨_, rfl, hu⟩, (), _, [], (List.append_nil _).symm, horder, hadd, rfl⟩⟩

theorem takes_keyColumns (t : Table) :
    Takes (keyColumns t) fun t' ts rest => ∃ parts us r, ts = us ++ [r] ∧ CommaList KeyPart.Spells parts us (r :: rest) ∧
      r.kind = .rightParen ∧ withKey? t parts = some t' := by
  have hitem (keys : KeyList) : Records (keyColumn keys) fun keys' es ts rest =>
      ∃ k : KeyPart, k.Spells ts rest ∧ k.addTo? keys = some keys' ∧ es = [] :=
    (takes_keyColumn keys).records.congr fun keys' es ts rest => by
      constructor
      · rintro ⟨rfl, k, hk, hadd⟩
        exact ⟨k, hk, hadd, rfl⟩
      · rintro ⟨k, hk, hadd, rfl⟩
        exact ⟨rfl, k, hk, hadd⟩
  have hlist : Takes (loop (fun keys => keyColumn keys >>= turnAtComma) ⟨t, []⟩) fun keys ts rest =>
      ∃ parts, CommaList KeyPart.Spells parts ts rest ∧ parts.foldlM KeyPart.addTo? ⟨t, []⟩ = some keys := by
    refine ((records_commaList hitem ⟨t, []⟩).congr fun keys es ts rest => ?_).takes
    constructor
    · rintro ⟨parts, hparts, hfold, rfl⟩
      exact ⟨by simp, parts, hparts, hfold⟩
    · rintro ⟨rfl, parts, hparts, hfold⟩
      exact ⟨parts, hparts, hfold, by simp⟩
  refine Takes.congr (hlist.bind fun keys => (takes_expectKind (k := .rightParen) (by decide)).andThen
    (takes_pure (keys.table.setPrimaryKeyOrder keys.listed))) fun t' ts rest => ?_
  constructor
  · rintro ⟨keys, us, _, rfl, ⟨parts, hparts, hfold⟩, -, _, _, rfl, ⟨r, rfl, hr⟩, rfl, rfl⟩
    exact ⟨parts, us, r, rfl, hparts, hr, by rw [withKey?, hfold]; rfl⟩
  · rintro ⟨parts, us, r, rfl, hparts, hr, hkey⟩
    obtain ⟨keys, hfold, rfl⟩ := Option.map_eq_some_iff.mp hkey
    exact ⟨keys, us, [r], rfl, ⟨parts, hparts, hfold⟩, (), [r], [], rfl, ⟨r, rfl, hr⟩, rfl, rfl⟩

/-! ## Table constraints -/

theorem takes_toNextDefinition : Takes toNextDefinition fun _ ts rest =>
    takeBalanced (fun k => k == .comma || k == .rightParen) 0 (ts ++ rest) = (ts, rest) ∧ (kindOf rest).isEnd = false := by
  intro c u c'
  have happend := takeBalanced_append (fun k => k == .comma || k == .rightParen) 0 c.rest
  unfold toNextDefinition
  cases htake : takeBalanced (fun k => k == .comma || k == .rightParen) 0 c.rest with
  | mk taken left =>
    rw [htake] at happend
    dsimp only at happend ⊢
    rw [Cursor.kind_current, Cursor.rest_jump]
    constructor
    · intro h
      split at h
      · cases h
      · next hend =>
        cases h
        exact ⟨taken, left, happend.symm, ⟨by rw [happend, htake], by simpa using hend⟩, rfl⟩
    · rintro ⟨ts, rest, hc, ⟨htake', hend⟩, rfl⟩
      rw [← hc, htake] at htake'
      obtain ⟨rfl, rfl⟩ := Prod.mk.inj htake'
      rw [if_neg (by simp [hend])]

theorem takes_keyConstraint (t : Table) :
    Takes (expectKeyword .key >>= fun _ => expectKind .leftParen >>= fun _ => keyColumns t >>= fun t =>
        conflictClause >>= fun _ => pure t) fun t' ts rest =>
      ∃ parts us conflict k l r, ts = k :: l :: (us ++ r :: conflict) ∧ k.keyword? = some .key ∧ l.kind = .leftParen ∧
        CommaList KeyPart.Spells parts us (r :: (conflict ++ rest)) ∧ r.kind = .rightParen ∧ Conflict conflict rest ∧
        withKey? t parts = some t' := by
  refine Takes.congr ((takes_expectKeyword .key).andThen ((takes_expectKind (k := .leftParen) (by decide)).andThen
    ((takes_keyColumns t).bind fun t => takes_conflictClause.andThen (takes_pure t)))) fun t' ts rest => ?_
  constructor
  · rintro ⟨-, _, _, rfl, ⟨k, rfl, hk⟩, -, _, _, rfl, ⟨l, rfl, hl⟩, t'', _, _, rfl, ⟨parts, us, r, rfl, hparts, hr, hkey⟩,
      -, conflict, _, rfl, hconflict, rfl, rfl⟩
    rw [List.append_nil] at hparts ⊢
    exact ⟨parts, us, conflict, k, l, r, by simp, hk, hl, hparts, hr, hconflict, hkey⟩
  · rintro ⟨parts, us, conflict, k, l, r, rfl, hk, hl, hparts, hr, hconflict, hkey⟩
    exact ⟨(), [k], _, rfl, ⟨k, rfl, hk⟩, (), [l], _, rfl, ⟨l, rfl, hl⟩, t', us ++ [r], conflict, by simp,
      ⟨parts, us, r, rfl, hparts, hr, hkey⟩, (), conflict, [], (List.append_nil _).symm, hconflict, rfl, rfl⟩

theorem takes_uniqueConstraint : Takes (parenthesized >>= fun _ => conflictClause) fun _ ts rest =>
    ∃ g conflict, ts = g ++ conflict ∧ Group g ∧ Conflict conflict rest := by
  refine (takes_parenthesized.andThen takes_conflictClause).congr fun _ ts rest => ?_
  constructor
  · rintro ⟨-, g, conflict, rfl, hg, hconflict⟩
    exact ⟨g, conflict, rfl, hg, hconflict⟩
  · rintro ⟨g, conflict, rfl, hg, hconflict⟩
    exact ⟨(), g, conflict, rfl, hg, hconflict⟩

theorem takes_foreignKeyConstraint :
    Takes (expectKeyword .key >>= fun _ => parenthesized >>= fun _ => toNextDefinition) fun _ ts rest =>
      ∃ k g us, ts = k :: (g ++ us) ∧ k.keyword? = some .key ∧ Group g ∧
        takeBalanced (fun k => k == .comma || k == .rightParen) 0 (us ++ rest) = (us, rest) ∧ (kindOf rest).isEnd = false := by
  refine ((takes_expectKeyword .key).andThen (takes_parenthesized.andThen takes_toNextDefinition)).congr fun _ ts rest => ?_
  constructor
  · rintro ⟨-, _, _, rfl, ⟨k, rfl, hk⟩, -, g, us, rfl, hg, htake, hend⟩
    exact ⟨k, g, us, rfl, hk, hg, htake, hend⟩
  · rintro ⟨k, g, us, rfl, hk, hg, htake, hend⟩
    exact ⟨(), [k], _, rfl, ⟨k, rfl, hk⟩, (), g, us, rfl, hg, htake, hend⟩

/-- What comes of a table constraint behind its label. -/
def ConstraintComes (c : Cursor) (label us : List Token) (t t' : Table) (c' : Cursor) : Prop :=
  ∃ d ts rest, us = ts ++ rest ∧ Definition.Constraint label d ts rest ∧ d.addTo? t = some t' ∧
    c' = (c.jump (label ++ ts) rest).record d.entries

/-- The keywords that a table constraint can begin with. -/
def beginsConstraint : Keyword → Bool
  | .primary | .unique | .check | .foreign => true
  | _ => false

theorem kindOf_constraint {label ts rest : List Token} {d : Definition} (h : Definition.Constraint label d ts rest)
    (us : List Token) :
    ∃ k, (kindOf (ts ++ us)).keyword? = some k ∧ beginsConstraint k = true := by
  cases h with
  | key hp => exact ⟨_, hp, rfl⟩
  | unique hu => exact ⟨_, hu, rfl⟩
  | check hc => exact ⟨_, hc, rfl⟩
  | foreignKey hf => exact ⟨_, hf, rfl⟩

section
variable {c c' : Cursor} {label us : List Token} {u : Token} {t t' : Table}

theorem primary_comes (hu : u.keyword? = some .primary) :
    tableConstraintTail c.read.length t (some .primary) (c.jump label (u :: us)) = .ok t' c' ↔
      ConstraintComes c label (u :: us) t t' c' := by
  unfold tableConstraintTail
  dsimp only
  rw [skip_bind rfl, Cursor.jump_jump, takes_keyConstraint]
  constructor
  · rintro ⟨_, rest, rfl, ⟨parts, vs, conflict, k, l, r, rfl, hk, hl, hparts, hr, hconflict, hkey⟩, rfl⟩
    refine ⟨_, _, rest, rfl, .key hu hk hl hparts hr hconflict, hkey, ?_⟩
    rw [Cursor.jump_jump, List.append_assoc]
    rfl
  · rintro ⟨d, ts, rest, hus, hd, hadd, rfl⟩
    cases hd with
    | key hp hk hl hparts hr hconflict =>
      obtain ⟨rfl, rfl⟩ := List.cons.inj hus
      refine ⟨_, rest, rfl, ⟨_, _, _, _, _, _, rfl, hk, hl, hparts, hr, hconflict, hadd⟩, ?_⟩
      rw [Cursor.jump_jump, List.append_assoc]
      rfl
    | unique hu' | check hu' | foreignKey hu' =>
      obtain ⟨rfl, -⟩ := List.cons.inj hus
      cases hu.symm.trans hu'

/-- A constraint that is discarded as a whole, with its label. -/
theorem discarded_comes {r : Reader Unit} {P : Unit → List Token → List Token → Prop} (h : Takes r P)
    (hP : ∀ ts rest, P () ts rest ↔ ∃ d, Definition.Constraint label d (u :: ts) rest)
    (hkept : ∀ {d ts rest}, Definition.Constraint label d (u :: ts) rest →
      d.addTo? t = some t ∧ d.entries = [entry none (label ++ u :: ts)]) :
    (skip >>= fun _ => r >>= fun _ => discardSince c.read.length none >>= fun _ => pure t) (c.jump label (u :: us)) = .ok t' c' ↔
      ConstraintComes c label (u :: us) t t' c' := by
  rw [skip_bind rfl, Cursor.jump_jump, discarding_eq_ok h]
  constructor
  · rintro ⟨rfl, ts, rest, rfl, hts, rfl⟩
    obtain ⟨d, hd⟩ := (hP ts rest).mp hts
    obtain ⟨hadd, hentries⟩ := hkept hd
    exact ⟨d, u :: ts, rest, rfl, hd, hadd, by rw [hentries, List.append_assoc]; rfl⟩
  · rintro ⟨d, ts, rest, hus, hd, hadd, rfl⟩
    obtain ⟨u', ts', rfl⟩ : ∃ u' ts', ts = u' :: ts' := by
      cases hd <;> exact ⟨_, _, rfl⟩
    obtain ⟨rfl, rfl⟩ := List.cons.inj hus
    obtain ⟨hsame, hentries⟩ := hkept hd
    refine ⟨Option.some.inj (hadd.symm.trans hsame), ts', rest, rfl, (hP ts' rest).mpr ⟨d, hd⟩, ?_⟩
    rw [hentries, List.append_assoc]
    rfl

theorem unique_comes (hu : u.keyword? = some .unique) :
    tableConstraintTail c.read.length t (some .unique) (c.jump label (u :: us)) = .ok t' c' ↔
      ConstraintComes c label (u :: us) t t' c' := by
  have hr : tableConstraintTail c.read.length t (some .unique) = skip >>= fun _ =>
      (parenthesized >>= fun _ => conflictClause) >>= fun _ => discardSince c.read.length none >>= fun _ => pure t := by
    simp only [bind_assoc]
    rfl
  rw [hr]
  refine discarded_comes takes_uniqueConstraint (fun ts rest => ⟨?_, ?_⟩) fun {d ts rest} hd => ?_
  · rintro ⟨g, conflict, rfl, hg, hconflict⟩
    exact ⟨_, .unique hu hg hconflict⟩
  · rintro ⟨d, hd⟩
    cases hd with
    | unique _ hg hconflict => exact ⟨_, _, rfl, hg, hconflict⟩
    | key hu' | check hu' | foreignKey hu' => cases hu.symm.trans hu'
  · cases hd with
    | unique => exact ⟨rfl, rfl⟩
    | key hu' | check hu' | foreignKey hu' => cases hu.symm.trans hu'

theorem check_comes (hu : u.keyword? = some .check) :
    tableConstraintTail c.read.length t (some .check) (c.jump label (u :: us)) = .ok t' c' ↔
      ConstraintComes c label (u :: us) t t' c' := by
  refine discarded_comes takes_parenthesized (fun ts rest => ⟨fun hg => ⟨_, .check hu hg⟩, ?_⟩) fun {d ts rest} hd => ?_
  · rintro ⟨d, hd⟩
    cases hd with
    | check _ hg => exact hg
    | key hu' | unique hu' | foreignKey hu' => cases hu.symm.trans hu'
  · cases hd with
    | check => exact ⟨rfl, rfl⟩
    | key hu' | unique hu' | foreignKey hu' => cases hu.symm.trans hu'

theorem foreignKey_comes (hu : u.keyword? = some .foreign) :
    tableConstraintTail c.read.length t (some .foreign) (c.jump label (u :: us)) = .ok t' c' ↔
      ConstraintComes c label (u :: us) t t' c' := by
  have hr : tableConstraintTail c.read.length t (some .foreign) = skip >>= fun _ =>
      (expectKeyword .key >>= fun _ => parenthesized >>= fun _ => toNextDefinition) >>= fun _ =>
        discardSince c.read.length none >>= fun _ => pure t := by
    simp only [bind_assoc]
    rfl
  rw [hr]
  refine discarded_comes takes_foreignKeyConstraint (fun ts rest => ⟨?_, ?_⟩) fun {d ts rest} hd => ?_
  · rintro ⟨k, g, vs, rfl, hk, hg, htake, hend⟩
    exact ⟨_, .foreignKey hu hk hg htake hend⟩
  · rintro ⟨d, hd⟩
    cases hd with
    | foreignKey _ hk hg htake hend => exact ⟨_, _, _, rfl, hk, hg, htake, hend⟩
    | key hu' | unique hu' | check hu' => cases hu.symm.trans hu'
  · cases hd with
    | foreignKey => exact ⟨rfl, rfl⟩
    | key hu' | unique hu' | check hu' => cases hu.symm.trans hu'

end

theorem tableConstraintTail_eq_ok {c c' : Cursor} {label us : List Token} {t t' : Table} :
    (current >>= fun first => tableConstraintTail c.read.length t first.keyword?) (c.jump label us) = .ok t' c' ↔
      ConstraintComes c label us t t' c' := by
  have hcurrent : (c.jump label us).current.keyword? = (kindOf us).keyword? := congrArg TokenKind.keyword? (Cursor.kind_current _)
  rw [bind_eq_of_ok (show current _ = .ok _ _ from rfl), hcurrent]
  have hno (h : ∀ k, (kindOf us).keyword? = some k → beginsConstraint k = false) : ¬ConstraintComes c label us t t' c' := by
    rintro ⟨d, ts, rest, rfl, hd, -⟩
    obtain ⟨k, hk, hbegins⟩ := kindOf_constraint hd rest
    rw [h k hk] at hbegins
    cases hbegins
  cases hkind : (kindOf us).keyword? with
  | none => exact iff_of_false (fun h => by cases h) (hno fun k hk => by rw [hkind] at hk; cases hk)
  | some k =>
    obtain ⟨u, us, rfl⟩ : ∃ u us', us = u :: us' := by
      cases us with
      | nil => cases hkind
      | cons u us => exact ⟨u, us, rfl⟩
    have hu : u.keyword? = some k := hkind
    cases k with
    | primary => exact primary_comes hu
    | unique => exact unique_comes hu
    | check => exact check_comes hu
    | foreign => exact foreignKey_comes hu
    | _ => exact iff_of_false (fun h => by cases h) (hno fun k hk => by rw [hkind] at hk; cases hk; rfl)

theorem records_tableConstraint (t : Table) :
    Records (tableConstraint t) fun t' es ts rest => ∃ label us d, ts = label ++ us ∧ Label label ∧
      Definition.Constraint label d us rest ∧ d.addTo? t = some t' ∧ es = d.entries := by
  intro c t' c'
  have hmark : tableConstraint t c = _ := bind_eq_of_ok (show mark c = .ok c.read.length c from rfl)
  have hlook : (atKeyword .constraint c) = .ok (c.current.keyword? == some .constraint) c := rfl
  have hcurrent : c.current.keyword? = (kindOf c.rest).keyword? := congrArg TokenKind.keyword? c.kind_current
  rw [hmark, bind_eq_of_ok hlook, hcurrent]
  by_cases hlabel : (kindOf c.rest).keyword? = some .constraint
  · obtain ⟨l, us, hc⟩ : ∃ l us, c.rest = l :: us := by
      cases hc : c.rest with
      | nil => rw [hc] at hlabel; cases hlabel
      | cons l us => exact ⟨l, us, rfl⟩
    have hl : l.keyword? = some .constraint := by rwa [hc] at hlabel
    have htail (n : Token) (rest : List Token) : _ ↔ ConstraintComes c [l, n] rest t t' c' := tableConstraintTail_eq_ok
    rw [hlabel, if_pos (by decide), skip_bind hc, bind_eq_ok]
    constructor
    · rintro ⟨name, _, hname, hrest⟩
      obtain ⟨_, rest, rfl, ⟨n, rfl, hn⟩, rfl⟩ := (takes_expectName ..).mp hname
      rw [Cursor.jump_jump] at hrest
      obtain ⟨d, ts, rest, rfl, hd, hadd, rfl⟩ := (htail n rest).mp hrest
      exact ⟨_, [l, n] ++ ts, rest, by rw [hc]; rfl, ⟨[l, n], ts, d, rfl, .given hl hn, hd, hadd, rfl⟩, rfl⟩
    · rintro ⟨_, _, rest, hts, ⟨label, vs, d, rfl, hlabelled, hd, hadd, rfl⟩, rfl⟩
      cases hlabelled with
      | @given l' n name hl' hn =>
        obtain ⟨rfl, rfl⟩ := List.cons.inj (hc.symm.trans hts)
        refine ⟨name, _, (takes_expectName ..).mpr ⟨[n], vs ++ rest, rfl, ⟨n, rfl, hn⟩, rfl⟩, ?_⟩
        rw [Cursor.jump_jump]
        exact (htail n _).mpr ⟨d, vs, rest, rfl, hd, hadd, rfl⟩
      | none =>
        obtain ⟨k, hk, hbegins⟩ := kindOf_constraint hd rest
        rw [hts, List.nil_append, hk] at hlabel
        cases hlabel
        cases hbegins
  · have htail : _ ↔ ConstraintComes c [] c.rest t t' c' := tableConstraintTail_eq_ok
    rw [if_neg (by simpa using hlabel)]
    refine Iff.trans htail ?_
    constructor
    · rintro ⟨d, ts, rest, hts, hd, hadd, rfl⟩
      exact ⟨_, ts, rest, hts, ⟨[], ts, d, rfl, .none, hd, hadd, rfl⟩, rfl⟩
    · rintro ⟨_, _, rest, hts, ⟨label, vs, d, rfl, hlabelled, hd, hadd, rfl⟩, rfl⟩
      cases hlabelled with
      | given hl' =>
        rw [hts] at hlabel
        exact absurd hl' hlabel
      | none => exact ⟨d, vs, rest, hts, hd, hadd, rfl⟩

/-! ## Definitions -/

theorem atTableConstraint_eq (c : Cursor) : atTableConstraint c = .ok (startsTableConstraint c.rest) c := by
  have hcurrent : c.current.keyword? = (kindOf c.rest).keyword? := congrArg TokenKind.keyword? c.kind_current
  have hfollowing : c.following.kind = kindOf c.rest.tail := by
    rw [Cursor.following, kindOf]
    cases c.rest.tail <;> rfl
  unfold atTableConstraint startsTableConstraint
  rw [bind_eq_of_ok (show following c = .ok c.following c from rfl), bind_eq_of_ok (show current c = .ok c.current c from rfl),
    hcurrent, Token.keyword?, hfollowing]
  cases (kindOf c.rest).keyword? with
  | none => rfl
  | some k => cases k <;> rfl

theorem startsTableConstraint_of_constraint {label ts rest us : List Token} {d : Definition} (hlabel : Label label)
    (hd : Definition.Constraint label d ts rest) : startsTableConstraint (label ++ ts ++ us) = true := by
  have hkind (t : Token) : t.kind.keyword? = t.keyword? := rfl
  unfold startsTableConstraint
  cases hlabel with
  | given hc => simp [hkind, hc]
  | none =>
    cases hd with
    | key hp hk => simp [hkind, hp, hk]
    | foreignKey hf hk => simp [hkind, hf, hk]
    | unique hu hg =>
      obtain ⟨l, vs, rfl, hl⟩ := group_eq_cons hg
      simp [hkind, hu, hl]
    | check hc hg =>
      obtain ⟨l, vs, rfl, hl⟩ := group_eq_cons hg
      simp [hkind, hc, hl]

theorem records_definition (t : Table) :
    Records (definition t) fun t' es ts rest => ∃ d : Definition, d.Spells ts rest ∧ d.addTo? t = some t' ∧ es = d.entries := by
  intro c t' c'
  have hlook : definition t c = _ := bind_eq_of_ok (atTableConstraint_eq c)
  rw [hlook]
  by_cases hstart : startsTableConstraint c.rest = true
  · rw [if_pos hstart, records_tableConstraint]
    constructor
    · rintro ⟨_, _, rest, hc, ⟨label, us, d, rfl, hlabel, hd, hadd, rfl⟩, rfl⟩
      exact ⟨_, label ++ us, rest, hc, ⟨d, .constraint hlabel hd, hadd, rfl⟩, rfl⟩
    · rintro ⟨_, ts, rest, hc, ⟨d, hspells, hadd, rfl⟩, rfl⟩
      cases hspells with
      | constraint hlabel hd => exact ⟨_, _, rest, hc, ⟨_, _, d, rfl, hlabel, hd, hadd, rfl⟩, rfl⟩
      | column hno =>
        rw [hc, List.cons_append, List.append_assoc, hno] at hstart
        cases hstart
  · rw [if_neg hstart]
    simp only [bind_eq_ok, pure_eq_ok, records_columnDefinition _ _ _]
    constructor
    · rintro ⟨_, _, ⟨_, _, rest, hc, ⟨name, sqlType, clauses, n, us, vs, rfl, hn, htype, hall, rfl, rfl⟩, rfl⟩, rfl, rfl⟩
      rw [hc, List.cons_append, List.append_assoc, Bool.not_eq_true] at hstart
      exact ⟨_, _, rest, hc, ⟨_, .column hstart hn htype hall, rfl, rfl⟩, rfl⟩
    · rintro ⟨_, ts, rest, hc, ⟨d, hspells, hadd, rfl⟩, rfl⟩
      cases hspells with
      | constraint hlabel hd => exact absurd (hc ▸ startsTableConstraint_of_constraint hlabel hd) hstart
      | column hno hn htype hall =>
        exact ⟨_, _, ⟨_, _, rest, hc, ⟨_, _, _, _, _, _, rfl, hn, htype, hall, rfl, rfl⟩, rfl⟩, Option.some.inj hadd, rfl⟩

/-! ## Statements -/

theorem takes_temporary :
    Takes (atKeyword .temp >>= fun b => atKeyword .temporary >>= fun b' => if (b || b') = true then skip else pure ())
      fun _ ts rest => (∃ t, ts = [t] ∧ (t.keyword? = some .temp ∨ t.keyword? = some .temporary)) ∨
        ts = [] ∧ (kindOf rest).keyword? ≠ some .temp ∧ (kindOf rest).keyword? ≠ some .temporary := by
  rw [either_bind _ _ fun b => if b = true then skip else pure ()]
  refine (((looks_atKeyword .temp).or (looks_atKeyword .temporary)).takes_skip (takes_pure ())).congr fun _ ts rest => ?_
  constructor
  · rintro (⟨t, rfl, ht⟩ | ⟨hno, -, rfl⟩)
    · exact .inl ⟨t, rfl, by simpa [Token.keyword?] using ht⟩
    · exact .inr ⟨rfl, by simpa using hno⟩
  · rintro (⟨t, rfl, ht⟩ | ⟨rfl, htemp, htemporary⟩)
    · exact .inl ⟨t, rfl, by simpa [Token.keyword?] using ht⟩
    · exact .inr ⟨by simp [htemp, htemporary], rfl, rfl⟩

theorem takes_ifNotExists :
    Takes (atKeyword .if >>= fun b =>
        if b = true then skip >>= fun _ => expectKeyword .not >>= fun _ => expectKeyword .exists else pure ())
      fun _ ts rest => IfNotExists ts rest := by
  have h := (looks_atKeyword .if).takes ((takes_expectKeyword .not).andThen (takes_expectKeyword .exists)) (takes_pure ())
  refine h.congr fun _ ts rest => ?_
  constructor
  · rintro (⟨i, _, rfl, hi, -, _, _, rfl, ⟨n, rfl, hn⟩, e, rfl, he⟩ | ⟨hno, -, rfl⟩)
    · exact .given (by simpa [Token.keyword?] using hi) hn he
    · exact .none (by simpa using hno)
  · rintro (⟨hi, hn, he⟩ | ⟨hno⟩)
    · exact .inl ⟨_, _, rfl, by simpa [Token.keyword?] using hi, (), [_], [_], rfl, ⟨_, rfl, hn⟩, _, rfl, he⟩
    · exact .inr ⟨by simpa using hno, rfl, rfl⟩

/-- A token that is skipped if it is there, before more is read in either case. -/
theorem ite_skip_bind {β : Type} (b : Bool) (f : Unit → Reader β) :
    (if b = true then skip >>= f else f ()) = (if b = true then skip else pure ()) >>= f := by
  cases b <;> rfl

theorem takes_createTable : Takes createTable fun _ ts rest => ∃ c temporary b exists?, ts = c :: (temporary ++ b :: exists?) ∧
    c.keyword? = some .create ∧ Temporary temporary ∧ b.keyword? = some .table ∧ IfNotExists exists? rest := by
  have h := (takes_expectKeyword .create).andThen
    (takes_temporary.andThen ((takes_expectKeyword .table).andThen takes_ifNotExists))
  simp only [bind_assoc, ← ite_skip_bind] at h
  refine Takes.congr h fun _ ts rest => ?_
  constructor
  · rintro ⟨-, _, _, rfl, ⟨c, rfl, hc⟩, -, us, _, rfl, htemporary, -, _, vs, rfl, ⟨b, rfl, hb⟩, hexists⟩
    refine ⟨c, us, b, vs, rfl, hc, ?_, hb, hexists⟩
    obtain ⟨t, rfl, ht⟩ | ⟨rfl, -⟩ := htemporary
    · exact .given ht
    · exact .none
  · rintro ⟨c, temporary, b, exists?, rfl, hc, htemporary, hb, hexists⟩
    refine ⟨(), [c], _, rfl, ⟨c, rfl, hc⟩, (), temporary, _, rfl, ?_, (), [b], exists?, rfl, ⟨b, rfl, hb⟩, hexists⟩
    cases htemporary with
    | given ht => exact .inl ⟨_, rfl, ht⟩
    | none =>
      have hkind : (kindOf (b :: exists? ++ rest)).keyword? = some .table := hb
      exact .inr ⟨rfl, by rw [hkind]; decide, by rw [hkind]; decide⟩

theorem takes_tableName : Takes tableName fun name ts rest => TableName name ts ∧ (ts.length = 1 → kindOf rest ≠ .dot) := by
  have h := takes_expectName.bind fun name => (looks_atKind (k := .dot) (by decide)).takes takes_expectName (takes_pure name)
  refine h.congr fun name ts rest => ?_
  constructor
  · rintro ⟨schema, _, _, rfl, ⟨s, rfl, hs⟩, ⟨d, _, rfl, hd, t, rfl, ht⟩ | ⟨hno, rfl, rfl⟩⟩
    · exact ⟨.qualified hs (by simpa using hd) ht, by simp⟩
    · exact ⟨.bare hs, fun _ => by simpa using hno⟩
  · rintro ⟨⟨ht⟩ | ⟨hs, hd, ht⟩, hdot⟩
    · exact ⟨name, [_], [], rfl, ⟨_, rfl, ht⟩, .inr ⟨by simpa using hdot rfl, rfl, rfl⟩⟩
    · exact ⟨_, [_], [_, _], rfl, ⟨_, rfl, hs⟩, .inl ⟨_, _, rfl, by simpa using hd, _, rfl, ht⟩⟩

/-- What an option makes of the table. -/
def addOption (withoutRowid : Bool) (o : TableOption) : Bool := withoutRowid || o == .withoutRowid

theorem not_without_of_strict {t : Token} (h : t.kind.isWord "STRICT" = true) : t.kind.keyword? ≠ some .without := by
  cases hk : t.kind with
  | keyword k => rw [hk] at h; cases h
  | _ => simp [TokenKind.keyword?]

theorem takes_tableOption (b : Bool) : Takes (tableOption b) fun turn ts rest =>
    (∃ o us vs, ts = us ++ vs ∧ o.Spells us ∧ ((∃ comma, vs = [comma] ∧ comma.kind = .comma ∧ turn = .again (addOption b o)) ∨
      vs = [] ∧ kindOf rest ≠ .comma ∧ turn = .done (addOption b o))) ∨
    ts = [] ∧ (kindOf rest).keyword? ≠ some .without ∧ (kindOf rest).isWord "STRICT" = false ∧ turn = .done b := by
  have h := (looks_atKeyword .without).takes ((takes_expectWord "ROWID").andThen (takes_turnAtComma true))
    ((looks_atWord "STRICT").takes (takes_turnAtComma b) (takes_pure (.done b : Turn Bool Bool)))
  refine h.congr fun turn ts rest => ?_
  constructor
  · rintro (⟨w, _, rfl, hw, -, _, vs, rfl, ⟨t, rfl, ht⟩, hturn⟩ | ⟨hwithout, ⟨t, vs, rfl, ht, hturn⟩ | ⟨hstrict, rfl, rfl⟩⟩)
    · refine .inl ⟨.withoutRowid, [w, t], vs, rfl, .withoutRowid (by simpa [Token.keyword?] using hw) ht, ?_⟩
      rwa [show addOption b .withoutRowid = true from Bool.or_true b]
    · refine .inl ⟨.strict, [t], vs, rfl, .strict ht, ?_⟩
      rwa [show addOption b .strict = b from Bool.or_false b]
    · exact .inr ⟨rfl, by simpa using hwithout, hstrict, rfl⟩
  · rintro (⟨o, _, vs, rfl, ⟨hw, ht⟩ | ⟨ht⟩, hturn⟩ | ⟨rfl, hwithout, hstrict, rfl⟩)
    · rw [show addOption b .withoutRowid = true from Bool.or_true b] at hturn
      exact .inl ⟨_, _, rfl, by simpa [Token.keyword?] using hw, (), [_], vs, rfl, ⟨_, rfl, ht⟩, hturn⟩
    · rw [show addOption b .strict = b from Bool.or_false b] at hturn
      exact .inr ⟨by simpa using not_without_of_strict ht, .inl ⟨_, vs, rfl, ht, hturn⟩⟩
    · exact .inr ⟨by simpa using hwithout, .inr ⟨hstrict, rfl, rfl⟩⟩

theorem takes_tableOptions (withoutRowid : Bool) : Takes (loop tableOption withoutRowid) fun b ts rest =>
    ∃ options, TableOption.All options ts rest ∧ b = options.foldl addOption withoutRowid := by
  have hturn (b : Bool) := (takes_tableOption b).records
  refine Records.takes ((records_loop hturn withoutRowid).congr fun b es ts rest => ⟨fun h => ?_, ?_⟩)
  · induction h with
    | done h =>
      obtain ⟨rfl, ⟨o, us, _, rfl, ho, ⟨_, -, -, hagain⟩ | ⟨rfl, hrest, hlast⟩⟩ | ⟨rfl, hwithout, hstrict, hlast⟩⟩ := h
      · cases hagain
      · cases hlast
        rw [List.append_nil]
        exact ⟨rfl, [o], .last ho hrest, rfl⟩
      · cases hlast
        exact ⟨rfl, [], .nil hwithout hstrict, rfl⟩
    | again h _ ih =>
      obtain ⟨rfl, ⟨o, us, _, rfl, ho, ⟨comma, rfl, hcomma, hagain⟩ | ⟨-, -, hlast⟩⟩ | ⟨-, -, -, hlast⟩⟩ := h
      · cases hagain
        obtain ⟨rfl, os, hos, rfl⟩ := ih
        rw [List.append_assoc, List.singleton_append]
        exact ⟨rfl, o :: os, .cons ho hcomma hos, rfl⟩
      · cases hlast
      · cases hlast
  · rintro ⟨rfl, options, hall, rfl⟩
    induction hall generalizing withoutRowid with
    | nil hwithout hstrict => exact .done ⟨rfl, .inr ⟨rfl, hwithout, hstrict, rfl⟩⟩
    | @last o ts rest ho hrest => exact .done ⟨rfl, .inl ⟨o, ts, [], (List.append_nil ts).symm, ho, .inr ⟨rfl, hrest, rfl⟩⟩⟩
    | @cons o os ts us rest comma ho hcomma _ ih =>
      have hts : ts ++ comma :: us = (ts ++ [comma]) ++ us := by simp
      rw [hts]
      exact .again ⟨rfl, .inl ⟨o, ts, [comma], rfl, ho, .inl ⟨comma, rfl, hcomma, rfl⟩⟩⟩ (ih (addOption withoutRowid o))

theorem foldl_addOption (b : Bool) (options : List TableOption) :
    options.foldl addOption b = (b || options.contains .withoutRowid) := by
  induction options generalizing b with
  | nil => simp
  | cons o os ih =>
    rw [List.foldl_cons, ih, addOption, List.contains_cons, Bool.or_assoc]
    cases o <;> rfl

theorem takes_noMore : Takes (atKind .eof >>= fun b => if (!b) = true then unexpected .endOfStatement else pure () : Reader Unit)
    fun _ ts rest => ts = [] ∧ kindOf rest = .eof := by
  intro c u c'
  rw [bind_eq_of_ok (show atKind .eof c = .ok (c.current.kind == .eof) c from rfl), Cursor.kind_current]
  by_cases hend : kindOf c.rest = .eof
  · rw [hend]
    constructor
    · intro h
      cases h
      exact ⟨[], c.rest, rfl, ⟨rfl, hend⟩, rfl⟩
    · rintro ⟨_, rest, hc, ⟨rfl, -⟩, rfl⟩
      obtain rfl : c.rest = rest := hc
      rfl
  · rw [beq_false_of_ne hend]
    refine iff_of_false (fun h => by cases h) ?_
    rintro ⟨_, rest, hc, ⟨rfl, hrest⟩, rfl⟩
    rw [hc] at hend
    exact hend hrest

theorem takes_endOfStatement : Takes endOfStatement fun _ ts rest => Semicolon ts ∧ kindOf rest = .eof := by
  have h := ((looks_atKind (k := .semicolon) (by decide)).takes_skip (takes_pure ())).andThen takes_noMore
  simp only [bind_assoc, ← ite_skip_bind] at h
  refine Takes.congr h fun _ ts rest => ?_
  constructor
  · rintro ⟨-, _, _, rfl, ⟨t, rfl, ht⟩ | ⟨-, -, rfl⟩, rfl, hend⟩
    · exact ⟨.given (by simpa using ht), hend⟩
    · exact ⟨.none, hend⟩
  · rintro ⟨⟨ht⟩ | _, hend⟩
    · exact ⟨(), [_], [], rfl, .inl ⟨_, rfl, by simpa using ht⟩, rfl, hend⟩
    · refine ⟨(), [], [], rfl, .inr ⟨?_, trivial, rfl⟩, rfl, hend⟩
      simp [hend]

/-- A token that does not pass is not taken, and `s` reads on; before any other one the reading fails. -/
theorem Looks.records_unless {α : Type} {l : Reader Bool} {test : TokenKind → Bool} (hl : Looks l test) {r s : Reader α}
    {Q : α → List String → List Token → List Token → Prop} (hr : ∀ c a c', r c ≠ .ok a c') (hs : Records s Q) :
    Records (l >>= fun b => if b = true then r else s) fun a es ts rest =>
      test (kindOf (ts ++ rest)) = false ∧ Q a es ts rest := by
  intro c a c'
  rw [bind_eq_of_ok (hl.look c), Cursor.kind_current]
  by_cases htest : test (kindOf c.rest) = true
  · rw [if_pos htest]
    refine iff_of_false (hr c a c') ?_
    rintro ⟨_, ts, rest, hc, ⟨hno, -⟩, -⟩
    rw [hc, hno] at htest
    cases htest
  · rw [if_neg htest, hs]
    constructor
    · rintro ⟨es, ts, rest, hc, hQ, rfl⟩
      exact ⟨es, ts, rest, hc, ⟨by rw [← hc]; simpa using htest, hQ⟩, rfl⟩
    · rintro ⟨es, ts, rest, hc, ⟨-, hQ⟩, rfl⟩
      exact ⟨es, ts, rest, hc, hQ, rfl⟩

/-- The table that is made of `t`, without a row id or with one. -/
def finish? (t : Table) (withoutRowid : Bool) : Option Table :=
  if withoutRowid then if t.primaryKey.isEmpty then none else some (t.setWithoutRowid true) else some t

theorem fields_finish? {t t' : Table} {withoutRowid : Bool} (h : finish? t withoutRowid = some t') :
    t'.fields = t.fields ∧ t'.keyOrder = t.keyOrder := by
  unfold finish? at h
  split at h
  · split at h
    · cases h
    · cases h
      exact ⟨rfl, rfl⟩
  · cases h
    exact ⟨rfl, rfl⟩

theorem takes_finish (t : Table) (withoutRowid : Bool) :
    Takes (if withoutRowid = true then
        if t.primaryKey.isEmpty = true then
          previousSpan >>= fun span => (fail .withoutRowidWithoutKey span : Reader Unit) >>= fun _ =>
            pure (t.setWithoutRowid true)
        else pure (t.setWithoutRowid true)
      else pure t) fun t' ts _ => finish? t withoutRowid = some t' ∧ ts = [] := by
  unfold finish?
  cases withoutRowid with
  | false => exact (takes_pure t).congr fun _ _ _ => by simp [eq_comm]
  | true =>
    cases t.primaryKey.isEmpty with
    | false => exact (takes_pure _).congr fun _ _ _ => by simp [eq_comm]
    | true => exact (takes_never fun _ _ _ h => by cases h).congr fun _ _ _ => by simp

/-- What follows the definitions of a table. -/
theorem takes_afterDefinitions (t : Table) :
    Takes (expectKind .rightParen >>= fun _ => loop tableOption false >>= fun withoutRowid => endOfStatement >>= fun _ =>
        if withoutRowid = true then
          if t.primaryKey.isEmpty = true then
            previousSpan >>= fun span => (fail .withoutRowidWithoutKey span : Reader Unit) >>= fun _ =>
              pure (t.setWithoutRowid true)
          else pure (t.setWithoutRowid true)
        else pure t) fun t' ts rest => ∃ r vs semicolon options, ts = r :: (vs ++ semicolon) ∧ r.kind = .rightParen ∧
      TableOption.All options vs (semicolon ++ rest) ∧ Semicolon semicolon ∧ kindOf rest = .eof ∧
      finish? t (options.contains .withoutRowid) = some t' := by
  have h := (takes_expectKind (k := .rightParen) (by decide)).andThen ((takes_tableOptions false).bind fun withoutRowid =>
    takes_endOfStatement.andThen (takes_finish t withoutRowid))
  refine h.congr fun t' ts rest => ?_
  constructor
  · rintro ⟨-, _, _, rfl, ⟨r, rfl, hr⟩, _, vs, _, rfl, ⟨options, hoptions, rfl⟩, -, semicolon, _, rfl,
      ⟨hsemicolon, hend⟩, hfinish, rfl⟩
    rw [foldl_addOption, Bool.false_or] at hfinish
    rw [List.append_nil] at hoptions ⊢
    exact ⟨r, vs, semicolon, options, rfl, hr, hoptions, hsemicolon, hend, hfinish⟩
  · rintro ⟨r, vs, semicolon, options, rfl, hr, hoptions, hsemicolon, hend, hfinish⟩
    have hfold : options.foldl addOption false = options.contains .withoutRowid := foldl_addOption false options
    exact ⟨(), [r], _, rfl, ⟨r, rfl, hr⟩, _, vs, _, rfl, ⟨options, hoptions, hfold.symm⟩, (), semicolon, [],
      (List.append_nil _).symm, ⟨hsemicolon, hend⟩, hfinish, rfl⟩

theorem takes_beforeDefinitions : Takes (createTable >>= fun _ => tableName) fun name ts rest => ∃ c temporary b exists? us,
    ts = c :: (temporary ++ b :: (exists? ++ us)) ∧ c.keyword? = some .create ∧ Temporary temporary ∧ b.keyword? = some .table ∧
      IfNotExists exists? (us ++ rest) ∧ TableName name us ∧ (us.length = 1 → kindOf rest ≠ .dot) := by
  refine (takes_createTable.andThen takes_tableName).congr fun name ts rest => ?_
  constructor
  · rintro ⟨-, _, us, rfl, ⟨c, temporary, b, exists?, rfl, hc, htemporary, hb, hexists⟩, hname⟩
    exact ⟨c, temporary, b, exists?, us, by simp, hc, htemporary, hb, hexists, hname⟩
  · rintro ⟨c, temporary, b, exists?, us, rfl, hc, htemporary, hb, hexists, hname⟩
    exact ⟨(), c :: (temporary ++ b :: exists?), us, by simp, ⟨c, temporary, b, exists?, rfl, hc, htemporary, hb, hexists⟩,
      hname⟩

theorem records_definitions (name : String) :
    Records (expectKind .leftParen >>= fun _ => loop (fun t => definition t >>= turnAtComma) { name }) fun t es ts rest =>
      ∃ l us ds, ts = l :: us ∧ l.kind = .leftParen ∧ CommaList Definition.Spells ds us rest ∧
        ds.foldlM Definition.addTo? { name } = some t ∧ es = ds.flatMap Definition.entries := by
  refine ((takes_expectKind (k := .leftParen) (by decide)).records.bind fun _ => records_commaList records_definition _).congr
    fun t es ts rest => ?_
  constructor
  · rintro ⟨-, _, _, _, us, rfl, rfl, ⟨rfl, l, rfl, hl⟩, ds, hds, hfold, rfl⟩
    exact ⟨l, us, ds, rfl, hl, hds, hfold, rfl⟩
  · rintro ⟨l, us, ds, rfl, hl, hds, hfold, rfl⟩
    exact ⟨(), [], _, [l], us, rfl, rfl, ⟨rfl, l, rfl, hl⟩, ds, hds, hfold, rfl⟩

theorem table?_mk (name : String) (ds : List Definition) (options : List TableOption) :
    Statement.table? ⟨name, ds, options⟩ =
      (ds.foldlM Definition.addTo? { name }).bind fun t => finish? t (options.contains .withoutRowid) := rfl

theorem records_table : Records table fun t es ts rest =>
    ∃ x : Statement, x.Spells ts rest ∧ x.table? = some t ∧ es = x.entries := by
  have h := takes_beforeDefinitions.records.bind fun name =>
    (looks_atKeyword .as).records_unless (r := current >>= fun t => fail .noColumns t.span) (fun _ _ _ h => by cases h)
      ((records_definitions name).bind fun t => (takes_afterDefinitions t).records)
  simp only [bind_assoc] at h
  refine Records.congr h fun t es ts rest => ?_
  constructor
  · rintro ⟨name, _, _, _, _, rfl, rfl, ⟨rfl, c, temporary, b, exists?, us, rfl, hc, htemporary, hb, hexists, hname, -⟩, -,
      t₀, _, _, _, _, rfl, rfl, ⟨l, vs, ds, rfl, hl, hds, hfold, rfl⟩,
      rfl, r, ws, semicolon, options, rfl, hr, hoptions, hsemicolon, hend, hfinish⟩
    simp only [List.append_assoc, List.cons_append, List.append_nil] at hexists hds ⊢
    refine ⟨⟨name, ds, options⟩, .mk hc htemporary hb hexists hname hl hds hr hoptions hsemicolon hend, ?_, rfl⟩
    rw [table?_mk, hfold]
    exact hfinish
  · rintro ⟨_, @⟨c, b, l, r, temporary, exists?, us, vs, ws, semicolon, _, name, ds, options, hc, htemporary, hb, hexists,
      hname, hl, hds, hr, hoptions, hsemicolon, hend⟩, htable, rfl⟩
    rw [table?_mk] at htable
    obtain ⟨t₀, hfold, hfinish⟩ := Option.bind_eq_some_iff.mp htable
    refine ⟨name, [], _, c :: (temporary ++ b :: (exists? ++ us)), l :: (vs ++ r :: (ws ++ semicolon)), rfl, by simp,
      ⟨rfl, c, temporary, b, exists?, us, rfl, hc, htemporary, hb, by simpa using hexists, hname, ?_⟩, ?_,
      t₀, _, [], l :: vs, r :: (ws ++ semicolon), (List.append_nil _).symm, rfl, ⟨l, vs, ds, rfl, hl, by simpa using hds, hfold,
      rfl⟩, rfl, r, ws, semicolon, options, rfl, hr, hoptions, hsemicolon, hend, hfinish⟩
    · simp [hl]
    · simp [hl, TokenKind.keyword?]

end Reader

/-! ## Tables of statements -/

namespace Grammar

def Statement.SpellsText (x : Statement) (s : String) : Prop :=
  ∃ ts rest : List Token, tokenize s = ts ++ rest ∧ x.Spells ts rest

def Definition.field? : Definition → Option Field
  | column name sqlType clauses => some (field name sqlType clauses)
  | key _ | unique _ | check _ | foreignKey _ => none

section
variable {β : Type} {g : Field → β} (hg : ∀ f, g f.asPrimaryKey = g f)

include hg in
theorem map_modifyField? {t t' : Table} {name : String} (h : t.modifyField? name Field.asPrimaryKey = some t') :
    t'.fields.map g = t.fields.map g := by
  obtain ⟨i, -, rfl⟩ := Option.map_eq_some_iff.mp h
  refine List.ext_getElem? fun j => ?_
  simp only [List.getElem?_map, List.getElem?_modify]
  cases t.fields[j]? with
  | none => rfl
  | some f => by_cases hij : i = j <;> simp [hij, hg]

include hg in
theorem map_addTo? {keys keys' : Reader.KeyList} {parts : List KeyPart} (h : parts.foldlM KeyPart.addTo? keys = some keys') :
    keys'.table.fields.map g = keys.table.fields.map g := by
  induction parts generalizing keys with
  | nil => cases h; rfl
  | cons k parts ih =>
    rw [List.foldlM_cons] at h
    obtain ⟨keys₁, hk, hparts⟩ := Option.bind_eq_some_iff.mp h
    refine (ih hparts).trans ?_
    unfold KeyPart.addTo? at hk
    split at hk
    · next f t _ hmodify =>
      cases hk
      exact map_modifyField? hg hmodify
    · cases hk

include hg in
/-- A definition adds its column, if it has one, and a key marks columns that are there. -/
theorem map_fields_addTo? {t t' : Table} {d : Definition} (h : d.addTo? t = some t') :
    t'.fields.map g = t.fields.map g ++ (d.field?.map g).toList := by
  cases d with
  | column name sqlType clauses =>
    cases h
    simp [Table.addField, Definition.field?]
  | key parts =>
    obtain ⟨keys, hkeys, rfl⟩ := Option.map_eq_some_iff.mp h
    simpa [Definition.field?, Table.setPrimaryKeyOrder] using map_addTo? hg hkeys
  | unique _ | check _ | foreignKey _ =>
    cases h
    simp [Definition.field?]

include hg in
theorem map_fields_foldlM {t t' : Table} {ds : List Definition} (h : ds.foldlM Definition.addTo? t = some t') :
    t'.fields.map g = t.fields.map g ++ (ds.filterMap Definition.field?).map g := by
  induction ds generalizing t with
  | nil => cases h; simp
  | cons d ds ih =>
    rw [List.foldlM_cons] at h
    obtain ⟨t₁, hd, hds⟩ := Option.bind_eq_some_iff.mp h
    rw [ih hds, map_fields_addTo? hg hd]
    cases hfield : d.field? <;> simp [hfield]

include hg in
/-- The columns of the table are those of the statement, but for the keys that mark them. -/
theorem Statement.map_fields {x : Statement} {t : Table} (h : x.table? = some t) :
    t.fields.map g = (x.definitions.filterMap Definition.field?).map g := by
  rw [show x.table? = _ from Reader.table?_mk x.name x.definitions x.options] at h
  obtain ⟨t₀, hfold, hfinish⟩ := Option.bind_eq_some_iff.mp h
  rw [(Reader.fields_finish? hfinish).1, map_fields_foldlM hg hfold]
  rfl

end

end Grammar

namespace Table

/-- The statements that are read are those of the grammar. -/
theorem parse_eq_ok_iff {s : String} {t : Table} : parse s = .ok t ↔ ∃ x : Statement, x.SpellsText s ∧ x.table? = some t := by
  constructor
  · intro h
    unfold parse at h
    split at h
    · next t' c' hread =>
      cases h
      obtain ⟨_, ts, rest, hs, ⟨x, hx, ht, -⟩, -⟩ := (Reader.records_table ..).mp hread
      exact ⟨x, ⟨ts, rest, hs, hx⟩, ht⟩
    · cases h
  · rintro ⟨x, ⟨ts, rest, hs, hx⟩, ht⟩
    have hread : readStatement s = _ := (Reader.records_table ..).mpr ⟨_, ts, rest, hs, ⟨x, hx, ht, rfl⟩, rfl⟩
    rw [parse, hread]

/-- What is discarded are the clauses that the model has no place for. -/
theorem discardedClauses_eq {s : String} {x : Statement} {t : Table} (hx : x.SpellsText s) (ht : x.table? = some t) :
    discardedClauses s = x.entries := by
  obtain ⟨ts, rest, hs, hx⟩ := hx
  have hread : readStatement s = _ := (Reader.records_table ..).mpr ⟨_, ts, rest, hs, ⟨x, hx, ht, rfl⟩, rfl⟩
  rw [discardedClauses, hread]
  simp [Cursor.record, Cursor.jump, Cursor.start]

end Table

end SchemaEditor
