import SchemaEditor.Proofs.Table.Grammar

/-!
# Reading clauses by the grammar

Each reader of a part of a column takes the tokens that spell such a part, and no others. So the loop over the
clauses of a column takes all of them, and each either changes the column or is discarded with its source.
-/

namespace SchemaEditor

open Grammar

namespace Reader

/-! ## Parts of clauses -/

/-- Two tests of the first token, of which one has to pass. -/
theorem Looks.or {l l' : Reader Bool} {test test' : TokenKind → Bool} (hl : Looks l test) (hl' : Looks l' test') :
    Looks (l >>= fun b => l' >>= fun b' => pure (b || b')) fun k => test k || test' k :=
  ⟨fun c => by rw [bind_eq_of_ok (hl.look c), bind_eq_of_ok (hl'.look c)]; rfl, by rw [hl.eof, hl'.eof]; rfl⟩

theorem either_bind {β : Type} (l l' : Reader Bool) (f : Bool → Reader β) :
    (l >>= fun b => l' >>= fun b' => f (b || b')) = (l >>= fun b => l' >>= fun b' => pure (b || b')) >>= f := by
  simp only [bind_assoc, pure_bind]

theorem takes_sortOrder : Takes sortOrder fun _ ts rest => SortOrder ts rest := by
  have hlook := (looks_atKeyword .asc).or (looks_atKeyword .desc)
  have heq : sortOrder = _ := either_bind _ _ fun b => if b = true then skip else pure ()
  rw [heq]
  refine (hlook.takes_skip (takes_pure ())).congr fun _ ts rest => ?_
  constructor
  · rintro (⟨t, rfl, ht⟩ | ⟨hno, -, rfl⟩)
    · exact .given (by simpa [Token.keyword?] using ht)
    · have hno' : (kindOf rest).keyword? ≠ some .asc ∧ (kindOf rest).keyword? ≠ some .desc := by simpa using hno
      exact .none hno'.1 hno'.2
  · rintro (⟨ht⟩ | ⟨hasc, hdesc⟩)
    · exact .inl ⟨_, rfl, by simpa [Token.keyword?] using ht⟩
    · exact .inr ⟨by simp [hasc, hdesc], rfl, rfl⟩

theorem takes_resolution :
    Takes (current >>= fun t => if isResolution t.keyword? = true then skip else unexpected .resolution) fun _ ts _ =>
      ∃ t, ts = [t] ∧ isResolution t.keyword? = true := by
  have hlook : Looks (current >>= fun t => pure (isResolution t.keyword?)) fun k => isResolution k.keyword? :=
    ⟨fun _ => rfl, rfl⟩
  have h := hlook.takes_expect .resolution
  rwa [bind_assoc] at h

theorem takes_conflictClause : Takes conflictClause fun _ ts rest => Conflict ts rest := by
  have h := (looks_atKeyword .on).takes ((takes_expectKeyword .conflict).andThen takes_resolution) (takes_pure ())
  refine Takes.congr h fun _ ts rest => ?_
  constructor
  · rintro (⟨o, _, rfl, ho, _, _, _, rfl, ⟨c, rfl, hc⟩, r, rfl, hr⟩ | ⟨hno, -, rfl⟩)
    · exact .given (by simpa [Token.keyword?] using ho) hc hr
    · exact .none (by simpa using hno)
  · rintro (⟨ho, hc, hr⟩ | ⟨hno⟩)
    · exact .inl ⟨_, _, rfl, by simpa [Token.keyword?] using ho, (), [_], [_], rfl, ⟨_, rfl, hc⟩, _, rfl, hr⟩
    · exact .inr ⟨by simpa using hno, rfl, rfl⟩

theorem takes_parenthesized : Takes parenthesized fun _ ts _ => Group ts := by
  intro c u c'
  rw [parenthesized_eq_ok]
  constructor
  · rintro ⟨l, ts, r, rest, hc, hl, hts, hr, rfl⟩
    exact ⟨_, rest, by rw [hc]; simp, .mk hl hts hr, rfl⟩
  · rintro ⟨_, rest, hc, ⟨hl, hts, hr⟩, rfl⟩
    exact ⟨_, _, _, rest, by rw [hc]; simp, hl, hts, hr, rfl⟩

theorem takes_generatedTail : Takes generatedTail fun _ ts rest => Generated ts rest := by
  have hlook := (looks_atWord "STORED").or (looks_atWord "VIRTUAL")
  have heq : generatedTail = parenthesized >>= fun _ => _ :=
    congrArg (parenthesized >>= ·) (funext fun _ => either_bind _ _ fun b => if b = true then skip else pure ())
  rw [heq]
  refine (takes_parenthesized.andThen (hlook.takes_skip (takes_pure ()))).congr fun _ ts rest => ?_
  constructor
  · rintro ⟨-, us, _, rfl, hg, ⟨t, rfl, ht⟩ | ⟨hno, -, rfl⟩⟩
    · exact .stored hg (by simpa using ht)
    · have hno' : (kindOf rest).isWord "STORED" = false ∧ (kindOf rest).isWord "VIRTUAL" = false := by simpa using hno
      rw [List.append_nil]
      exact .bare hg hno'.1 hno'.2
  · rintro (⟨hg, ht⟩ | ⟨hg, hstored, hvirtual⟩)
    · exact ⟨(), _, _, rfl, hg, .inl ⟨_, rfl, by simpa using ht⟩⟩
    · exact ⟨(), _, [], (List.append_nil _).symm, hg, .inr ⟨by simp [hstored, hvirtual], rfl, rfl⟩⟩

/-- The words in front of what is no word. -/
theorem takeWhile_words {words rest : List Token} (hwords : ∀ t ∈ words, isTypeWord t = true)
    (hrest : ∀ t ∈ rest.head?, isTypeWord t = false) :
    (words ++ rest).takeWhile isTypeWord = words ∧ (words ++ rest).dropWhile isTypeWord = rest := by
  have hstop : rest.takeWhile isTypeWord = [] ∧ rest.dropWhile isTypeWord = rest := by
    cases rest with
    | nil => exact ⟨rfl, rfl⟩
    | cons r rest =>
      have hr : isTypeWord r = false := hrest r rfl
      simp [hr]
  rw [List.takeWhile_append_of_pos hwords, List.dropWhile_append_of_pos hwords, hstop.1, hstop.2, List.append_nil]
  exact ⟨rfl, rfl⟩

theorem head?_dropWhile_words (ts : List Token) : ∀ t ∈ (ts.dropWhile isTypeWord).head?, isTypeWord t = false := by
  intro t ht
  have h := List.head?_dropWhile_not isTypeWord ts
  rw [Option.mem_def.mp ht] at h
  simpa using h

theorem group_eq_cons {ts : List Token} (h : Group ts) : ∃ l us, ts = l :: us ∧ l.kind = .leftParen := by
  obtain ⟨hl, -, -⟩ := h
  exact ⟨_, _, rfl, hl⟩

theorem not_word_of_group {g : List Token} (hg : Group g) (rest : List Token) :
    ∀ t ∈ (g ++ rest).head?, isTypeWord t = false := by
  obtain ⟨l, us, rfl, hl⟩ := group_eq_cons hg
  intro t ht
  obtain rfl := Option.some.inj ht
  simp [isTypeWord, hl]

/-- A type is words and perhaps a group. -/
theorem isType_iff {ts : List Token} :
    IsType ts ↔ ∃ words g, ts = words ++ g ∧ words ≠ [] ∧ (∀ t ∈ words, isTypeWord t = true) ∧ (g = [] ∨ Group g) := by
  constructor
  · rintro (⟨hne, hwords⟩ | ⟨hne, hwords, hl, hinside, hr⟩)
    · exact ⟨_, [], (List.append_nil _).symm, hne, hwords, .inl rfl⟩
    · exact ⟨_, _, rfl, hne, hwords, .inr (.mk hl hinside hr)⟩
  · rintro ⟨words, g, rfl, hne, hwords, rfl | ⟨hl, hinside, hr⟩⟩
    · rw [List.append_nil]
      exact .words hne hwords
    · exact .sized hne hwords hl hinside hr

theorem isTypeWord_current (c : Cursor) : isTypeWord c.current = true ↔ c.rest.takeWhile isTypeWord ≠ [] := by
  rw [Cursor.current]
  cases c.rest with
  | nil => simp [Token.atEnd, isTypeWord]
  | cons t ts => by_cases ht : isTypeWord t = true <;> simp [ht]

/-- Where the reader of types stops: behind the words, or behind a group that follows them. -/
theorem typeName_eq_ok {c c' : Cursor} {s : String} {words after : List Token} (hc : c.rest = words ++ after)
    (hne : words ≠ [])
    (hwords : ∀ t ∈ words, isTypeWord t = true) (hafter : ∀ t ∈ after.head?, isTypeWord t = false) :
    typeName c = .ok s c' ↔ ∃ g rest, after = g ++ rest ∧ (Group g ∨ g = [] ∧ kindOf rest ≠ .leftParen) ∧
      s = String.ofList (Token.source (words ++ g)) ∧ c' = c.jump (words ++ g) rest := by
  obtain ⟨htake, hdrop⟩ := takeWhile_words hwords hafter
  rw [← hc] at htake hdrop
  rw [typeName_eq, if_pos ((isTypeWord_current c).mpr (by rwa [htake])), htake, hdrop]
  dsimp only
  rw [Cursor.kind_current, Cursor.rest_jump]
  by_cases hparen : kindOf after = .leftParen
  · rw [if_pos (by simp [hparen]), bind_eq_ok]
    constructor
    · rintro ⟨_, _, h₁, h₂⟩
      obtain ⟨g, rest, hrest, hg, rfl⟩ := (takes_parenthesized ..).mp h₁
      rw [Cursor.jump_jump] at h₂
      cases h₂
      exact ⟨g, rest, hrest, .inl hg, Cursor.sourceSince_jump .., rfl⟩
    · rintro ⟨g, rest, rfl, hg | ⟨rfl, hno⟩, rfl, rfl⟩
      · refine ⟨(), _, (takes_parenthesized ..).mpr ⟨g, rest, rfl, hg, rfl⟩, ?_⟩
        rw [Cursor.jump_jump, ← Cursor.sourceSince_jump c _ rest]
        rfl
      · exact absurd hparen hno
  · rw [if_neg (by simp [hparen]), Cursor.sourceSince_jump]
    constructor
    · intro h
      cases h
      exact ⟨[], after, rfl, .inr ⟨rfl, hparen⟩, by rw [List.append_nil], by rw [List.append_nil]⟩
    · rintro ⟨g, rest, rfl, hg | ⟨rfl, -⟩, rfl, rfl⟩
      · obtain ⟨l, us, rfl, hl⟩ := group_eq_cons hg
        exact absurd hl hparen
      · rw [List.append_nil]
        rfl

theorem takes_typeName : Takes typeName TypeName := by
  intro c s c'
  constructor
  · intro h
    have hsplit := (List.takeWhile_append_dropWhile (p := isTypeWord) (l := c.rest)).symm
    have hwords : ∀ t ∈ c.rest.takeWhile isTypeWord, isTypeWord t = true := fun t ht => List.mem_takeWhile_imp ht
    have hafter := head?_dropWhile_words c.rest
    by_cases hne : c.rest.takeWhile isTypeWord = []
    · rw [typeName_eq, if_neg (by rw [isTypeWord_current]; simp [hne])] at h
      cases h
      rw [hne, List.nil_append] at hsplit
      exact ⟨[], c.rest, rfl, by simpa [Cursor.sourceSince, Token.source] using TypeName.none (hsplit ▸ hafter), rfl⟩
    · obtain ⟨g, rest, hrest, hg, rfl, rfl⟩ := (typeName_eq_ok hsplit hne hwords hafter).mp h
      refine ⟨_, rest, by rw [List.append_assoc, ← hrest]; exact hsplit, .given ?_ fun hall => ?_, rfl⟩
      · exact isType_iff.mpr ⟨_, g, rfl, hne, hwords, hg.symm.imp_left And.left⟩
      · rcases hg with hg | ⟨rfl, hparen⟩
        · obtain ⟨l, us, rfl, hl⟩ := group_eq_cons hg
          have := hall l (by simp)
          simp [isTypeWord, hl] at this
        · rw [List.nil_append] at hrest
          exact ⟨hrest ▸ hafter, hparen⟩
  · rintro ⟨ts, rest, hc, ⟨htype, hend⟩ | ⟨hrest⟩, rfl⟩
    · obtain ⟨words, g, rfl, hne, hwords, rfl | hg⟩ := isType_iff.mp htype
      · rw [List.append_nil] at hc hend ⊢
        obtain ⟨hrest, hparen⟩ := hend hwords
        refine (typeName_eq_ok hc hne hwords hrest).mpr ⟨[], rest, rfl, .inr ⟨rfl, hparen⟩, ?_, ?_⟩ <;> rw [List.append_nil]
      · rw [List.append_assoc] at hc
        exact (typeName_eq_ok hc hne hwords (not_word_of_group hg rest)).mpr ⟨g, rest, rfl, .inl hg, rfl, rfl⟩
    · have hword : ¬isTypeWord c.current = true := by
        rw [isTypeWord_current, hc, List.nil_append]
        cases rest with
        | nil => simp
        | cons t ts => simp [hrest t rfl]
      have hstay : c.jump [] rest = c := by rw [show rest = c.rest from hc.symm, Cursor.jump_nil]
      rw [typeName_eq, if_neg hword, hstay]
      simp [Cursor.sourceSince, Token.source]

/-! ## Checks and references -/

theorem takes_closedExpression :
    Takes closedExpression fun s ts _ => ∃ us r,
      ts = us ++ [r] ∧ Enclosed us ∧ r.kind = .rightParen ∧ s = String.ofList (compact us) := by
  intro c s c'
  rw [closedExpression_eq_ok]
  constructor
  · rintro ⟨us, r, rest, hc, hus, hr, rfl, rfl⟩
    exact ⟨us ++ [r], rest, by simpa using hc, ⟨us, r, rfl, hus, hr, rfl⟩, rfl⟩
  · rintro ⟨_, rest, hc, ⟨us, r, rfl, hus, hr, rfl⟩, rfl⟩
    exact ⟨us, r, rest, by simpa using hc, hus, hr, rfl, rfl⟩

/-- A reader behind a token that is known to be there. -/
theorem skip_bind {α : Type} {r : Reader α} {c : Cursor} {t : Token} {rest : List Token} (hc : c.rest = t :: rest) :
    (skip >>= fun _ => r) c = r (c.jump [t] rest) := by
  rw [bind_eq_of_ok (show skip c = .ok () c.advance from rfl), Cursor.advance_eq_jump hc]

theorem takes_innerCheck_tail :
    Takes (expectKind .leftParen >>= fun _ => closedExpression >>= fun s => expectKind .rightParen >>= fun _ => pure s)
      fun s ts _ =>
      ∃ l us r' r, ts = l :: (us ++ [r', r]) ∧ l.kind = .leftParen ∧ Enclosed us ∧ r'.kind = .rightParen ∧ r.kind = .rightParen ∧
        s = String.ofList (compact us) := by
  have h := (takes_expectKind (k := .leftParen) (by decide)).andThen (takes_closedExpression.bind fun s =>
    (takes_expectKind (k := .rightParen) (by decide)).andThen (takes_pure s))
  refine h.congr fun s ts rest => ?_
  constructor
  · rintro ⟨-, _, _, rfl, ⟨l, rfl, hl⟩, _, _, _, rfl, ⟨us, r', rfl, hus, hr', rfl⟩, -, _, _, rfl, ⟨r, rfl, hr⟩, rfl, rfl⟩
    exact ⟨l, us, r', r, by simp, hl, hus, hr', hr, rfl⟩
  · rintro ⟨l, us, r', r, rfl, hl, hus, hr', hr, rfl⟩
    exact ⟨(), [l], _, rfl, ⟨l, rfl, hl⟩, _, us ++ [r'], [r], by simp, ⟨us, r', rfl, hus, hr', rfl⟩, (), [r], [], rfl,
      ⟨r, rfl, hr⟩, rfl, rfl⟩

theorem wrapsCheck_iff {c : Cursor} {column : String} : wrapsCheck column c = true ↔ WrapsCheck column c.rest := by
  rw [wrapsCheck, Cursor.current, Cursor.following]
  constructor
  · intro h
    simp only [Bool.and_eq_true, beq_iff_eq] at h
    cases hc : c.rest with
    | nil =>
      rw [hc] at h
      cases h.1
    | cons n rest =>
      rw [hc] at h
      cases rest with
      | nil => cases h.2
      | cons k us => exact ⟨n, k, us, rfl, h.1, h.2⟩
  · rintro ⟨n, k, us, hc, hn, hk⟩
    simp [hc, hn, hk]

/-- A parenthesis is neither a name nor a keyword. -/
theorem wrapsCheck_append {column : String} {ts rest : List Token} {r : Token} (hr : r.kind = .rightParen) :
    WrapsCheck column (ts ++ r :: rest) ↔ WrapsCheck column ts := by
  constructor
  · rintro ⟨n, k, us, h, hn, hk⟩
    match ts, h with
    | [], h =>
      obtain ⟨rfl, -⟩ := List.cons.inj h
      simp [nameOf?, hr] at hn
    | [_], h =>
      obtain ⟨-, h⟩ := List.cons.inj h
      obtain ⟨rfl, -⟩ := List.cons.inj h
      simp [Token.keyword?, TokenKind.keyword?, hr] at hk
    | t :: u :: ts, h =>
      obtain ⟨ht, h⟩ := List.cons.inj h
      obtain ⟨hu, -⟩ := List.cons.inj h
      exact ⟨t, u, ts, rfl, ht ▸ hn, hu ▸ hk⟩
  · rintro ⟨n, k, us, rfl, hn, hk⟩
    exact ⟨n, k, us ++ r :: rest, rfl, hn, hk⟩

theorem takes_checkExpression_tail (column : String) :
    Takes (current >>= fun first => following >>= fun second =>
        if (nameOf? first == some column && second.keyword? == some .check) = true then innerCheck else closedExpression)
      fun s ts _ => (∃ us r, ts = us ++ [r] ∧ Enclosed us ∧ r.kind = .rightParen ∧ ¬WrapsCheck column us ∧
          s = String.ofList (compact us)) ∨
        ∃ n k l us r' r, ts = n :: k :: l :: (us ++ [r', r]) ∧ nameOf? n = some column ∧ k.keyword? = some .check ∧
          l.kind = .leftParen ∧ Enclosed us ∧ r'.kind = .rightParen ∧ r.kind = .rightParen ∧ s = String.ofList (compact us) := by
  intro c s c'
  show (if wrapsCheck column c = true then innerCheck else closedExpression) c = _ ↔ _
  by_cases hwraps : wrapsCheck column c = true
  · obtain ⟨n, k, us, hc, hn, hk⟩ := wrapsCheck_iff.mp hwraps
    rw [if_pos hwraps, innerCheck, skip_bind hc, skip_bind rfl, takes_innerCheck_tail]
    constructor
    · rintro ⟨_, rest, hrest, ⟨l, vs, r', r, rfl, hl, hvs, hr', hr, rfl⟩, rfl⟩
      refine ⟨_, rest, ?_, .inr ⟨n, k, l, vs, r', r, rfl, hn, hk, hl, hvs, hr', hr, rfl⟩, ?_⟩
      · rw [hc]
        exact congrArg (n :: k :: ·) hrest
      · rw [Cursor.jump_jump, Cursor.jump_jump]
        rfl
    · rintro ⟨_, rest, hrest, ⟨vs, r, rfl, hvs, hr, hown, rfl⟩ | ⟨n', k', l, vs, r', r, rfl, -, -, hl, hvs, hr', hr, rfl⟩, rfl⟩
      · rw [List.append_assoc] at hrest
        refine absurd (wrapsCheck_iff.mp hwraps) ?_
        rw [hrest]
        exact mt (wrapsCheck_append hr).mp hown
      · obtain ⟨rfl, htail⟩ := List.cons.inj (hc.symm.trans hrest)
        obtain ⟨rfl, hus⟩ := List.cons.inj htail
        refine ⟨l :: (vs ++ [r', r]), rest, hus, ⟨l, vs, r', r, rfl, hl, hvs, hr', hr, rfl⟩, ?_⟩
        rw [Cursor.jump_jump, Cursor.jump_jump]
        rfl
  · have hown := mt wrapsCheck_iff.mpr hwraps
    rw [if_neg hwraps, takes_closedExpression]
    constructor
    · rintro ⟨_, rest, hrest, ⟨us, r, rfl, hus, hr, rfl⟩, rfl⟩
      rw [hrest, List.append_assoc] at hown
      exact ⟨_, rest, hrest, .inl ⟨us, r, rfl, hus, hr, mt (wrapsCheck_append hr).mpr hown, rfl⟩, rfl⟩
    · rintro ⟨_, rest, hrest, ⟨us, r, rfl, hus, hr, -, rfl⟩ | ⟨n, k, l, us, r', r, rfl, hn, hk, -⟩, rfl⟩
      · exact ⟨_, rest, hrest, ⟨us, r, rfl, hus, hr, rfl⟩, rfl⟩
      · exact absurd ⟨n, k, _, hrest, hn, hk⟩ hown

theorem takes_checkExpression (column : String) : Takes (checkExpression column) fun s ts _ => Check column s ts := by
  have h := (takes_expectKind (k := .leftParen) (by decide)).andThen (takes_checkExpression_tail column)
  refine Takes.congr h fun s ts rest => ?_
  constructor
  · rintro ⟨-, _, _, rfl, ⟨l, rfl, hl⟩, ⟨us, r, rfl, hus, hr, hown, rfl⟩ |
      ⟨n, k, l', us, r', r, rfl, hn, hk, hl', hus, hr', hr, rfl⟩⟩
    · exact .plain hl hus hr hown
    · exact .wrapped hl hn hk hl' hus hr' hr
  · rintro (⟨hl, hus, hr, hown⟩ | ⟨hl, hn, hk, hl', hus, hr', hr⟩)
    · exact ⟨(), [_], _, rfl, ⟨_, rfl, hl⟩, .inl ⟨_, _, rfl, hus, hr, hown, rfl⟩⟩
    · exact ⟨(), [_], _, rfl, ⟨_, rfl, hl⟩, .inr ⟨_, _, _, _, _, _, rfl, hn, hk, hl', hus, hr', hr, rfl⟩⟩

theorem takes_defaultValue : Takes defaultValue fun s ts _ => IsDefault ts s := by
  intro c s c'
  constructor
  · exact isDefault_of_ok
  · rintro ⟨ts, rest, hc, h, rfl⟩
    exact h.ok hc

/-- The clause goes on after the name of the other table until something ends it. -/
theorem takes_reference : Takes (expectName >>= fun _ => foreignKeyTail) fun _ ts rest =>
    ∃ t name us, ts = t :: us ∧ nameOf? t = some name ∧ takeForeignKey t.kind 0 (us ++ rest) = ⟨us, rest, 0⟩ := by
  intro c u c'
  rw [bind_eq_ok]
  have htail (t : Token) (rest : List Token) (c₁ : Cursor) : foreignKeyTail (c.jump [t] rest) = .ok u c₁ ↔
      ∃ us rest', rest = us ++ rest' ∧ takeForeignKey t.kind 0 (us ++ rest') = ⟨us, rest', 0⟩ ∧ c₁ = c.jump (t :: us) rest' := by
    have hprevious : ((c.jump [t] rest).read.head?.map Token.kind).getD .eof = t.kind := rfl
    have happend := takeForeignKey_append t.kind 0 rest
    unfold foreignKeyTail
    rw [hprevious]
    cases htake : takeForeignKey t.kind 0 rest with
    | mk taken left depth =>
      rw [Cursor.rest_jump, htake]
      rw [htake] at happend
      obtain rfl : taken ++ left = rest := happend
      constructor
      · intro h
        dsimp only at h
        split at h
        · next hdepth =>
          obtain rfl : depth = 0 := by simpa using hdepth
          cases h
          exact ⟨taken, left, rfl, htake, Cursor.jump_jump ..⟩
        · cases h
      · rintro ⟨us, rest', hus, htake', rfl⟩
        rw [← hus, htake] at htake'
        obtain ⟨rfl, rfl, rfl⟩ := ForeignKeyTail.mk.inj htake'
        dsimp only
        rw [Cursor.jump_jump]
        rfl
  constructor
  · rintro ⟨name, _, hname, hrest⟩
    obtain ⟨_, rest, hc, ⟨t, rfl, ht⟩, rfl⟩ := (takes_expectName ..).mp hname
    obtain ⟨us, rest', rfl, htake, rfl⟩ := (htail t rest c').mp hrest
    exact ⟨t :: us, rest', hc, ⟨t, name, us, rfl, ht, htake⟩, rfl⟩
  · rintro ⟨_, rest, hc, ⟨t, name, us, rfl, ht, htake⟩, rfl⟩
    exact ⟨name, c.jump [t] (us ++ rest), (takes_expectName ..).mpr ⟨[t], us ++ rest, hc, ⟨t, rfl, ht⟩, rfl⟩,
      (htail t _ _).mpr ⟨us, rest, rfl, htake, rfl⟩⟩

/-! ## Column clauses -/

section
variable (f : Field)

/-- The reader takes what follows the keyword of a clause that is kept. -/
def TakesClause (k : Keyword) (r : Reader Field) : Prop :=
  Takes r fun f' ts rest => ∃ p, ColumnPart.Tail f.name k p ts rest ∧ f' = p.apply f

theorem takes_constraintName : TakesClause f .constraint (expectName >>= fun _ => pure f) := by
  refine Takes.congr (takes_expectName.bind fun _ => takes_pure f) fun f' ts rest => ?_
  constructor
  · rintro ⟨name, _, _, rfl, ⟨t, rfl, ht⟩, rfl, rfl⟩
    exact ⟨_, .named ht, rfl⟩
  · rintro ⟨_, ht, rfl⟩
    cases ht with
    | named ht => exact ⟨_, [_], [], rfl, ⟨_, rfl, ht⟩, rfl, rfl⟩

theorem takes_primaryKey :
    TakesClause f .primary (do
      expectKeyword .key
      sortOrder
      conflictClause
      if ← atKeyword .autoincrement then
        skip
        return { f with primaryKey := true, autoIncrement := true }
      else return { f with primaryKey := true }) := by
  have h := (takes_expectKeyword .key).andThen (takes_sortOrder.andThen (takes_conflictClause.andThen
    ((looks_atKeyword .autoincrement).takes (takes_pure { f with primaryKey := true, autoIncrement := true })
      (takes_pure { f with primaryKey := true }))))
  refine Takes.congr h fun f' ts rest => ?_
  constructor
  · rintro ⟨-, _, _, rfl, ⟨k, rfl, hk⟩, -, order, _, rfl, horder, -, conflict, _, rfl, hconflict,
      ⟨a, _, rfl, ha, rfl, rfl⟩ | ⟨hno, rfl, rfl⟩⟩
    · exact ⟨_, .autoIncrement hk (by simpa using horder) hconflict (by simpa [Token.keyword?] using ha), rfl⟩
    · rw [List.append_nil] at horder ⊢
      have htail : ColumnPart.Tail f.name .primary (.primaryKey false) (k :: (order ++ conflict)) rest :=
        .primaryKey hk horder hconflict (by simpa using hno)
      exact ⟨_, htail, rfl⟩
  · rintro ⟨_, htail, rfl⟩
    cases htail with
    | primaryKey hk horder hconflict hrest =>
      refine ⟨(), [_], _, rfl, ⟨_, rfl, hk⟩, (), _, _, rfl, horder, (), _, [], (List.append_nil _).symm, hconflict, .inr ?_⟩
      exact ⟨by simpa using hrest, rfl, rfl⟩
    | autoIncrement hk horder hconflict ha =>
      refine ⟨(), [_], _, rfl, ⟨_, rfl, hk⟩, (), _, _, rfl, by simpa using horder, (), _, [_], rfl, hconflict, .inl ?_⟩
      exact ⟨_, [], rfl, by simpa [Token.keyword?] using ha, rfl, rfl⟩

theorem takes_notNull :
    TakesClause f .not (expectKeyword .null >>= fun _ => conflictClause >>= fun _ => pure { f with notNull := true }) := by
  refine Takes.congr ((takes_expectKeyword .null).andThen (takes_conflictClause.andThen (takes_pure _))) fun f' ts rest => ?_
  constructor
  · rintro ⟨-, _, _, rfl, ⟨n, rfl, hn⟩, -, conflict, _, rfl, hconflict, rfl, rfl⟩
    rw [List.append_nil]
    exact ⟨_, .notNull hn hconflict, rfl⟩
  · rintro ⟨_, htail, rfl⟩
    cases htail with
    | notNull hn hconflict => exact ⟨(), [_], _, rfl, ⟨_, rfl, hn⟩, (), _, [], (List.append_nil _).symm, hconflict, rfl, rfl⟩

/-- A clause that is its keyword and perhaps a conflict clause. -/
theorem takes_conflict_pure {g : Field} {k : Keyword} {p : ColumnPart} (hp : g = p.apply f)
    (htail : ∀ p' ts rest, ColumnPart.Tail f.name k p' ts rest ↔ p' = p ∧ Conflict ts rest) :
    TakesClause f k (conflictClause >>= fun _ => pure g) := by
  refine Takes.congr (takes_conflictClause.andThen (takes_pure g)) fun f' ts rest => ?_
  simp only [htail]
  constructor
  · rintro ⟨-, conflict, _, rfl, hconflict, rfl, rfl⟩
    rw [List.append_nil]
    exact ⟨p, ⟨rfl, hconflict⟩, hp⟩
  · rintro ⟨_, ⟨rfl, hconflict⟩, rfl⟩
    exact ⟨(), ts, [], (List.append_nil _).symm, hconflict, hp.symm, rfl⟩

theorem takes_null : TakesClause f .null (conflictClause >>= fun _ => pure f) :=
  takes_conflict_pure f (p := .null) rfl fun _ _ _ => ⟨fun h => by cases h; exact ⟨rfl, ‹_›⟩, by rintro ⟨rfl, h⟩; exact .null h⟩

theorem takes_unique : TakesClause f .unique (conflictClause >>= fun _ => pure { f with unique := true }) :=
  takes_conflict_pure f (p := .unique) rfl fun _ _ _ => ⟨fun h => by cases h; exact ⟨rfl, ‹_›⟩, by
    rintro ⟨rfl, h⟩; exact .unique h⟩

theorem takes_check : TakesClause f .check (checkExpression f.name >>= fun check => pure { f with check }) := by
  refine Takes.congr ((takes_checkExpression f.name).bind fun check => takes_pure { f with check }) fun f' ts rest => ?_
  constructor
  · rintro ⟨s, _, _, rfl, h, rfl, rfl⟩
    rw [List.append_nil]
    exact ⟨_, .check h, rfl⟩
  · rintro ⟨_, htail, rfl⟩
    cases htail with
    | check h => exact ⟨_, ts, [], (List.append_nil _).symm, h, rfl, rfl⟩

theorem takes_default : TakesClause f .default (defaultValue >>= fun defaultValue => pure { f with defaultValue }) := by
  refine Takes.congr (takes_defaultValue.bind fun defaultValue => takes_pure { f with defaultValue }) fun f' ts rest => ?_
  constructor
  · rintro ⟨s, _, _, rfl, h, rfl, rfl⟩
    rw [List.append_nil]
    exact ⟨_, .default h, rfl⟩
  · rintro ⟨_, htail, rfl⟩
    cases htail with
    | default h => exact ⟨_, ts, [], (List.append_nil _).symm, h, rfl, rfl⟩

end

/-- The reader takes what follows the keyword of a clause that is discarded. -/
def TakesDiscarded (column : String) (k : Keyword) (r : Reader Unit) : Prop :=
  Takes r fun _ ts rest => ∃ p, ColumnPart.Tail column k p ts rest

theorem takes_collation (column : String) : TakesDiscarded column .collate (expectName >>= fun _ => pure ()) := by
  refine Takes.congr (takes_expectName.bind fun _ => takes_pure ()) fun _ ts rest => ?_
  constructor
  · rintro ⟨name, _, _, rfl, ⟨t, rfl, ht⟩, -, rfl⟩
    exact ⟨_, .collate ht⟩
  · rintro ⟨_, htail⟩
    cases htail with
    | collate ht => exact ⟨_, [_], [], rfl, ⟨_, rfl, ht⟩, rfl, rfl⟩

theorem takes_references (column : String) : TakesDiscarded column .references (expectName >>= fun _ => foreignKeyTail) := by
  refine takes_reference.congr fun _ ts rest => ?_
  constructor
  · rintro ⟨t, name, us, rfl, ht, htake⟩
    exact ⟨_, .references ht htake⟩
  · rintro ⟨_, htail⟩
    cases htail with
    | references ht htake => exact ⟨_, _, _, rfl, ht, htake⟩

theorem takes_generatedAlways (column : String) :
    TakesDiscarded column .generated (expectWord "ALWAYS" >>= fun _ => expectKeyword .as >>= fun _ => generatedTail) := by
  have h := (takes_expectWord "ALWAYS").andThen ((takes_expectKeyword .as).andThen takes_generatedTail)
  refine Takes.congr h fun _ ts rest => ?_
  constructor
  · rintro ⟨-, _, _, rfl, ⟨a, rfl, ha⟩, -, _, us, rfl, ⟨k, rfl, hk⟩, htail⟩
    exact ⟨_, .generated ha hk htail⟩
  · rintro ⟨_, htail⟩
    cases htail with
    | generated ha hk hts => exact ⟨(), [_], _, rfl, ⟨_, rfl, ha⟩, (), [_], _, rfl, ⟨_, rfl, hk⟩, hts⟩

theorem takes_as (column : String) : TakesDiscarded column .as generatedTail := by
  refine takes_generatedTail.congr fun _ ts rest => ?_
  constructor
  · exact fun h => ⟨_, .as h⟩
  · rintro ⟨_, htail⟩
    cases htail with
    | as h => exact h

theorem discardSince_eq (m : Nat) (column : Option String) (c : Cursor) :
    discardSince m column c = .ok () (c.record [entry column (c.read.take (c.read.length - m)).reverse]) := by
  cases column <;> rfl

theorem discardSince_jump (c : Cursor) (ts rest : List Token) (column : Option String) :
    discardSince c.read.length column (c.jump ts rest) = .ok () ((c.jump ts rest).record [entry column ts]) := by
  unfold discardSince
  rw [bind_eq_of_ok (show sourceSince c.read.length (c.jump ts rest) = .ok _ _ from rfl), Cursor.sourceSince_jump]
  cases column <;> rfl

/-- What is discarded goes back to a place before the reader. -/
theorem discarding_eq_ok {β : Type} {r : Reader Unit} {P : Unit → List Token → List Token → Prop} (h : Takes r P) {c c' : Cursor}
    {before us : List Token} {column : Option String} {b b' : β} :
    (r >>= fun _ => discardSince c.read.length column >>= fun _ => pure b) (c.jump before us) = .ok b' c' ↔
      b' = b ∧ ∃ ts rest, us = ts ++ rest ∧ P () ts rest ∧
        c' = (c.jump (before ++ ts) rest).record [entry column (before ++ ts)] := by
  have hdiscard (ts rest : List Token) :
      (discardSince c.read.length column >>= fun _ => pure b) ((c.jump before us).jump ts rest) =
      .ok b ((c.jump (before ++ ts) rest).record [entry column (before ++ ts)]) := by
    rw [Cursor.jump_jump, bind_eq_of_ok (discardSince_jump c (before ++ ts) rest column)]
    rfl
  rw [bind_eq_ok]
  constructor
  · rintro ⟨_, c₁, hr, hrest⟩
    obtain ⟨ts, rest, hus, hP, rfl⟩ := (h ..).mp hr
    rw [hdiscard] at hrest
    cases hrest
    exact ⟨rfl, ts, rest, hus, hP, rfl⟩
  · rintro ⟨rfl, ts, rest, hus, hP, rfl⟩
    exact ⟨(), _, (h ..).mpr ⟨ts, rest, hus, hP, rfl⟩, hdiscard ts rest⟩

section
variable {c : Cursor} {t : Token} {us : List Token} {f : Field} {k : Keyword} {turn : Field} {c' : Cursor}

/-- What comes of a clause, if its first token is `t`. -/
def ClauseComes (c : Cursor) (t : Token) (us : List Token) (f : Field) (k : Keyword) (f' : Field) (c' : Cursor) : Prop :=
  ∃ p ts rest, us = ts ++ rest ∧ ColumnPart.Tail f.name k p ts rest ∧ f' = p.apply f ∧
    c' = (c.jump (t :: ts) rest).record (ColumnClause.entries f.name ⟨p, t :: ts⟩)

theorem TakesClause.comes {r : Reader Field} (h : TakesClause f k r)
    (hkept : ∀ {p ts rest}, ColumnPart.Tail f.name k p ts rest → p.isDiscarded = false) (f' : Field) :
    r (c.jump [t] us) = .ok f' c' ↔ ClauseComes c t us f k f' c' := by
  rw [h]
  have hentries {p : ColumnPart} {ts rest : List Token} (hp : ColumnPart.Tail f.name k p ts rest) :
      ColumnClause.entries f.name ⟨p, t :: ts⟩ = [] := by
    rw [ColumnClause.entries, hkept hp]
    rfl
  constructor
  · rintro ⟨ts, rest, hus, ⟨p, hp, rfl⟩, rfl⟩
    exact ⟨p, ts, rest, hus, hp, rfl, by rw [hentries hp, Cursor.jump_jump]; rfl⟩
  · rintro ⟨p, ts, rest, hus, hp, rfl, rfl⟩
    exact ⟨ts, rest, hus, ⟨p, hp, rfl⟩, by rw [hentries hp, Cursor.jump_jump]; rfl⟩

theorem TakesDiscarded.comes {r : Reader Unit} (h : TakesDiscarded f.name k r)
    (hdiscarded : ∀ {p ts rest}, ColumnPart.Tail f.name k p ts rest → p.isDiscarded = true) (f' : Field) :
    (r >>= fun _ => discardSince c.read.length f.name >>= fun _ => pure f) (c.jump [t] us) = .ok f' c' ↔
      ClauseComes c t us f k f' c' := by
  have hentries {p : ColumnPart} {ts rest : List Token} (hp : ColumnPart.Tail f.name k p ts rest) :
      ColumnClause.entries f.name ⟨p, t :: ts⟩ = [entry f.name (t :: ts)] := by
    rw [ColumnClause.entries, hdiscarded hp]
    rfl
  have happly {p : ColumnPart} {ts rest : List Token} (hp : ColumnPart.Tail f.name k p ts rest) : p.apply f = f := by
    have := hdiscarded hp
    cases p <;> first | rfl | cases this
  rw [discarding_eq_ok h]
  constructor
  · rintro ⟨rfl, ts, rest, hus, ⟨p, hp⟩, rfl⟩
    exact ⟨p, ts, rest, hus, hp, (happly hp).symm, by rw [hentries hp]; rfl⟩
  · rintro ⟨p, ts, rest, hus, hp, rfl, rfl⟩
    exact ⟨happly hp, ts, rest, hus, ⟨p, hp⟩, by rw [hentries hp]; rfl⟩

/-- The reader for each keyword that begins a clause reads the clauses that begin with it. -/
theorem constraintTail_eq_ok {r : Reader Field} (hr : constraintTail c.read.length f k = some r) (f' : Field) :
    r (c.jump [t] us) = .ok f' c' ↔ ClauseComes c t us f k f' c' := by
  cases k with
  | constraint =>
    obtain rfl := Option.some.inj hr
    exact (takes_constraintName f).comes (fun h => by cases h; rfl) f'
  | primary =>
    obtain rfl := Option.some.inj hr
    exact (takes_primaryKey f).comes (fun h => by cases h <;> rfl) f'
  | not =>
    obtain rfl := Option.some.inj hr
    exact (takes_notNull f).comes (fun h => by cases h; rfl) f'
  | null =>
    obtain rfl := Option.some.inj hr
    exact (takes_null f).comes (fun h => by cases h; rfl) f'
  | unique =>
    obtain rfl := Option.some.inj hr
    exact (takes_unique f).comes (fun h => by cases h; rfl) f'
  | check =>
    obtain rfl := Option.some.inj hr
    exact (takes_check f).comes (fun h => by cases h; rfl) f'
  | default =>
    obtain rfl := Option.some.inj hr
    exact (takes_default f).comes (fun h => by cases h; rfl) f'
  | collate =>
    obtain rfl := Option.some.inj hr
    have h : _ ↔ ClauseComes c t us f .collate f' c' := (takes_collation f.name).comes (fun h => by cases h; rfl) f'
    simpa only [bind_assoc, pure_bind] using h
  | references =>
    obtain rfl := Option.some.inj hr
    have h : _ ↔ ClauseComes c t us f .references f' c' := (takes_references f.name).comes (fun h => by cases h; rfl) f'
    simpa only [bind_assoc] using h
  | generated =>
    obtain rfl := Option.some.inj hr
    have h : _ ↔ ClauseComes c t us f .generated f' c' := (takes_generatedAlways f.name).comes (fun h => by cases h; rfl) f'
    simpa only [bind_assoc] using h
  | as =>
    obtain rfl := Option.some.inj hr
    exact (takes_as f.name).comes (fun h => by cases h; rfl) f'
  | _ => cases hr

end

/-! ## Columns -/

theorem constraintTail_eq_none {m : Nat} {f : Field} {k : Keyword} :
    constraintTail m f k = none ↔ startsConstraint k = false := by
  cases k <;> simp [constraintTail, startsConstraint]

theorem startsConstraint_of_tail {column : String} {k : Keyword} {p : ColumnPart} {ts rest : List Token}
    (h : ColumnPart.Tail column k p ts rest) : startsConstraint k = true := by
  cases h <;> rfl

theorem columnConstraint_eq_ok {f : Field} {turn : Turn Field Field} {c c' : Cursor} :
    columnConstraint f c = .ok turn c' ↔
      (turn = .done f ∧ c' = c ∧ ∀ k ∈ (kindOf c.rest).keyword?, startsConstraint k = false) ∨
      ∃ clause ts rest, c.rest = ts ++ rest ∧ ColumnClause.Spells f.name clause ts rest ∧
        turn = .again (clause.part.apply f) ∧ c' = (c.jump ts rest).record (clause.entries f.name) := by
  have hcurrent : c.current.keyword? = (kindOf c.rest).keyword? := congrArg TokenKind.keyword? c.kind_current
  unfold columnConstraint
  rw [hcurrent]
  cases hkind : (kindOf c.rest).keyword? with
  | none =>
    constructor
    · intro h
      cases h
      exact .inl ⟨rfl, rfl, by simp⟩
    · rintro (⟨rfl, rfl, -⟩ | ⟨clause, ts, rest, hc, ⟨-, t, k, us, rfl, ht, -⟩, -⟩)
      · rfl
      · rw [hc] at hkind
        cases ht.symm.trans hkind
  | some k =>
    obtain ⟨t, us, hc⟩ : ∃ t us, c.rest = t :: us := by
      cases hc : c.rest with
      | nil => rw [hc] at hkind; cases hkind
      | cons t us => exact ⟨t, us, rfl⟩
    have ht : t.keyword? = some k := by rwa [hc] at hkind
    rw [Option.bind_some]
    cases htail : constraintTail c.read.length f k with
    | none =>
      have hk := constraintTail_eq_none.mp htail
      constructor
      · intro h
        cases h
        exact .inl ⟨rfl, rfl, by simpa using hk⟩
      · rintro (⟨rfl, rfl, -⟩ | ⟨clause, ts, rest, hts, ⟨-, t', k', us', rfl, ht', hp⟩, -⟩)
        · rfl
        · obtain ⟨rfl, rfl⟩ := List.cons.inj (hc.symm.trans hts)
          obtain rfl := Option.some.inj (ht.symm.trans ht')
          rw [startsConstraint_of_tail hp] at hk
          cases hk
    | some r =>
      have hstart : startsConstraint k = true := by
        rw [← Bool.not_eq_false, ← constraintTail_eq_none (m := c.read.length) (f := f), htail]
        simp
      dsimp only
      rw [skip_bind hc]
      simp only [bind_eq_ok, pure_eq_ok, constraintTail_eq_ok htail]
      constructor
      · rintro ⟨_, _, ⟨p, ts, rest, rfl, hp, rfl, rfl⟩, rfl, rfl⟩
        exact .inr ⟨⟨p, t :: ts⟩, t :: ts, rest, hc, ⟨rfl, t, k, ts, rfl, ht, hp⟩, rfl, rfl⟩
      · rintro (⟨-, -, hno⟩ | ⟨⟨p, _⟩, ts, rest, hts, ⟨rfl, t', k', us', rfl, ht', hp⟩, rfl, rfl⟩)
        · rw [hno k rfl] at hstart
          cases hstart
        · obtain ⟨rfl, rfl⟩ := List.cons.inj (hc.symm.trans hts)
          obtain rfl := Option.some.inj (ht.symm.trans ht')
          exact ⟨_, _, ⟨p, us', rest, rfl, hp, rfl, rfl⟩, rfl, rfl⟩

theorem name_apply (p : ColumnPart) (f : Field) : (p.apply f).name = f.name := by
  cases p with
  | primaryKey autoIncrement => cases autoIncrement <;> rfl
  | _ => rfl

theorem name_field (name sqlType : String) (clauses : List ColumnClause) : (Definition.field name sqlType clauses).name = name := by
  have hfold (f : Field) : (clauses.foldl (fun f c => c.part.apply f) f).name = f.name := by
    induction clauses generalizing f with
    | nil => rfl
    | cons c cs ih => rw [List.foldl_cons, ih, name_apply]
  exact hfold _

theorem records_columnConstraint (f : Field) : Records (columnConstraint f) fun turn entries ts rest =>
    (turn = .done f ∧ entries = [] ∧ ts = [] ∧ ∀ k ∈ (kindOf rest).keyword?, startsConstraint k = false) ∨
      ∃ clause, ColumnClause.Spells f.name clause ts rest ∧ turn = .again (clause.part.apply f) ∧
        entries = clause.entries f.name := by
  intro c turn c'
  rw [columnConstraint_eq_ok]
  constructor
  · rintro (⟨rfl, rfl, hend⟩ | ⟨clause, ts, rest, hc, hspells, rfl, rfl⟩)
    · exact ⟨[], [], c'.rest, rfl, .inl ⟨rfl, rfl, rfl, hend⟩, rfl⟩
    · exact ⟨_, ts, rest, hc, .inr ⟨clause, hspells, rfl, rfl⟩, rfl⟩
  · rintro ⟨_, ts, rest, hc, ⟨rfl, rfl, rfl, hend⟩ | ⟨clause, hspells, rfl, rfl⟩, rfl⟩
    · obtain rfl : c.rest = rest := hc
      exact .inl ⟨rfl, rfl, hend⟩
    · exact .inr ⟨clause, ts, rest, hc, hspells, rfl, rfl⟩

/-- The loop takes all clauses of the column. -/
theorem records_constraints (f : Field) :
    Records (loop columnConstraint f) fun f' entries ts rest =>
      ∃ clauses, ColumnClause.All f.name clauses ts rest ∧ f' = clauses.foldl (fun f c => c.part.apply f) f ∧
        entries = clauses.flatMap (·.entries f.name) := by
  refine (records_loop records_columnConstraint f).congr fun f' entries ts rest => ⟨fun h => ?_, ?_⟩
  · induction h with
    | done h =>
      obtain ⟨hturn, rfl, rfl, hend⟩ | ⟨_, -, hturn, -⟩ := h
      · cases hturn
        exact ⟨[], .nil hend, rfl, rfl⟩
      · cases hturn
    | again h _ ih =>
      obtain ⟨hturn, -⟩ | ⟨clause, hspells, hturn, rfl⟩ := h
      · cases hturn
      · cases hturn
        obtain ⟨clauses, hall, rfl, rfl⟩ := ih
        rw [name_apply] at hall ⊢
        exact ⟨clause :: clauses, .cons hspells hall, rfl, rfl⟩
  · rintro ⟨clauses, hall, rfl, rfl⟩
    generalize hname : f.name = name at hall
    induction hall generalizing f with
    | nil hend => exact .done (.inl ⟨rfl, rfl, rfl, hend⟩)
    | @cons clause _ _ _ _ hspells _ ih =>
      subst hname
      exact .again (.inr ⟨clause, hspells, rfl, rfl⟩) (ih (clause.part.apply f) (name_apply clause.part f))

theorem records_columnDefinition :
    Records columnDefinition fun f entries ts rest => ∃ name sqlType clauses t us vs, ts = t :: (us ++ vs) ∧
      nameOf? t = some name ∧ TypeName sqlType us (vs ++ rest) ∧ ColumnClause.All name clauses vs rest ∧
      f = Definition.field name sqlType clauses ∧ entries = clauses.flatMap (·.entries name) := by
  have h := takes_expectName.records.bind fun name => takes_typeName.records.bind fun sqlType =>
    records_constraints { name, sqlType }
  refine Records.congr h fun f entries ts rest => ?_
  constructor
  · rintro ⟨name, _, _, _, _, rfl, rfl, ⟨rfl, t, rfl, ht⟩, sqlType, _, _, us, vs, rfl, rfl, ⟨rfl, htype⟩, clauses, hall, rfl, rfl⟩
    exact ⟨name, sqlType, clauses, t, us, vs, rfl, ht, htype, hall, rfl, rfl⟩
  · rintro ⟨name, sqlType, clauses, t, us, vs, rfl, ht, htype, hall, rfl, rfl⟩
    exact ⟨name, [], _, [t], us ++ vs, rfl, rfl, ⟨rfl, t, rfl, ht⟩, sqlType, [], _, us, vs, rfl, rfl, ⟨rfl, htype⟩, clauses, hall,
      rfl, rfl⟩

end Reader

end SchemaEditor
