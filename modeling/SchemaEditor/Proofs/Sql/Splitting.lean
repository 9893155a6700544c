import SchemaEditor.Proofs.Sql.Remainders
import SchemaEditor.Proofs.Text.Trim
import SchemaEditor.Sql.Script

/-!
# Splitting scripts

The statements of a script are stretches of it, and only blanks and semicolons lie around and between them. A
statement that is split again is one statement, and a script made of scripts with semicolons between them has the
statements of its parts, if each semicolon is read as one and stands outside any block of a trigger.
-/

namespace SchemaEditor.Script

/-! ## Stretches and tokens -/

/-- How far the splitter is in a statement: the keywords it begins with, and how many blocks are open. -/
structure Place where
  leading : List (Option Keyword) := []
  depth : Nat := 0
deriving DecidableEq, Repr

namespace Place

def after (p : Place) (t : Token) : Place :=
  if t.kind = .semicolon ∧ p.depth = 0 then {}
  else ⟨extendLeading p.leading t, blockDepth (extendLeading p.leading t) p.depth t⟩

def afterAll (p : Place) (ts : List Token) : Place := ts.foldl after p

end Place

/-- The stretches of what follows a place, the first one with `text` in front of it. -/
def stretchesFrom (p : Place) (text : List Char) (ts : List Token) : List (List Char) := stretches p.leading p.depth text ts

section
variable {p : Place} {text : List Char} {t : Token} {ts ts' : List Token}

theorem stretchesFrom_eof (ht : t.kind = .eof) : stretchesFrom p text (t :: ts) = [text ++ t.gap] := by
  simp [stretchesFrom, stretches, ht]

theorem stretchesFrom_separator (ht : t.kind = .semicolon) (hp : p.depth = 0) :
    stretchesFrom p text (t :: ts) = (text ++ t.gap) :: stretchesFrom {} [] ts := by
  simp [stretchesFrom, stretches, ht, hp]

theorem stretchesFrom_token (ht : t.kind ≠ .eof) (hp : ¬(t.kind = .semicolon ∧ p.depth = 0)) :
    stretchesFrom p text (t :: ts) = stretchesFrom (p.after t) (text ++ t.gap ++ t.text) ts := by
  rw [stretchesFrom, stretches, if_neg ht, if_neg hp, Place.after, if_neg hp]
  rfl

theorem place_after_congr {t t' : Token} (h : t.SameRole t') : p.after t = p.after t' := by
  have hkeyword : t.keyword? = t'.keyword? := h.keyword?
  have hsemicolon : t.kind = .semicolon ↔ t'.kind = .semicolon := h.eq_iff (by simp)
  have hleading : extendLeading p.leading t = extendLeading p.leading t' := by rw [extendLeading, extendLeading, hkeyword]
  have hdepth (l : List (Option Keyword)) : blockDepth l p.depth t = blockDepth l p.depth t' := by
    rw [blockDepth, blockDepth, hkeyword]
  unfold Place.after
  by_cases hsep : t.kind = .semicolon ∧ p.depth = 0
  · rw [if_pos hsep, if_pos (by rwa [← hsemicolon])]
  · rw [if_neg hsep, if_neg (by rwa [← hsemicolon]), hleading, hdepth]

theorem place_afterAll_congr (h : List.Forall₂ Token.SameRole ts ts') : p.afterAll ts = p.afterAll ts' := by
  induction h generalizing p with
  | nil => rfl
  | cons ht _ ih =>
    show Place.afterAll (p.after _) _ = Place.afterAll (p.after _) _
    rw [place_after_congr ht, ih]

/-- The number of stretches depends on the roles of the tokens alone. -/
theorem length_stretchesFrom_congr (h : List.Forall₂ Token.SameRole ts ts') (text text' : List Char) :
    (stretchesFrom p text ts).length = (stretchesFrom p text' ts').length := by
  induction h generalizing p text text' with
  | nil => rfl
  | @cons t t' ts ts' ht _ ih =>
    have heof : t.kind = .eof ↔ t'.kind = .eof := ht.eq_iff (by simp)
    have hsemicolon : t.kind = .semicolon ↔ t'.kind = .semicolon := ht.eq_iff (by simp)
    by_cases hend : t.kind = .eof
    · rw [stretchesFrom_eof hend, stretchesFrom_eof (heof.mp hend)]
      rfl
    by_cases hsep : t.kind = .semicolon ∧ p.depth = 0
    · rw [stretchesFrom_separator hsep.1 hsep.2, stretchesFrom_separator (hsemicolon.mp hsep.1) hsep.2]
      simp [ih [] []]
    · rw [stretchesFrom_token hend hsep, stretchesFrom_token (fun h => hend (heof.mpr h)) (by rwa [← hsemicolon]),
        place_after_congr ht]
      exact ih _ _

theorem stretchesFrom_congr (h : List.Forall₂ Token.Akin ts ts') : stretchesFrom p text ts = stretchesFrom p text ts' := by
  induction h generalizing p text with
  | nil => rfl
  | @cons t t' ts ts' ht _ ih =>
    have heof : t.kind = .eof ↔ t'.kind = .eof := ht.role.eq_iff (by simp)
    have hsemicolon : t.kind = .semicolon ↔ t'.kind = .semicolon := ht.role.eq_iff (by simp)
    by_cases hend : t.kind = .eof
    · rw [stretchesFrom_eof hend, stretchesFrom_eof (heof.mp hend), ht.gap]
    by_cases hsep : t.kind = .semicolon ∧ p.depth = 0
    · rw [stretchesFrom_separator hsep.1 hsep.2, stretchesFrom_separator (hsemicolon.mp hsep.1) hsep.2, ht.gap, ih]
    · rw [stretchesFrom_token hend hsep, stretchesFrom_token (fun h => hend (heof.mpr h)) (by rwa [← hsemicolon]),
        place_after_congr ht.role, ht.gap, ht.text, ih]

/-- What comes of some tokens does not depend on those behind them. -/
theorem stretchesFrom_append (hts : ∀ t ∈ ts, t.kind ≠ .eof) (p : Place) (text : List Char) :
    ∃ done text', ∀ post, stretchesFrom p text (ts ++ post) = done ++ stretchesFrom (p.afterAll ts) text' post := by
  induction ts generalizing p text with
  | nil => exact ⟨[], text, fun _ => rfl⟩
  | cons t ts ih =>
    have hend := hts t List.mem_cons_self
    have ih := ih fun u hu => hts u (List.mem_cons_of_mem t hu)
    by_cases hsep : t.kind = .semicolon ∧ p.depth = 0
    · obtain ⟨done, text', h⟩ := ih (p.after t) []
      have hfresh : p.after t = {} := by rw [Place.after, if_pos hsep]
      refine ⟨(text ++ t.gap) :: done, text', fun post => ?_⟩
      rw [List.cons_append, stretchesFrom_separator hsep.1 hsep.2, ← hfresh, h]
      rfl
    · obtain ⟨done, text', h⟩ := ih (p.after t) (text ++ t.gap ++ t.text)
      refine ⟨done, text', fun post => ?_⟩
      rw [List.cons_append, stretchesFrom_token hend hsep, h]
      rfl

end

/-! ## Nothing is lost -/

theorem lexeme_semicolon (cs : List Char) : lexeme ';' cs = ⟨.semicolon, [';'], cs⟩ := by
  have hletter : Text.isAlphabetic ';' = false := by decide
  have hdigit : Char.isDigit ';' = false := by decide
  cases cs <;> simp [lexeme, operator, pairKind?, singleKind?, hletter, hdigit]

theorem eq_semicolon_of_operator {c : Char} {cs : List Char} (h : (operator c cs).kind = .semicolon) : c = ';' := by
  unfold operator at h
  split at h
  · next hpair =>
    obtain ⟨d, -, hd⟩ := Option.bind_eq_some_iff.mp hpair
    unfold pairKind? at hd
    split at hd <;> simp_all
  · unfold singleKind? at h
    split at h <;> simp_all

/-- Nothing else is read as a semicolon. -/
theorem eq_semicolon_of_lexeme {c : Char} {cs : List Char} (h : (lexeme c cs).kind = .semicolon) : c = ';' := by
  have hoperator : lexeme c cs = operator c cs := lexeme_eq_operator (by rw [h]; rfl) (by rw [h]; rfl)
  rw [hoperator] at h
  exact eq_semicolon_of_operator h

/-- Tokens as a text has them: the end comes last and is empty, and semicolons are spelled as such. -/
inductive Whole : List Token → Prop where
  | eof {e : Token} (he : e.kind = .eof) (htext : e.text = []) : Whole [e]
  | cons {t : Token} {ts : List Token} (ht : t.kind ≠ .eof) (hsemicolon : t.kind = .semicolon → t.text = [';'])
      (hts : Whole ts) : Whole (t :: ts)

theorem whole_tokensFrom (cs : List Char) (pos : Nat) : Whole (tokensFrom pos cs) := by
  induction cs using token_induction generalizing pos with
  | atEnd cs gap h =>
    rw [tokensFrom_end h]
    exact .eof rfl rfl
  | cons cs gap c rest h ih =>
    rw [tokensFrom_cons h]
    refine .cons (lexeme_kind_ne_eof c rest) (fun hk => ?_) (ih _)
    obtain rfl := eq_semicolon_of_lexeme hk
    exact congrArg Lexeme.text (lexeme_semicolon rest)

theorem Whole.ne_nil {ts : List Token} (h : Whole ts) : ts ≠ [] := by
  cases h <;> simp

theorem stretchesFrom_ne_nil {ts : List Token} (h : Whole ts) (p : Place) (text : List Char) : stretchesFrom p text ts ≠ [] := by
  induction h generalizing p text with
  | eof he _ => simp [stretchesFrom_eof he]
  | @cons t ts ht _ _ ih =>
    by_cases hsep : t.kind = .semicolon ∧ p.depth = 0
    · simp [stretchesFrom_separator hsep.1 hsep.2]
    · rw [stretchesFrom_token ht hsep]
      exact ih _ _

/-- With semicolons between them, the stretches are the text. -/
theorem intercalate_stretchesFrom {ts : List Token} (h : Whole ts) (p : Place) (text : List Char) :
    [';'].intercalate (stretchesFrom p text ts) = text ++ Token.spelled ts := by
  induction h generalizing p text with
  | eof he htext => simp [stretchesFrom_eof he, Token.spelled, htext, List.intercalate]
  | @cons t ts ht hsemicolon hts ih =>
    have hspelled : Token.spelled (t :: ts) = t.gap ++ t.text ++ Token.spelled ts := rfl
    by_cases hsep : t.kind = .semicolon ∧ p.depth = 0
    · rw [stretchesFrom_separator hsep.1 hsep.2, hspelled, hsemicolon hsep.1]
      have hrest := ih {} []
      obtain ⟨y, ys, hys⟩ := List.exists_cons_of_ne_nil (stretchesFrom_ne_nil hts {} [])
      rw [hys] at hrest ⊢
      simp only [List.intercalate, List.intersperse_cons_cons, List.flatten_cons] at hrest ⊢
      rw [hrest]
      simp
    · rw [stretchesFrom_token ht hsep, ih, hspelled]
      simp

/-- The pieces stand in the text one after the other, with nothing but blanks and semicolons around and between them. -/
inductive Pieces : List String → List Char → Prop where
  | nil {gap : List Char} (hgap : ∀ c ∈ gap, Text.isBlank c = true ∨ c = ';') : Pieces [] gap
  | cons {gap rest : List Char} {piece : String} {pieces : List String} (hgap : ∀ c ∈ gap, Text.isBlank c = true ∨ c = ';')
      (hrest : Pieces pieces rest) : Pieces (piece :: pieces) (gap ++ (piece.toList ++ rest))

/-- The statements that are made of stretches. -/
def ofStretches (ys : List (List Char)) : List String := ((ys.map Text.trim).filter (!·.isEmpty)).map String.ofList

theorem statements_eq (sql : String) : statements sql = ofStretches (stretchesFrom {} [] (tokenize sql)) := rfl

theorem ofStretches_append (ys zs : List (List Char)) : ofStretches (ys ++ zs) = ofStretches ys ++ ofStretches zs := by
  simp [ofStretches]

theorem Pieces.prepend {pieces : List String} {gap cs : List Char} (hgap : ∀ c ∈ gap, Text.isBlank c = true ∨ c = ';')
    (h : Pieces pieces cs) : Pieces pieces (gap ++ cs) := by
  have hboth {gap' : List Char} (h : ∀ c ∈ gap', Text.isBlank c = true ∨ c = ';') :
      ∀ c ∈ gap ++ gap', Text.isBlank c = true ∨ c = ';' := by
    intro c hc
    rcases List.mem_append.mp hc with hc | hc
    · exact hgap c hc
    · exact h c hc
  cases h with
  | nil h => exact .nil (hboth h)
  | cons h hrest =>
    rw [← List.append_assoc]
    exact .cons (hboth h) hrest

/-- A stretch in front of other text, with the semicolon behind it if there is one. -/
theorem Pieces.stretch {pieces : List String} {sep rest : List Char} (y : List Char) (hsep : ∀ c ∈ sep, c = ';')
    (h : Pieces pieces rest) : Pieces (ofStretches [y] ++ pieces) (y ++ (sep ++ rest)) := by
  obtain ⟨l, r, hy, hl, hr⟩ := Text.exists_trim y
  have hafter : Pieces pieces (r ++ (sep ++ rest)) :=
    (h.prepend fun c hc => .inr (hsep c hc)).prepend fun c hc => .inl (hr c hc)
  have hwhole : y ++ (sep ++ rest) = l ++ (Text.trim y ++ (r ++ (sep ++ rest))) := by
    conv_lhs => rw [hy]
    simp
  rw [hwhole]
  by_cases hempty : Text.trim y = []
  · have hnone : ofStretches [y] = [] := by simp [ofStretches, hempty]
    rw [hnone, hempty]
    exact hafter.prepend fun c hc => .inl (hl c hc)
  · have hone : ofStretches [y] = [String.ofList (Text.trim y)] := by simp [ofStretches, hempty]
    have hpiece : Pieces (String.ofList (Text.trim y) :: pieces)
        (l ++ ((String.ofList (Text.trim y)).toList ++ (r ++ (sep ++ rest)))) :=
      .cons (fun c hc => .inl (hl c hc)) hafter
    rw [String.toList_ofList] at hpiece
    rw [hone]
    exact hpiece

theorem pieces_ofStretches (ys : List (List Char)) : Pieces (ofStretches ys) ([';'].intercalate ys) := by
  have hnone : Pieces [] [] := .nil (by simp)
  induction ys with
  | nil => exact hnone
  | cons y ys ih =>
    cases ys with
    | nil =>
      have hlast : Pieces (ofStretches [y] ++ []) (y ++ ([] ++ [])) := .stretch y (by simp) hnone
      simpa [List.intercalate] using hlast
    | cons z zs =>
      have hnext : Pieces (ofStretches [y] ++ ofStretches (z :: zs)) (y ++ ([';'] ++ [';'].intercalate (z :: zs))) :=
        .stretch y (by simp) ih
      rw [show y :: z :: zs = [y] ++ (z :: zs) from rfl, ofStretches_append]
      simpa [List.intercalate] using hnext

theorem mem_ofStretches {ys : List (List Char)} {s : String} (h : s ∈ ofStretches ys) :
    ∃ y ∈ ys, s.toList = Text.trim y ∧ Text.trim y ≠ [] := by
  obtain ⟨z, hz, rfl⟩ := List.mem_map.mp h
  obtain ⟨hz, hne⟩ := List.mem_filter.mp hz
  obtain ⟨y, hy, rfl⟩ := List.mem_map.mp hz
  exact ⟨y, hy, String.toList_ofList, by simpa using hne⟩

/-! ## A statement by itself -/

/-- The text is not split. -/
def Single (cs : List Char) : Prop := (stretchesFrom {} [] (tokensFrom 0 cs)).length = 1

theorem Single.of_roles {cs cs' : List Char} (h : Single cs) (pos : Nat)
    (hroles : List.Forall₂ Token.SameRole (tokensFrom pos cs') (tokensFrom 0 cs)) : Single cs' := by
  have hplace := (akin_tokensFrom cs' 0 pos).imp fun _ _ h => h.role
  rw [Single, length_stretchesFrom_congr hplace [] [], length_stretchesFrom_congr hroles [] []]
  exact h

/-- What is not split is its only stretch. -/
theorem Single.stretches {cs : List Char} (h : Single cs) (pos : Nat) : stretchesFrom {} [] (tokensFrom pos cs) = [cs] := by
  obtain ⟨y, hy⟩ := List.length_eq_one_iff.mp h
  rw [stretchesFrom_congr (akin_tokensFrom cs pos 0), hy]
  have hjoin := intercalate_stretchesFrom (whole_tokensFrom cs 0) {} []
  rw [hy] at hjoin
  have htext : Token.spelled (tokensFrom 0 cs) = cs := flatMap_tokensFrom cs 0
  rw [htext] at hjoin
  simpa [List.intercalate] using hjoin

theorem roles_indent (g : List Char) (ts : List Token) : List.Forall₂ Token.SameRole ts (indent g ts) := by
  cases ts with
  | nil => exact .nil
  | cons t ts => exact .cons (.refl _) (List.forall₂_same.mpr fun _ _ => .refl _)

/-- What is not split is not split once it is trimmed. -/
theorem Single.trim {cs : List Char} (h : Single cs) : Single (Text.trim cs) := by
  obtain ⟨l, r, hcs, hl, hr⟩ := Text.exists_trim cs
  rw [hcs] at h
  have hleading := tokensFrom_blank_append hl (Text.trim cs ++ r) 0
  have hstart : Single (Text.trim cs ++ r) := by
    apply h.of_roles (0 + byteLength l)
    rw [hleading]
    exact roles_indent l _
  exact hstart.of_roles 0 (roles_append_blanks hr (Text.trim cs) 0 0)

/-- Either the tokens are not split, or they are at the first semicolon outside a block. -/
theorem first_separator {ts : List Token} (h : Whole ts) (p : Place) :
    (∀ text, (stretchesFrom p text ts).length = 1) ∨
      ∃ us s post, ts = us ++ s :: post ∧ s.kind = .semicolon ∧ post ≠ [] ∧
        (∀ text, stretchesFrom p text ts = (text ++ Token.spelled us ++ s.gap) :: stretchesFrom {} [] post) ∧
        ∀ text e, e.kind = .eof → (stretchesFrom p text (us ++ [e])).length = 1 := by
  induction h generalizing p with
  | eof he _ => exact .inl fun text => by rw [stretchesFrom_eof he]; rfl
  | @cons t ts ht _ hts ih =>
    by_cases hsep : t.kind = .semicolon ∧ p.depth = 0
    · refine .inr ⟨[], t, ts, rfl, hsep.1, hts.ne_nil, fun text => ?_, fun text e he => ?_⟩
      · rw [stretchesFrom_separator hsep.1 hsep.2]
        simp [Token.spelled]
      · rw [List.nil_append, stretchesFrom_eof he]
        rfl
    · have hstep (text : List Char) (us : List Token) :
          stretchesFrom p text (t :: us) = stretchesFrom (p.after t) (text ++ t.gap ++ t.text) us := stretchesFrom_token ht hsep
      rcases ih (p.after t) with hone | ⟨us, s, post, rfl, hs, hpost, hfirst, halone⟩
      · exact .inl fun text => by rw [hstep]; exact hone _
      · refine .inr ⟨t :: us, s, post, rfl, hs, hpost, fun text => ?_, fun text e he => ?_⟩
        · rw [hstep, hfirst]
          simp [Token.spelled]
        · rw [List.cons_append, hstep]
          exact halone _ e he

/-- No stretch of a script is split again. -/
theorem single_of_mem_stretchesFrom (cs : List Char) (pos : Nat) {y : List Char}
    (h : y ∈ stretchesFrom {} [] (tokensFrom pos cs)) : Single y := by
  induction hn : cs.length using Nat.strongRecOn generalizing cs pos with
  | ind n ih =>
  rcases first_separator (whole_tokensFrom cs pos) {} with hone | ⟨us, s, post, hts, hs, hpost, hfirst, halone⟩
  · have hsingle : Single cs := by
      rw [Single, stretchesFrom_congr (akin_tokensFrom cs 0 pos)]
      exact hone []
    rw [hsingle.stretches, List.mem_singleton] at h
    rwa [h]
  · rw [hfirst, List.mem_cons] at h
    obtain ⟨pos', rest, hcs, hrest⟩ := tokensFrom_split hts (by simp)
    have hend : s.kind.isEnd = false := by rw [hs]; rfl
    obtain ⟨gap, c, left, hgap, hsemicolon, hleft⟩ := tokensFrom_eq_cons hrest hend
    have hrest' : gap ++ c :: left = rest := by
      have happ := splitGap_append .blank rest
      rwa [hgap] at happ
    rcases h with rfl | h
    · -- the stretch ends in the gap before the semicolon, and there is nothing but the end behind the gap
      have hcut : tokensFrom pos ((Token.spelled us ++ s.gap) ++ (c :: left)) = us ++ s :: post := by
        rw [← hts, hcs, ← hrest', hsemicolon]
        simp
      obtain ⟨us', pos'', hus', hakin⟩ := tokensFrom_cut_role hcut (by simp) rfl
      rw [tokensFrom_end (splitGap_gap hrest)] at hus'
      rw [List.nil_append, Single, stretchesFrom_congr (akin_tokensFrom _ 0 pos), hus',
        ← length_stretchesFrom_congr (List.rel_append (hakin.imp fun _ _ h => h.role) (.cons (.refl _) .nil)) [] []]
      exact halone [] _ rfl
    · rw [← hleft] at h
      have hshorter : (lexeme c left).rest.length < n := by
        have hlength := length_lexeme c left
        have hsum := congrArg List.length (hcs.trans (by rw [← hrest']))
        simp only [List.length_append, List.length_cons] at hsum
        omega
      exact ih _ hshorter _ _ h rfl

/-! ## Scripts with a semicolon between them -/

/-- The script with a semicolon behind it has the tokens of the script and a semicolon, and no block is open there. -/
structure Separable (script : String) : Prop where
  tokens : (tokenize (script ++ ";")).map Token.text = (tokenize script).dropLast.map Token.text ++ [[';'], []]
  outside : (({} : Place).afterAll (tokenize script).dropLast).depth = 0

theorem kind_of_text_semicolon {cs : List Char} {pos : Nat} {t : Token} {post : List Token} (h : tokensFrom pos cs = t :: post)
    (ht : t.text = [';']) : ∃ left, splitGap .blank cs = (t.gap, ';' :: left) ∧ t.kind = .semicolon := by
  cases hgap : splitGap .blank cs with
  | mk gap left =>
    cases left with
    | nil =>
      rw [tokensFrom_end hgap] at h
      rw [← (List.cons.inj h).1] at ht
      cases ht
    | cons c left =>
      rw [tokensFrom_cons hgap] at h
      have hfirst := (List.cons.inj h).1
      rw [← hfirst] at ht ⊢
      have happ := lexeme_append c left
      rw [show (lexeme c left).text = [';'] from ht] at happ
      obtain rfl := (List.cons.inj happ).1
      exact ⟨left, rfl, congrArg Lexeme.kind (lexeme_semicolon left)⟩

theorem tokensFrom_semicolon {gap cs left : List Char} (h : splitGap .blank cs = (gap, ';' :: left)) (pos : Nat) :
    ∃ t pos', t.kind = .semicolon ∧ t.gap = gap ∧ tokensFrom pos cs = t :: tokensFrom pos' left := by
  rw [tokensFrom_cons h, lexeme_semicolon]
  exact ⟨_, _, rfl, rfl, rfl⟩

/-- The tokens of a script and of the script with a semicolon behind it. -/
theorem Separable.exists_tokens {script : String} (h : Separable script) : ∃ ts s e us e',
    tokenize (script ++ ";") = ts ++ [s, e] ∧ (∀ t ∈ ts, t.kind ≠ .eof) ∧ s.kind = .semicolon ∧ s.text = [';'] ∧
      script.toList = Token.spelled ts ++ s.gap ∧ tokenize script = us ++ [e'] ∧ List.Forall₂ Token.Akin ts us ∧
      e'.kind = .eof ∧ e'.gap = s.gap := by
  obtain ⟨vs, e, hvs, he, htext, hproper⟩ := tokensFrom_eq_append_end (script ++ ";").toList 0
  have hcs : (script ++ ";").toList = script.toList ++ [';'] := by simp
  have htexts : vs.map Token.text = (tokenize script).dropLast.map Token.text ++ [[';']] := by
    have htokens := h.tokens
    rw [tokenize, hvs, List.map_append, List.map_singleton, htext] at htokens
    have hcons : [[';'], []] = [[';']] ++ [([] : List Char)] := rfl
    rw [hcons, ← List.append_assoc] at htokens
    exact List.append_cancel_right htokens
  obtain ⟨ts, last, rfl, hts, hlast⟩ := List.map_eq_append_iff.mp htexts
  obtain ⟨s, rfl, hs⟩ := List.map_eq_singleton_iff.mp hlast
  have hsplit : tokensFrom 0 (script.toList ++ [';']) = ts ++ s :: [e] := by
    rw [← hcs, hvs]
    simp
  obtain ⟨pos', rest, hrest, hafter⟩ := tokensFrom_split hsplit (by simp)
  obtain ⟨left, -, hkind⟩ := kind_of_text_semicolon hafter hs
  have hspelled : Token.spelled (ts ++ [s, e]) = script.toList ++ [';'] := by
    rw [← flatMap_tokensFrom (script.toList ++ [';']) 0, hsplit]
    rfl
  have hwhole : Token.spelled ts ++ (s.gap ++ (';' :: e.gap)) = script.toList ++ [';'] := by
    rw [← hspelled]
    simp [Token.spelled, hs, htext]
  rcases List.eq_nil_or_concat e.gap with hgap | ⟨m, d, hgap⟩
  · have hscript : script.toList = Token.spelled ts ++ s.gap := by
      rw [hgap, ← List.append_assoc] at hwhole
      exact (List.append_cancel_right hwhole).symm
    obtain ⟨us, pos, hus, hakin⟩ := tokensFrom_cut_role hsplit (by simp) hscript
    rw [tokensFrom_end (splitGap_gap hafter)] at hus
    exact ⟨ts, s, e, us, _, by rw [tokenize, hvs]; simp, fun t ht => (hproper t (List.mem_append_left _ ht)).1, hkind, hs,
      hscript, hus, hakin, rfl, rfl⟩
  · -- otherwise that semicolon is in a comment, and there is one more token in front of it
    exfalso
    have hscript : script.toList = Token.spelled (ts ++ [s]) ++ m := by
      rw [hgap, List.concat_eq_append, ← List.cons_append, ← List.append_assoc, ← List.append_assoc] at hwhole
      have hfront := (List.append_inj' hwhole rfl).1
      rw [← hfront]
      simp [Token.spelled, hs]
    have hsplit' : tokensFrom 0 (script.toList ++ [';']) = (ts ++ [s]) ++ [e] := by
      rw [hsplit]
      simp
    obtain ⟨us, pos, hus, hakin⟩ := tokensFrom_cut_role hsplit' (by simp) hscript
    have hmore : 0 < (tokensFrom pos m).length := List.length_pos_iff.mpr (whole_tokensFrom m pos).ne_nil
    have hcount := congrArg List.length hts
    have hlength := hakin.length_eq
    rw [List.length_map, List.length_map, List.length_dropLast, tokenize, hus] at hcount
    simp only [List.length_append, List.length_singleton] at hcount hlength
    omega

/-- The statements of two scripts with a semicolon between them are those of the first and those of the second. -/
theorem statements_append {a : String} (h : Separable a) (b : String) :
    statements (a ++ ";" ++ b) = statements a ++ statements b := by
  obtain ⟨ts, s, e, us, e', hts, hproper, hs, hstext, ha, hus, hakin, he', hgap⟩ := h.exists_tokens
  have hsemicolon : (a ++ ";").toList = Token.spelled ts ++ (s.gap ++ [';']) := by
    rw [← List.append_assoc, ← ha]
    simp
  have hproperSemicolon : s.kind ≠ .eof := by simp [hs]
  obtain ⟨pos, rest, hcs, hpost, hextends⟩ := tokensFrom_extend hts hproperSemicolon
  obtain rfl : s.gap ++ [';'] = rest := List.append_cancel_left (hsemicolon.symm.trans hcs)
  -- behind the semicolon are the tokens of the second script
  obtain ⟨left, hleft, -⟩ := kind_of_text_semicolon hpost hstext
  have happ := splitGap_append .blank (s.gap ++ [';'])
  rw [hleft] at happ
  obtain rfl : left = [] := by simpa using List.append_cancel_left happ
  have hgapExtended : splitGap .blank ((s.gap ++ [';']) ++ b.toList) = (s.gap, ';' :: b.toList) := by
    have hext := splitGap_extend .blank (s.gap ++ [';']) b.toList
    rw [hleft] at hext
    exact hext (by simp) (by simp) (by simp)
  obtain ⟨t, pos', ht, htgap, htokens⟩ := tokensFrom_semicolon hgapExtended pos
  -- the first script is split as far as the semicolon
  obtain ⟨done, text, hdone⟩ := stretchesFrom_append hproper {} []
  have hplace : (({} : Place).afterAll ts).depth = 0 := by
    have houtside := h.outside
    rw [hus, List.dropLast_concat] at houtside
    rwa [place_afterAll_congr (hakin.imp fun _ _ h => h.role)]
  have hfirst : statements a = ofStretches (done ++ [text ++ s.gap]) := by
    have hboth : List.Forall₂ Token.Akin (ts ++ [e']) (us ++ [e']) :=
      List.rel_append hakin (.cons ⟨.refl _, rfl, rfl⟩ .nil)
    rw [statements_eq, hus, ← stretchesFrom_congr hboth, hdone, stretchesFrom_eof he', hgap]
  rw [statements_eq, tokenize, String.toList_append, hextends, htokens, hdone, stretchesFrom_separator ht hplace, htgap,
    hfirst, statements_eq b,
    stretchesFrom_congr (akin_tokensFrom b.toList pos' 0), ← ofStretches_append]
  simp [tokenize]

/-- A statement of a script is one statement, as it stands. -/
theorem statements_of_mem {sql s : String} (h : s ∈ statements sql) :
    s ≠ "" ∧ Text.trimmed s = s ∧ statements s = [s] := by
  obtain ⟨y, hy, hs, hne⟩ := mem_ofStretches h
  have htrim : Text.trim s.toList = s.toList := by rw [hs, Text.trim_trim]
  have hsingle : Single s.toList := by
    rw [hs]
    exact (single_of_mem_stretchesFrom _ _ hy).trim
  refine ⟨?_, ?_, ?_⟩
  · rintro rfl
    exact hne hs.symm
  · rw [Text.trimmed, htrim, String.ofList_toList]
  · rw [statements_eq, tokenize, hsingle.stretches 0]
    simp [ofStretches, htrim, hs ▸ hne]

/-- Statements with semicolons between them are split at these. -/
theorem statements_intercalate {ss : List String} (hsingle : ∀ s ∈ ss, statements s = [s])
    (h : ∀ s ∈ ss.dropLast, Separable s) : statements (";".intercalate ss) = ss := by
  induction ss with
  | nil =>
    rw [statements_eq, tokenize, String.intercalate_nil, tokensFrom_end rfl]
    rfl
  | cons s ss ih =>
    cases ss with
    | nil =>
      rw [String.intercalate_singleton]
      exact hsingle s (by simp)
    | cons s' ss =>
      have hrest := ih (fun t ht => hsingle t (List.mem_cons_of_mem s ht)) fun t ht => h t (List.mem_cons_of_mem s ht)
      have hjoin : ";".intercalate (s :: s' :: ss) = s ++ ";" ++ ";".intercalate (s' :: ss) := by
        rw [String.intercalate_cons_cons]
      rw [hjoin, statements_append (h s (by simp)), hrest, hsingle s (by simp)]
      rfl

/-- Splitting loses nothing of a script, a statement of it is not split again, and scripts that are separable have the
statements that they have side by side. -/
theorem statements_lossless :
    (∀ sql, Pieces (statements sql) sql.toList ∧ ∀ s ∈ statements sql, s ≠ "" ∧ Text.trimmed s = s ∧ statements s = [s]) ∧
    (∀ a b, Separable a → statements (a ++ ";" ++ b) = statements a ++ statements b) ∧
    ∀ ss : List String, (∀ s ∈ ss, statements s = [s]) → (∀ s ∈ ss.dropLast, Separable s) →
      statements (";".intercalate ss) = ss := by
  refine ⟨fun sql => ⟨?_, fun s hs => statements_of_mem hs⟩, fun a b h => statements_append h b,
    fun ss hsingle h => statements_intercalate hsingle h⟩
  have hpieces := pieces_ofStretches (stretchesFrom {} [] (tokenize sql))
  have hjoin := intercalate_stretchesFrom (whole_tokensFrom sql.toList 0) {} []
  have htext : Token.spelled (tokensFrom 0 sql.toList) = sql.toList := flatMap_tokensFrom sql.toList 0
  rw [tokenize, hjoin, List.nil_append, htext] at hpieces
  exact hpieces

/-- A trigger has semicolons of its own, which separate nothing, and one behind it that does. -/
theorem statements_lossless_trigger :
    statements ("CREATE TRIGGER r AFTER INSERT ON t BEGIN SELECT ';'; END" ++ ";" ++ " DROP TABLE t ; -- done") =
      ["CREATE TRIGGER r AFTER INSERT ON t BEGIN SELECT ';'; END", "DROP TABLE t", "-- done"] := by
  have hseparable : Separable "CREATE TRIGGER r AFTER INSERT ON t BEGIN SELECT ';'; END" := ⟨by decide +kernel, by decide +kernel⟩
  rw [statements_lossless.2.1 _ _ hseparable]
  decide +kernel

end SchemaEditor.Script
