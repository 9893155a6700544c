import SchemaEditor.Proofs.Sql.Splitting

/-!
# Triggers in a script

The body of a trigger holds statements with semicolons of their own. The splitter finds its end by a count of the words
BEGIN, CASE and END, and it counts a column behind a dot as well, if it is spelled like one of these. So a trigger stays
whole if and only if the count is above zero at each of its semicolons and zero at its end.
-/

namespace SchemaEditor.Script

/-! ## Blocks -/

/-- What a token is to the blocks of a trigger. -/
inductive Mark where
  | opens
  | closes
  | separates
  | plain
deriving DecidableEq, Repr

/-- The mark of a token by its kind alone. -/
def markOf : TokenKind → Mark
  | .keyword .begin | .keyword .case => .opens
  | .keyword .end => .closes
  | .semicolon => .separates
  | _ => .plain

/-- The marks of tokens, where a word behind a dot is the name of a column. -/
def marks (behindDot : Bool) : List Token → List Mark
  | [] => []
  | t :: ts => (if behindDot = true ∧ t.keyword?.isSome = true then .plain else markOf t.kind) :: marks (t.kind == .dot) ts

/-- Whether what follows the tokens stands behind a dot. -/
def endsInDot (behindDot : Bool) : List Token → Bool
  | [] => behindDot
  | t :: ts => endsInDot (t.kind == .dot) ts

/-- What opens is closed in turn. -/
inductive Nested : List Mark → Prop where
  | nil : Nested []
  | plain {ms : List Mark} (hms : Nested ms) : Nested (.plain :: ms)
  | separates {ms : List Mark} (hms : Nested ms) : Nested (.separates :: ms)
  | block {ms ns : List Mark} (hms : Nested ms) (hns : Nested ns) : Nested (.opens :: (ms ++ .closes :: ns))

/-- The number of open blocks behind a mark. -/
def level (depth : Nat) : Mark → Nat
  | .opens => depth + 1
  | .closes => depth - 1
  | .separates | .plain => depth

/-- Whether a count that starts at `depth` is above zero at each separator and zero at the end. -/
def shuts (depth : Nat) : List Mark → Bool
  | [] => depth == 0
  | m :: ms => if m = .separates ∧ depth = 0 then false else shuts (level depth m) ms

/-- Nested marks leave the count as it was. -/
theorem shuts_nested {ms : List Mark} (h : Nested ms) {depth : Nat} (hopen : 0 < depth ∨ .separates ∉ ms) (rest : List Mark) :
    shuts depth (ms ++ rest) = shuts depth rest := by
  induction h generalizing depth rest with
  | nil => rfl
  | plain _ ih => simpa [shuts, level] using ih (hopen.imp_right (by simp)) rest
  | separates _ ih =>
    have hdepth : 0 < depth := by simpa using hopen
    simpa [shuts, level, Nat.ne_of_gt hdepth] using ih (.inl hdepth) rest
  | @block ms ns _ _ ihms ihns =>
    have hinside : shuts (depth + 1) (ms ++ .closes :: (ns ++ rest)) = _ := ihms (.inl (Nat.succ_pos depth)) _
    have hbehind : shuts depth (ns ++ rest) = _ := ihns (hopen.imp_right (by simp_all)) rest
    rw [List.cons_append, List.append_assoc, List.cons_append, shuts, level]
    simpa [hinside, shuts, level] using hbehind

theorem marks_append (behindDot : Bool) (ts us : List Token) :
    marks behindDot (ts ++ us) = marks behindDot ts ++ marks (endsInDot behindDot ts) us := by
  induction ts generalizing behindDot with
  | nil => rfl
  | cons t ts ih => simp [marks, endsInDot, ih]

/-- No token behind a dot is spelled like a word that opens or closes a block. -/
def DotsHarmless (ts : List Token) : Prop :=
  ∀ us d t vs, ts = us ++ d :: t :: vs → d.kind = .dot → markOf t.kind ≠ .opens ∧ markOf t.kind ≠ .closes

theorem markOf_keyword {t : Token} {k : Keyword} (ht : t.keyword? = some k) : markOf t.kind = markOf (.keyword k) := by
  rw [Token.kind_of_keyword? ht]

theorem markOf_keyword_ne_separates {t : Token} (ht : t.keyword?.isSome = true) : markOf t.kind ≠ .separates := by
  obtain ⟨k, hk⟩ := Option.isSome_iff_exists.mp ht
  rw [markOf_keyword hk]
  cases k <;> decide

/-- Without such names every token has the mark that its kind has. -/
theorem marks_eq_map {ts : List Token} {behindDot : Bool} (h : DotsHarmless ts)
    (hfirst : behindDot = true → ∀ t ∈ ts.head?, markOf t.kind ≠ .opens ∧ markOf t.kind ≠ .closes) :
    marks behindDot ts = ts.map fun t => markOf t.kind := by
  induction ts generalizing behindDot with
  | nil => rfl
  | cons t ts ih =>
    have htail : marks (t.kind == .dot) ts = ts.map fun t => markOf t.kind := by
      refine ih (fun us d u vs hts => h (t :: us) d u vs (by rw [hts]; rfl)) fun hdot u hu => ?_
      obtain ⟨vs, rfl⟩ := List.head?_eq_some_iff.mp hu
      exact h [] t u vs rfl (by simpa using hdot)
    rw [marks, List.map_cons, htail]
    split
    · next hname =>
      obtain ⟨hopens, hcloses⟩ := hfirst hname.1 t rfl
      have hseparates := markOf_keyword_ne_separates hname.2
      cases hm : markOf t.kind <;> simp_all
    · rfl

/-! ## Triggers -/

/-- The words that a trigger begins with. -/
def openings : List (List (Option Keyword)) :=
  [[some .create, some .trigger], [some .create, some .temp, some .trigger], [some .create, some .temporary, some .trigger]]

/-- The text is a trigger, from its first word to its last. Its blocks are nested, and no semicolon stands in front of its
body. `ts` are its tokens behind the word TRIGGER. -/
inductive TriggerText (a : String) : List Token → Prop where
  | mk {words head body : List Token} {b e last : Token} (htokens : tokenize a = words ++ (head ++ b :: (body ++ [e, last])))
      (hstart : ∀ t ∈ words.head?, t.gap = []) (hlast : last.gap = []) (hwords : words.map Token.keyword? ∈ openings)
      (hhead : Nested (marks false head)) (hnone : .separates ∉ marks false head) (hbefore : endsInDot false head = false)
      (hb : b.keyword? = some .begin) (hbody : Nested (marks false body)) (hbehind : endsInDot false body = false)
      (he : e.keyword? = some .end) : TriggerText a (head ++ b :: (body ++ [e]))

/-- A trigger that has no such names passes the count. -/
theorem TriggerText.shuts_of_dotsHarmless {a : String} {ts : List Token} (h : TriggerText a ts) (hdots : DotsHarmless ts) :
    shuts 0 (ts.map fun t => markOf t.kind) = true := by
  obtain @⟨words, head, body, b, e, last, -, -, -, -, hhead, hnone, hbefore, hb, hbody, hbehind, he⟩ := h
  have hbegin : markOf b.kind = .opens := markOf_keyword hb
  have hend : markOf e.kind = .closes := markOf_keyword he
  have hdot : (b.kind == .dot) = false := by rw [Token.kind_of_keyword? hb]; rfl
  have hmarks : marks false (head ++ b :: (body ++ [e])) = marks false head ++ .opens :: (marks false body ++ [.closes]) := by
    simp [marks_append, marks, hbefore, hbehind, hbegin, hend, hdot]
  have hsame : marks false (head ++ b :: (body ++ [e])) = _ := marks_eq_map hdots (by simp)
  rw [← hsame, hmarks, shuts_nested hhead (.inr hnone), shuts, level, shuts_nested hbody (.inl Nat.one_pos)]
  rfl

/-! ## The count of the splitter -/

section
variable {p : Place} {text : List Char} {t : Token} {ts : List Token}

theorem isTrigger_extendLeading {leading : List (Option Keyword)} (h : isTrigger leading = true) (t : Token) :
    isTrigger (extendLeading leading t) = true := by
  unfold extendLeading
  split
  · unfold isTrigger at h
    split at h <;> simp_all [isTrigger]
  · exact h

/-- In a trigger the splitter counts every word that looks like one of a block. -/
theorem after_trigger (hp : isTrigger p.leading = true) (ht : ¬(t.kind = .semicolon ∧ p.depth = 0)) :
    isTrigger (p.after t).leading = true ∧ (p.after t).depth = level p.depth (markOf t.kind) := by
  have hleading := isTrigger_extendLeading hp t
  rw [Place.after, if_neg ht]
  refine ⟨hleading, ?_⟩
  show blockDepth (extendLeading p.leading t) p.depth t = _
  rw [blockDepth, if_pos hleading, Token.keyword?]
  cases hk : t.kind with
  | keyword k => cases k <;> rfl
  | _ => rfl

/-- Inside of a trigger the tokens are split at the first semicolon where the count is zero. If there is none, they are
not split, and the count goes on behind them. -/
theorem stretchesFrom_trigger (hp : isTrigger p.leading = true) (hts : ∀ t ∈ ts, t.kind ≠ .eof) :
    (shuts p.depth (ts.map fun t => markOf t.kind) = false ∧ ∃ us s vs, ts = us ++ s :: vs ∧ s.kind = .semicolon ∧
        ∀ text post, stretchesFrom p text (ts ++ post) =
          (text ++ Token.spelled us ++ s.gap) :: stretchesFrom {} [] (vs ++ post)) ∨
      ∃ q : Place, (shuts p.depth (ts.map fun t => markOf t.kind) = true ↔ q.depth = 0) ∧
        ∀ text post, stretchesFrom p text (ts ++ post) = stretchesFrom q (text ++ Token.spelled ts) post := by
  induction ts generalizing p with
  | nil => exact .inr ⟨p, by simp [shuts], fun text post => by simp [Token.spelled]⟩
  | cons t ts ih =>
    have ht := hts t List.mem_cons_self
    by_cases hsep : t.kind = .semicolon ∧ p.depth = 0
    · refine .inl ⟨?_, [], t, ts, rfl, hsep.1, fun text post => ?_⟩
      · simp [shuts, markOf, hsep]
      · rw [List.cons_append, stretchesFrom_separator hsep.1 hsep.2]
        simp [Token.spelled]
    · obtain ⟨hleading, hdepth⟩ := after_trigger hp hsep
      have hshuts : shuts p.depth ((t :: ts).map fun t => markOf t.kind) =
          shuts (p.after t).depth (ts.map fun t => markOf t.kind) := by
        have hmark : ¬(markOf t.kind = .separates ∧ p.depth = 0) := by
          rintro ⟨hmark, hzero⟩
          refine hsep ⟨?_, hzero⟩
          cases hk : t.kind with
          | semicolon => rfl
          | keyword k => cases k <;> simp [hk, markOf] at hmark
          | _ => simp [hk, markOf] at hmark
        rw [List.map_cons, shuts, if_neg hmark, hdepth]
      rw [hshuts]
      have hstep (text : List Char) (post : List Token) : stretchesFrom p text ((t :: ts) ++ post) =
          stretchesFrom (p.after t) (text ++ t.gap ++ t.text) (ts ++ post) := stretchesFrom_token ht hsep
      have hspelled (us : List Token) : Token.spelled (t :: us) = t.gap ++ t.text ++ Token.spelled us := rfl
      rcases ih hleading fun u hu => hts u (List.mem_cons_of_mem t hu) with
        ⟨hshut, us, s, vs, rfl, hs, hfirst⟩ | ⟨q, hq, hwhole⟩
      · refine .inl ⟨hshut, t :: us, s, vs, rfl, hs, fun text post => ?_⟩
        rw [hstep, hfirst, hspelled]
        simp
      · refine .inr ⟨q, hq, fun text post => ?_⟩
        rw [hstep, hwhole, hspelled]
        simp

/-- Behind its first words a text is known as a trigger. -/
theorem stretchesFrom_openings {words : List Token} (hwords : words.map Token.keyword? ∈ openings) (us : List Token) :
    stretchesFrom {} [] (words ++ us) = stretchesFrom ⟨words.map Token.keyword?, 0⟩ (Token.spelled words) us ∧
      isTrigger (words.map Token.keyword?) = true := by
  have hproper {t : Token} {k : Keyword} (ht : t.keyword? = some k) : t.kind ≠ .eof ∧ t.kind ≠ .semicolon := by
    simp [Token.kind_of_keyword? ht]
  have hword {p : Place} {text : List Char} {t : Token} {ts : List Token} {k : Keyword} (ht : t.keyword? = some k) :
      stretchesFrom p text (t :: ts) = stretchesFrom (p.after t) (text ++ t.gap ++ t.text) ts :=
    stretchesFrom_token (hproper ht).1 fun h => (hproper ht).2 h.1
  simp only [openings, List.mem_cons, List.not_mem_nil, or_false, List.map_eq_cons_iff, List.map_eq_nil_iff] at hwords
  rcases hwords with ⟨c, _, rfl, hc, g, _, rfl, hg, rfl⟩ | ⟨c, _, rfl, hc, m, _, rfl, hm, g, _, rfl, hg, rfl⟩ |
    ⟨c, _, rfl, hc, m, _, rfl, hm, g, _, rfl, hg, rfl⟩
  · simp [hword hc, hword hg, Place.after, hproper hc, hproper hg, extendLeading, blockDepth, isTrigger, hc, hg, Token.spelled]
  all_goals
    simp [hword hc, hword hm, hword hg, Place.after, hproper hc, hproper hm, hproper hg, extendLeading, blockDepth, isTrigger, hc,
      hm, hg, Token.spelled]

/-- The first stretch begins with what it has so far. -/
theorem stretchesFrom_begins (p : Place) (text : List Char) (ts : List Token) :
    ∃ more ys, stretchesFrom p text ts = (text ++ more) :: ys := by
  induction ts generalizing p text with
  | nil => exact ⟨[], [], by simp [stretchesFrom, stretches]⟩
  | cons t ts ih =>
    by_cases hend : t.kind = .eof
    · exact ⟨t.gap, [], stretchesFrom_eof hend⟩
    by_cases hsep : t.kind = .semicolon ∧ p.depth = 0
    · exact ⟨t.gap, _, stretchesFrom_separator hsep.1 hsep.2⟩
    · obtain ⟨more, ys, h⟩ := ih (p.after t) (text ++ t.gap ++ t.text)
      exact ⟨t.gap ++ t.text ++ more, ys, by rw [stretchesFrom_token hend hsep, h]; simp⟩

end

/-! ## Words of a text -/

theorem wordChars_of_lexeme {c : Char} {cs : List Char} {k : Keyword} (h : (lexeme c cs).kind = .keyword k) :
    ∀ x ∈ (lexeme c cs).text, isWordChar x = true := by
  revert h
  refine lexeme_alike (P := fun l _ => l.kind = .keyword k → ∀ x ∈ l.text, isWordChar x = true) Iff.rfl Iff.rfl
    ?string ?quoted ?bracket ?blob ?number ?word ?operator
  case string => unfold stringLiteral; dsimp only; split <;> exact fun _ h => nomatch h
  case quoted => unfold quotedName; dsimp only; split <;> exact fun _ h => nomatch h
  case bracket => unfold bracketName; split <;> exact fun _ h => nomatch h
  case blob => unfold blobLiteral; dsimp only; split <;> exact fun _ _ h => nomatch h
  case number => exact fun h => nomatch h
  case word => exact fun _ x hx => List.mem_takeWhile_imp hx
  case operator =>
    intro h
    have hword := isWordLike_operator c cs
    rw [h] at hword
    cases hword

/-- There are no blanks in a keyword. -/
theorem text_of_keyword {cs : List Char} {pos : Nat} {t : Token} {k : Keyword} (h : t ∈ tokensFrom pos cs)
    (ht : t.keyword? = some k) : t.text ≠ [] ∧ ∀ x ∈ t.text, Text.isBlank x = false := by
  have hkind := Token.kind_of_keyword? ht
  induction cs using token_induction generalizing pos with
  | atEnd cs gap hgap =>
    rw [tokensFrom_end hgap, List.mem_singleton] at h
    rw [h] at hkind
    cases hkind
  | cons cs gap c rest hgap ih =>
    rw [tokensFrom_cons hgap, List.mem_cons] at h
    rcases h with rfl | h
    · refine ⟨lexeme_text_ne_nil c rest, fun x hx => ?_⟩
      have hword := wordChars_of_lexeme hkind x hx
      by_contra hblank
      rw [(stops_of_isBlank (by simpa using hblank)).word] at hword
      cases hword
    · exact ih h

/-- A semicolon behind the last token of a text is read as one, and the tokens of what follows come behind it. -/
theorem tokenize_before_semicolon {a : String} {ts : List Token} {e last : Token} (h : tokenize a = ts ++ [e, last])
    (he : e.kind.isEnd = false) (hlast : last.gap = []) (r : String) :
    ∃ s pos, s.kind = .semicolon ∧ s.gap = [] ∧ s.text = [';'] ∧
      tokenize (a ++ ";" ++ r) = ts ++ e :: s :: tokensFrom pos r.toList := by
  have hproper : e.kind ≠ .eof := by
    intro hk
    rw [hk] at he
    cases he
  obtain ⟨pos, rest, -, hrest, hextend⟩ := tokensFrom_extend h hproper
  have hlexed : tokensFrom pos rest = [e] ++ [last] := hrest
  have hbehind := tokensFrom_append_delimiter (d := ';') (by decide) r.toList rest pos hlexed hlast (by simpa using he)
  have hgap : splitGap .blank (';' :: r.toList) = ([], ';' :: r.toList) := by
    have hblank : Text.isBlank ';' = false := by decide
    simp [splitGap, hblank]
  obtain ⟨s, pos', hs, hempty, htext, hsemicolon⟩ : ∃ s pos', s.kind = .semicolon ∧ s.gap = [] ∧ s.text = [';'] ∧
      tokensFrom (pos + byteLength rest) (';' :: r.toList) = s :: tokensFrom pos' r.toList := by
    rw [tokensFrom_cons hgap, lexeme_semicolon]
    exact ⟨_, _, rfl, rfl, rfl, rfl⟩
  refine ⟨s, pos', hs, hempty, htext, ?_⟩
  have happ : (a ++ ";" ++ r).toList = a.toList ++ ';' :: r.toList := by simp
  rw [tokenize, happ, hextend, hbehind, hsemicolon, List.singleton_append]

section
variable {a : String} {ts : List Token}

/-- The tokens of a trigger, and the text that they make up. -/
theorem TriggerText.exists_tokens (h : TriggerText a ts) : ∃ words us e last, ts = us ++ [e] ∧ e.keyword? = some .end ∧
    tokenize a = (words ++ us) ++ [e, last] ∧ last.gap = [] ∧ words.map Token.keyword? ∈ openings ∧
      (∀ t ∈ words ++ ts, t.kind ≠ .eof ∧ t.text ≠ []) ∧ a.toList = Token.spelled words ++ Token.spelled ts ∧
      ∃ c w, Token.spelled words = c :: w ∧ Text.isBlank c = false := by
  obtain @⟨words, head, body, b, e, last, htokens, hstart, hlast, hwords, -, -, -, -, -, -, he⟩ := h
  have htokens' : tokensFrom 0 a.toList = (words ++ (head ++ b :: (body ++ [e]))) ++ [last] := by
    simpa [tokenize] using htokens
  obtain ⟨vs, last', hvs, -, htext, hproper⟩ := tokensFrom_eq_append_end a.toList 0
  obtain ⟨rfl, hsame⟩ := List.append_inj' (htokens'.symm.trans hvs) rfl
  obtain rfl : last = last' := by simpa using hsame
  have hspelled := flatMap_tokensFrom a.toList 0
  rw [htokens', List.flatMap_append, List.flatMap_append] at hspelled
  refine ⟨words, head ++ b :: body, e, last, by simp, he, by simpa using htokens, hlast, hwords, hproper, ?_, ?_⟩
  · rw [← hspelled]
    simp [Token.spelled, hlast, htext]
  · obtain ⟨c, rest, rfl, k, hc⟩ : ∃ c rest, words = c :: rest ∧ ∃ k, c.keyword? = some k := by
      cases words with
      | nil => simp [openings] at hwords
      | cons c rest =>
        refine ⟨c, rest, rfl, .create, ?_⟩
        simp only [openings, List.map_cons, List.mem_cons, List.cons.injEq, List.not_mem_nil, or_false] at hwords
        rcases hwords with ⟨hc, -⟩ | ⟨hc, -⟩ | ⟨hc, -⟩ <;> exact hc
    have hmem : c ∈ tokensFrom 0 a.toList := by simp [htokens']
    obtain ⟨hne, hblank⟩ := text_of_keyword hmem hc
    obtain ⟨x, w, hx⟩ := List.exists_cons_of_ne_nil hne
    refine ⟨x, w ++ Token.spelled rest, ?_, hblank x (by simp [hx])⟩
    simp [Token.spelled, hstart c rfl, hx]

/-- There is nothing around a trigger to be trimmed. -/
theorem TriggerText.trim_eq (h : TriggerText a ts) : Text.trim a.toList = a.toList := by
  obtain ⟨words, us, e, last, rfl, he, htokens, -, -, -, ha, c, w, hc, hblank⟩ := h.exists_tokens
  have hmem : e ∈ tokensFrom 0 a.toList := by
    rw [show tokensFrom 0 a.toList = _ from htokens]
    simp
  obtain ⟨hne, hend⟩ := text_of_keyword hmem he
  obtain ⟨v, x, hx⟩ := (List.eq_nil_or_concat e.text).resolve_left hne
  rw [List.concat_eq_append] at hx
  have hlast : a.toList = (Token.spelled words ++ Token.spelled us ++ e.gap ++ v) ++ [x] := by
    rw [ha]
    simp [Token.spelled, hx]
  refine Text.trim_eq_self.mpr ⟨fun d hd => ?_, fun d hd => ?_⟩
  · rw [ha, hc, List.cons_append, List.head?_cons] at hd
    rwa [← Option.some.inj hd]
  · rw [hlast, List.getLast?_append, List.getLast?_singleton] at hd
    obtain rfl : x = d := by simpa using hd
    exact hend x (by simp [hx])

/-- A stretch that begins with no blank is the first statement, once it is trimmed. -/
theorem ofStretches_cons {c : Char} {w : List Char} (hc : Text.isBlank c = false) (ys : List (List Char)) :
    ofStretches ((c :: w) :: ys) = String.ofList (Text.trim (c :: w)) :: ofStretches ys := by
  have hne : Text.trim (c :: w) ≠ [] := by
    intro hnil
    obtain ⟨l, r, hsplit, hl, hr⟩ := Text.exists_trim (c :: w)
    rw [hnil, List.nil_append] at hsplit
    have hmem : c ∈ l ++ r := hsplit ▸ List.mem_cons_self
    have hblank : Text.isBlank c = true := (List.mem_append.mp hmem).elim (hl c) (hr c)
    rw [hblank] at hc
    cases hc
  simp [ofStretches, hne]

/-- A stretch that goes on behind a text with a semicolon is not the text, once it is trimmed. -/
theorem trim_ne_of_semicolon {c : Char} {w more : List Char} (hc : Text.isBlank c = false) :
    Text.trim (c :: w ++ ';' :: more) ≠ c :: w := by
  intro htrim
  obtain ⟨l, r, hsplit, hl, hr⟩ := Text.exists_trim (c :: w ++ ';' :: more)
  rw [htrim] at hsplit
  rcases l with _ | ⟨x, l⟩
  · rw [List.nil_append] at hsplit
    have hmem : ';' ∈ r := (List.append_cancel_left hsplit) ▸ List.mem_cons_self
    exact absurd (hr ';' hmem) (by decide)
  · obtain rfl : c = x := by simpa using congrArg List.head? hsplit
    rw [hl c List.mem_cons_self] at hc
    cases hc

/-- A first stretch that goes on behind a text with a semicolon does not give the text. -/
theorem ofStretches_ne_of_longer {c : Char} {w more : List Char} (ha : a.toList = c :: w) (hc : Text.isBlank c = false)
    (ys : List (List Char)) (zs : List String) : ofStretches ((a.toList ++ ';' :: more) :: ys) ≠ a :: zs := by
  intro heq
  rw [ha, List.cons_append, ofStretches_cons hc] at heq
  have hhead := congrArg String.toList (List.cons.inj heq).1
  rw [String.toList_ofList, ha] at hhead
  exact trim_ne_of_semicolon hc hhead

theorem length_trim_le (cs : List Char) : (Text.trim cs).length ≤ cs.length := by
  obtain ⟨l, r, hsplit, -, -⟩ := Text.exists_trim cs
  have hlength := congrArg List.length hsplit
  simp only [List.length_append] at hlength
  omega

/-- Nor does a first stretch that is shorter. -/
theorem ofStretches_ne_of_shorter {c : Char} {v : List Char} (hc : Text.isBlank c = false)
    (hshort : (c :: v).length < a.toList.length) (ys : List (List Char)) (zs : List String) :
    ofStretches ((c :: v) :: ys) ≠ a :: zs := by
  intro heq
  rw [ofStretches_cons hc] at heq
  have hhead := congrArg String.toList (List.cons.inj heq).1
  rw [String.toList_ofList] at hhead
  have hlength := length_trim_le (c :: v)
  rw [hhead] at hlength
  omega

/-- In front of any script a trigger is the first statement and stays whole if and only if the splitter counts a block at
each of its semicolons and none at its end. This is so for every trigger in which no column behind a dot is spelled like a
word that opens or closes a block. -/
theorem statements_trigger (h : TriggerText a ts) :
    (∀ r, statements (a ++ ";" ++ r) = a :: statements r ↔ shuts 0 (ts.map fun t => markOf t.kind) = true) ∧
      (DotsHarmless ts → ∀ r, statements (a ++ ";" ++ r) = a :: statements r) := by
  suffices hiff : ∀ r, statements (a ++ ";" ++ r) = a :: statements r ↔ shuts 0 (ts.map fun t => markOf t.kind) = true from
    ⟨hiff, fun hdots r => (hiff r).mpr (h.shuts_of_dotsHarmless hdots)⟩
  intro r
  have htrim := h.trim_eq
  obtain ⟨words, us, e, last, rfl, he, htokens, hlast, hwords, hproper, ha, c, w, hc, hblank⟩ := h.exists_tokens
  have hend : e.kind.isEnd = false := by rw [Token.kind_of_keyword? he]; rfl
  obtain ⟨s, pos, hs, hgap, htext, hsplit⟩ := tokenize_before_semicolon htokens hend hlast r
  have hwhole : statements (a ++ ";" ++ r) = ofStretches (stretchesFrom ⟨words.map Token.keyword?, 0⟩ (Token.spelled words)
      ((us ++ [e]) ++ s :: tokensFrom pos r.toList)) := by
    rw [statements_eq, hsplit, ← (stretchesFrom_openings hwords _).1]
    simp
  have hcons : a.toList = c :: (w ++ Token.spelled (us ++ [e])) := by rw [ha, hc]; rfl
  have hbody := stretchesFrom_trigger (p := ⟨words.map Token.keyword?, 0⟩) (stretchesFrom_openings hwords []).2
    fun t ht => (hproper t (List.mem_append_right words ht)).1
  rw [hwhole]
  rcases hbody with ⟨hshut, vs, d, zs, hvs, hd, hfirst⟩ | ⟨q, hq, hwhole'⟩
  · -- the first stretch ends within the trigger
    refine iff_of_false ?_ (by rw [show shuts 0 _ = false from hshut]; exact Bool.false_ne_true)
    have htext : 0 < d.text.length :=
      List.length_pos_iff.mpr (hproper d (List.mem_append_right words (by simp [hvs]))).2
    have hshort : (c :: (w ++ Token.spelled vs ++ d.gap)).length < a.toList.length := by
      rw [hcons, hvs]
      simp only [Token.spelled, List.flatMap_append, List.flatMap_cons, List.length_append, List.length_cons]
      omega
    rw [hfirst, hc, List.cons_append, List.cons_append]
    exact ofStretches_ne_of_shorter hblank hshort _ _
  rw [hwhole', ← ha]
  by_cases hdepth : q.depth = 0
  · refine iff_of_true ?_ (hq.mpr hdepth)
    have hr : statements r = ofStretches (stretchesFrom {} [] (tokensFrom pos r.toList)) := by
      rw [statements_eq, tokenize, stretchesFrom_congr (akin_tokensFrom r.toList 0 pos)]
    rw [stretchesFrom_separator hs hdepth, hgap, List.append_nil, hr, hcons, ofStretches_cons hblank, ← hcons, htrim,
      String.ofList_toList]
  · -- the first stretch goes on behind the semicolon
    refine iff_of_false ?_ (mt hq.mp hdepth)
    obtain ⟨more, ys, hmore⟩ := stretchesFrom_begins (q.after s) (a.toList ++ s.gap ++ s.text) (tokensFrom pos r.toList)
    rw [stretchesFrom_token (by simp [hs]) (fun hsep => hdepth hsep.2), hmore, hgap, htext, List.append_nil,
      List.append_assoc, List.singleton_append]
    exact ofStretches_ne_of_longer hcons hblank _ _

end

/-- A column that is called end closes the body as far as the splitter goes, and the trigger is cut in two. -/
theorem statements_trigger_endColumn : ∃ ts, TriggerText "CREATE TRIGGER g DELETE ON t BEGIN SELECT old.end;END" ts ∧
    statements ("CREATE TRIGGER g DELETE ON t BEGIN SELECT old.end;END" ++ ";" ++ "SELECT 1") ≠
      "CREATE TRIGGER g DELETE ON t BEGIN SELECT old.end;END" :: statements "SELECT 1" := by
  let word (k : TokenKind) (pos : Nat) (w : String) : Token := ⟨k, ⟨pos, pos + w.length⟩, [' '], w.toList⟩
  let joined (k : TokenKind) (pos : Nat) (w : String) : Token := ⟨k, ⟨pos, pos + w.length⟩, [], w.toList⟩
  let words : List Token := [joined (.keyword .create) 0 "CREATE", word (.keyword .trigger) 7 "TRIGGER"]
  let head : List Token := [word (.identifier "g") 15 "g", word (.identifier "DELETE") 17 "DELETE", word (.keyword .on) 24 "ON",
    word (.identifier "t") 27 "t"]
  let b : Token := word (.keyword .begin) 29 "BEGIN"
  let body : List Token := [word (.keyword .select) 35 "SELECT", word (.identifier "old") 42 "old", joined .dot 45 ".",
    joined (.keyword .end) 46 "end", joined .semicolon 49 ";"]
  let e : Token := joined (.keyword .end) 50 "END"
  have htokens : tokenize "CREATE TRIGGER g DELETE ON t BEGIN SELECT old.end;END" =
      words ++ (head ++ b :: (body ++ [e, joined .eof 53 ""])) := by decide +kernel
  have hhead : marks false head = [.plain, .plain, .plain, .plain] := by decide
  have hbody : marks false body = [.plain, .plain, .plain, .plain, .separates] := by decide
  have htrigger : TriggerText "CREATE TRIGGER g DELETE ON t BEGIN SELECT old.end;END" (head ++ b :: (body ++ [e])) := by
    refine .mk htokens (by simp [words, joined]) rfl (by decide) ?_ (by rw [hhead]; decide) rfl rfl ?_ rfl rfl
    · rw [hhead]
      exact .plain (.plain (.plain (.plain .nil)))
    · rw [hbody]
      exact .plain (.plain (.plain (.plain (.separates .nil))))
  refine ⟨_, htrigger, mt ((statements_trigger htrigger).1 "SELECT 1").mp ?_⟩
  decide

end SchemaEditor.Script
