import SchemaEditor.Sql.Lexer

/-!
# Tokens in their surroundings

A text that is cut into tokens to its end is cut in the same way in front of a delimiter: the scanners
look no further than one character behind a token, and a delimiter, like a blank, extends none. So the tokens
of a text made of parts are the tokens of the parts.
-/

namespace SchemaEditor

/-- The characters that stand behind the parts of a printed definition. -/
def isDelimiter (c : Char) : Bool := [' ', '\t', '\n', ',', '(', ')', ';'].contains c

theorem eq_of_isDelimiter {d : Char} (hd : isDelimiter d = true) :
    d = ' ' ∨ d = '\t' ∨ d = '\n' ∨ d = ',' ∨ d = '(' ∨ d = ')' ∨ d = ';' := by
  simpa [isDelimiter] using hd

/-- Behind a token the character ends it: it is no part of a word or number, and no second character of anything. -/
structure Stops (d : Char) : Prop where
  word : isWordChar d = false
  digit : d.isDigit = false
  hex : isHexDigit d = false
  mark : d ∉ ['\'', '"', '\x60', ']', '=', '<', '>', '|', '-', '+', '*', '/', '.', 'e', 'E', 'x', 'X']

instance (d : Char) : Decidable (Stops d) :=
  decidable_of_iff (isWordChar d = false ∧ d.isDigit = false ∧ isHexDigit d = false ∧
      d ∉ ['\'', '"', '\x60', ']', '=', '<', '>', '|', '-', '+', '*', '/', '.', 'e', 'E', 'x', 'X'])
    ⟨fun h => ⟨h.1, h.2.1, h.2.2.1, h.2.2.2⟩, fun h => ⟨h.word, h.digit, h.hex, h.mark⟩⟩

theorem stops_of_isDelimiter {d : Char} (hd : isDelimiter d = true) : Stops d := by
  rcases eq_of_isDelimiter hd with rfl | rfl | rfl | rfl | rfl | rfl | rfl <;> decide

theorem stops_of_isBlank {d : Char} (hd : Text.isBlank d = true) : Stops d := by
  have hblanks : ∀ r ∈ Text.blankRanges, ∀ n ∈ List.range' r.1 (r.2 + 1 - r.1), Stops (Char.ofNat n) := by decide +kernel
  obtain ⟨r, hr, hlo, hhi⟩ := Text.inRanges_eq_true_iff.mp hd
  have hstops := hblanks r hr d.toNat (by rw [List.mem_range'_1]; omega)
  rwa [Char.ofNat_toNat] at hstops

/-- It is no quote and no second character of an operator, number or comment. -/
theorem Stops.ne {d : Char} (hd : Stops d) : d ≠ '\'' ∧ d ≠ '"' ∧ d ≠ '\x60' ∧ d ≠ '-' ∧ d ≠ '*' ∧ d ≠ '.' ∧ d ≠ '+' ∧
    d ≠ 'e' ∧ d ≠ 'E' ∧ d ≠ 'x' ∧ d ≠ 'X' := by
  have hmark := hd.mark
  simp_all

theorem Stops.pairKind? {d : Char} (hd : Stops d) (c : Char) : pairKind? c d = none := by
  have hmark := hd.mark
  unfold SchemaEditor.pairKind?
  split <;> simp_all

/-! ## Scanners -/

section
variable {α : Type} (p : α → Bool) {a : α} (ha : p a = false) (as bs : List α)
include ha

theorem takeWhile_append_stop : (as ++ a :: bs).takeWhile p = as.takeWhile p := by
  induction as with
  | nil => simp [ha]
  | cons b as ih => by_cases hb : p b <;> simp [hb, ih]

theorem dropWhile_append_stop : (as ++ a :: bs).dropWhile p = as.dropWhile p ++ a :: bs := by
  induction as with
  | nil => simp [ha]
  | cons b as ih => by_cases hb : p b <;> simp [hb, ih]

end

/-- A run that has ended does not go on in what is appended. -/
theorem takeWhile_append_of_ended {α : Type} {p : α → Bool} {as : List α} (h : as.dropWhile p ≠ []) (bs : List α) :
    (as ++ bs).takeWhile p = as.takeWhile p ∧ (as ++ bs).dropWhile p = as.dropWhile p ++ bs := by
  induction as with
  | nil => exact absurd rfl h
  | cons a as ih =>
    by_cases ha : p a = true
    · rw [List.dropWhile_cons, if_pos ha] at h
      simp [ha, ih h]
    · simp [ha]

theorem quotation_append_stop {q d : Char} (hq : d ≠ q) (cs ds : List Char) (hc : (quotation q cs).closed = true) :
    quotation q (cs ++ d :: ds) =
      ⟨(quotation q cs).value, (quotation q cs).text, (quotation q cs).rest ++ d :: ds, true⟩ := by
  fun_induction quotation q cs <;> simp_all +zetaDelta [quotation]

theorem blobBody_append_stop (cs ds : List Char) (hc : (blobBody cs).error? = none) :
    blobBody (cs ++ ds) = ⟨(blobBody cs).bytes, (blobBody cs).text, (blobBody cs).rest ++ ds, none⟩ := by
  fun_induction blobBody cs with
  | case2 => cases ds <;> simp_all [blobBody]
  | _ => simp_all +zetaDelta [blobBody]

theorem bracketName_append (cs ds : List Char) (hk : (bracketName cs).kind.isEnd = false) :
    bracketName (cs ++ ds) = ⟨(bracketName cs).kind, (bracketName cs).text, (bracketName cs).rest ++ ds⟩ := by
  unfold bracketName at hk ⊢
  cases hrest : cs.dropWhile (· != ']') with
  | nil => simp [hrest, TokenKind.isEnd] at hk
  | cons b rest =>
    obtain ⟨htake, hdrop⟩ := takeWhile_append_of_ended (p := (· != ']')) (by rw [hrest]; simp) ds
    simp only [htake, hdrop, hrest, List.cons_append]

theorem isEnd_stringLiteral (cs : List Char) : (stringLiteral cs).kind.isEnd = !(quotation '\'' cs).closed := by
  cases hclosed : (quotation '\'' cs).closed <;> simp [stringLiteral, hclosed, TokenKind.isEnd]

theorem isEnd_quotedName (q : Char) (cs : List Char) : (quotedName q cs).kind.isEnd = !(quotation q cs).closed := by
  cases hclosed : (quotation q cs).closed <;> simp [quotedName, hclosed, TokenKind.isEnd]

theorem isEnd_blobLiteral (x : Char) (cs : List Char) : (blobLiteral x cs).kind.isEnd = (blobBody cs).error?.isSome := by
  cases herror : (blobBody cs).error? <;> simp [blobLiteral, herror, TokenKind.isEnd]

section
variable {d : Char} (cs ds : List Char)

theorem stringLiteral_append_stop (hd : d ≠ '\'') (hk : (stringLiteral cs).kind.isEnd = false) :
    stringLiteral (cs ++ d :: ds) = ⟨(stringLiteral cs).kind, (stringLiteral cs).text, (stringLiteral cs).rest ++ d :: ds⟩ := by
  have hclosed : (quotation '\'' cs).closed = true := by simpa [isEnd_stringLiteral] using hk
  simp only [stringLiteral, quotation_append_stop hd cs ds hclosed, hclosed]

theorem quotedName_append_stop {q : Char} (hd : d ≠ q) (hk : (quotedName q cs).kind.isEnd = false) :
    quotedName q (cs ++ d :: ds) = ⟨(quotedName q cs).kind, (quotedName q cs).text, (quotedName q cs).rest ++ d :: ds⟩ := by
  have hclosed : (quotation q cs).closed = true := by simpa [isEnd_quotedName] using hk
  simp only [quotedName, quotation_append_stop hd cs ds hclosed, hclosed]

theorem blobLiteral_append (x : Char) (hk : (blobLiteral x cs).kind.isEnd = false) :
    blobLiteral x (cs ++ ds) = ⟨(blobLiteral x cs).kind, (blobLiteral x cs).text, (blobLiteral x cs).rest ++ ds⟩ := by
  have hok : (blobBody cs).error? = none := by simpa [isEnd_blobLiteral] using hk
  simp only [blobLiteral, blobBody_append_stop cs ds hok, hok]

theorem word_append_stop (hd : isWordChar d = false) :
    word (cs ++ d :: ds) = ⟨(word cs).kind, (word cs).text, (word cs).rest ++ d :: ds⟩ := by
  simp only [word, takeWhile_append_stop _ hd, dropWhile_append_stop _ hd]

end

/-- The first character and a look at the next one choose the scanner. What relates the tokens of each scanner relates the
tokens of two texts for which the choice is the same. -/
theorem lexeme_alike {c : Char} {cs ds : List Char} {P : Lexeme → Lexeme → Prop}
    (hblob : (c = 'x' ∨ c = 'X') ∧ ds.head? = some '\'' ↔ (c = 'x' ∨ c = 'X') ∧ cs.head? = some '\'')
    (hnumber : (c.isDigit = true ∨ c = '.' ∧ ds.head?.any Char.isDigit = true) ↔
      (c.isDigit = true ∨ c = '.' ∧ cs.head?.any Char.isDigit = true))
    (string : c = '\'' → P (stringLiteral cs) (stringLiteral ds))
    (quoted : c = '"' ∨ c = '\x60' → P (quotedName c cs) (quotedName c ds))
    (bracket : c = '[' → P (bracketName cs) (bracketName ds))
    (blob : c = 'x' ∨ c = 'X' → cs.head? = some '\'' → P (blobLiteral c cs.tail) (blobLiteral c ds.tail))
    (number : P (numberLiteral (c :: cs)) (numberLiteral (c :: ds)))
    (word : P (word (c :: cs)) (word (c :: ds)))
    (operator : P (operator c cs) (operator c ds)) : P (lexeme c cs) (lexeme c ds) := by
  unfold lexeme
  simp only [hblob, hnumber]
  split
  · next h => exact string h
  split
  · next h => exact quoted h
  split
  · next h => exact bracket h
  split
  · next h => exact blob h.1 h.2
  split
  · exact number
  split
  · exact word
  · exact operator

theorem operator_of_pair {c d : Char} {k : TokenKind} (h : pairKind? c d = some k) (cs : List Char) :
    operator c (d :: cs) = ⟨k, [c, d], cs⟩ := by
  simp [operator, h]

theorem operator_of_single {c : Char} {cs : List Char} (h : cs.head?.bind (pairKind? c) = none) :
    operator c cs = ⟨(singleKind? c).getD (.error (.unexpected c)), [c], cs⟩ := by
  unfold operator
  rw [h]

theorem operator_of_unpaired {c : Char} (h : ∀ d, pairKind? c d = none) (cs : List Char) :
    operator c cs = ⟨(singleKind? c).getD (.error (.unexpected c)), [c], cs⟩ :=
  operator_of_single (by cases cs <;> simp [h])

theorem isWordLike_operator (c : Char) (cs : List Char) : (operator c cs).kind.isWordLike = false := by
  unfold operator
  split
  · next hpair =>
    obtain ⟨d, -, hd⟩ := Option.bind_eq_some_iff.mp hpair
    unfold pairKind? at hd
    split at hd <;> cases hd <;> rfl
  · unfold singleKind?
    split <;> rfl

/-- What is no literal, name or keyword is an operator or a delimiter. -/
theorem lexeme_eq_operator {c : Char} {cs : List Char} (hk : (lexeme c cs).kind.isEnd = false)
    (hw : (lexeme c cs).kind.isWordLike = false) : lexeme c cs = operator c cs := by
  have hliteral {l : Lexeme} (hl : (l.kind.isEnd || l.kind.isWordLike) = true) (hk : l.kind.isEnd = false)
      (hw : l.kind.isWordLike = false) : l = operator c cs := by
    rw [hk, hw] at hl
    cases hl
  revert hk hw
  refine lexeme_alike (P := fun l _ => l.kind.isEnd = false → l.kind.isWordLike = false → l = operator c cs) Iff.rfl Iff.rfl
    ?string ?quoted ?bracket ?blob ?number ?word ?operator
  case string => exact fun _ => hliteral (by unfold stringLiteral; dsimp only; split <;> rfl)
  case quoted => exact fun _ => hliteral (by unfold quotedName; dsimp only; split <;> rfl)
  case bracket => exact fun _ => hliteral (by unfold bracketName; dsimp only; split <;> rfl)
  case blob => exact fun _ _ => hliteral (by unfold blobLiteral; dsimp only; split <;> rfl)
  case number => exact hliteral rfl
  case word => exact hliteral (by unfold word; dsimp only; split <;> rfl)
  case operator => exact fun _ _ => rfl

theorem startsBlob_append_stop {c d : Char} (hd : d ≠ '\'') (cs ds : List Char) :
    (c = 'x' ∨ c = 'X') ∧ (cs ++ d :: ds).head? = some '\'' ↔ (c = 'x' ∨ c = 'X') ∧ cs.head? = some '\'' := by
  cases cs <;> simp [hd]

theorem startsNumber_append_stop {c d : Char} (hd : d.isDigit = false) (cs ds : List Char) :
    (c.isDigit = true ∨ c = '.' ∧ (cs ++ d :: ds).head?.any Char.isDigit = true) ↔
      (c.isDigit = true ∨ c = '.' ∧ cs.head?.any Char.isDigit = true) := by
  cases cs <;> simp [hd]

section
variable {d : Char} (hd : Stops d) (cs ds : List Char)
include hd

theorem splitFraction_append_stops :
    splitFraction (cs ++ d :: ds) = ((splitFraction cs).1, (splitFraction cs).2 ++ d :: ds) := by
  have hdot : d ≠ '.' := (hd.ne).2.2.2.2.2.1
  have hdigit := hd.digit
  cases cs with
  | nil => simp [splitFraction, hdot]
  | cons c cs =>
    by_cases hc : c = '.'
    · subst hc
      simp only [List.cons_append, splitFraction, takeWhile_append_stop _ hdigit, dropWhile_append_stop _ hdigit]
    · simp [splitFraction, hc]

theorem splitSign_append_stops :
    splitSign (cs ++ d :: ds) = ((splitSign cs).1, (splitSign cs).2 ++ d :: ds) := by
  obtain ⟨-, -, -, hminus, -, -, hplus, -⟩ := hd.ne
  cases cs with
  | nil => simp [splitSign, hminus, hplus]
  | cons c cs => by_cases hc : c = '+' ∨ c = '-' <;> simp [splitSign, hc]

theorem splitExponent_append_stops :
    splitExponent (cs ++ d :: ds) = ((splitExponent cs).1, (splitExponent cs).2 ++ d :: ds) := by
  obtain ⟨-, -, -, -, -, -, -, he, hE, -⟩ := hd.ne
  have hdigit := hd.digit
  cases cs with
  | nil => simp [splitExponent, he, hE]
  | cons c cs =>
    by_cases hc : c = 'e' ∨ c = 'E'
    · simp only [List.cons_append, splitExponent, if_pos hc, splitSign_append_stops hd cs ds,
        takeWhile_append_stop _ hdigit, dropWhile_append_stop _ hdigit]
    · simp [splitExponent, hc]

theorem splitDecimal_append_stops :
    splitDecimal (cs ++ d :: ds) = ((splitDecimal cs).1, (splitDecimal cs).2 ++ d :: ds) := by
  have hdigit := hd.digit
  simp only [splitDecimal, takeWhile_append_stop _ hdigit, dropWhile_append_stop _ hdigit,
    splitFraction_append_stops hd, splitExponent_append_stops hd]

theorem splitNumber_append_stops :
    splitNumber (cs ++ d :: ds) = ((splitNumber cs).1, (splitNumber cs).2 ++ d :: ds) := by
  obtain ⟨-, -, -, -, -, -, -, -, -, hx, hX⟩ := hd.ne
  have hzero : d ≠ '0' := by rintro rfl; exact absurd hd.digit (by decide)
  have hhex := hd.hex
  have hdecimal := splitDecimal_append_stops hd
  match cs with
  | [] => simpa [splitNumber, hzero] using hdecimal [] ds
  | [c] =>
    by_cases hc : c = '0'
    · subst hc; simpa [splitNumber, hx, hX] using hdecimal ['0'] ds
    · simpa [splitNumber, hc] using hdecimal [c] ds
  | c :: x :: cs =>
    by_cases hc : c = '0'
    · subst hc
      by_cases hxx : x = 'x' ∨ x = 'X'
      · simp only [List.cons_append, splitNumber, if_pos hxx, takeWhile_append_stop _ hhex,
          dropWhile_append_stop _ hhex]
      · simpa only [List.cons_append, splitNumber, if_neg hxx] using hdecimal ('0' :: x :: cs) ds
    · simpa [splitNumber, hc] using hdecimal (c :: x :: cs) ds

theorem operator_append_stops (c : Char) :
    operator c (cs ++ d :: ds) = ⟨(operator c cs).kind, (operator c cs).text, (operator c cs).rest ++ d :: ds⟩ := by
  cases cs with
  | nil => simp [operator, hd.pairKind?]
  | cons e cs => cases he : pairKind? c e <;> simp [operator, he]

/-- A token that ends properly is the same in front of a character that ends it. -/
theorem lexeme_append_stops (c : Char) (hk : (lexeme c cs).kind.isEnd = false) :
    lexeme c (cs ++ d :: ds) = ⟨(lexeme c cs).kind, (lexeme c cs).text, (lexeme c cs).rest ++ d :: ds⟩ := by
  obtain ⟨hapo, hquote, htick, -⟩ := hd.ne
  revert hk
  refine lexeme_alike (P := fun l l' => l.kind.isEnd = false → l' = ⟨l.kind, l.text, l.rest ++ d :: ds⟩)
    (startsBlob_append_stop hapo cs ds) (startsNumber_append_stop hd.digit cs ds)
    ?string ?quoted ?bracket ?blob ?number ?word ?operator
  case string => exact fun _ => stringLiteral_append_stop cs ds hapo
  case quoted =>
    intro hc
    refine quotedName_append_stop cs ds ?_
    rcases hc with rfl | rfl <;> assumption
  case bracket => exact fun _ => bracketName_append cs (d :: ds)
  case blob =>
    intro _ hcs
    rw [List.tail_append_of_ne_nil (by rintro rfl; cases hcs)]
    exact blobLiteral_append cs.tail (d :: ds) c
  case number =>
    intro _
    simpa [numberLiteral] using congrArg (fun p : List Char × List Char => Lexeme.mk .number p.1 p.2)
      (splitNumber_append_stops hd (c :: cs) ds)
  case word => exact fun _ => word_append_stop (c :: cs) ds hd.word
  case operator => exact fun _ => operator_append_stops hd cs ds c

end

/-! ## Gaps -/

/-- A delimiter makes no comment mark of the character before it. -/
theorem noMark_append {d : Char} {cs ds : List Char} {P : Prop} {b : Char} (hdb : d ≠ b)
    (h : ∀ cs', P → cs = b :: cs' → False) (cs' : List Char) (hp : P) : cs ++ d :: ds = b :: cs' → False := by
  cases cs with
  | nil => intro e; exact hdb (List.cons.inj e).1
  | cons a as => intro e; exact h as hp (by rw [(List.cons.inj e).1])

theorem splitGap_append_stops {d : Char} (hd : Stops d) (s : GapState) (cs ds : List Char)
    (h : (splitGap s cs).2 ≠ []) :
    splitGap s (cs ++ d :: ds) = ((splitGap s cs).1, (splitGap s cs).2 ++ d :: ds) := by
  obtain ⟨-, -, -, hminus, hstar, -⟩ := hd.ne
  have hslash : d ≠ '/' := by rintro rfl; exact absurd hd.mark (by decide)
  fun_induction splitGap s cs with
  | case3 c cs hline hblock hc gap rest _ ih =>
    rw [List.cons_append, splitGap.eq_3 _ _ (noMark_append hminus hline) (noMark_append hstar hblock), if_pos hc]
    simp_all
  | case4 c cs hline hblock hc =>
    rw [List.cons_append, splitGap.eq_3 _ _ (noMark_append hminus hline) (noMark_append hstar hblock), if_neg hc]
  | case7 c cs hclose gap rest _ ih =>
    rw [List.cons_append, splitGap.eq_6 _ _ (noMark_append hslash hclose)]
    simp_all
  | _ => simp_all +zetaDelta [splitGap]

theorem splitGap_blank_append {g : List Char} (hg : ∀ c ∈ g, Text.isBlank c = true) (cs : List Char) :
    splitGap .blank (g ++ cs) = (g ++ (splitGap .blank cs).1, (splitGap .blank cs).2) := by
  induction g with
  | nil => rfl
  | cons c g ih =>
    have hc := hg c List.mem_cons_self
    have hline : ∀ cs', c = '-' → g ++ cs = '-' :: cs' → False := by rintro cs' rfl; exact absurd hc (by decide)
    have hblock : ∀ cs', c = '/' → g ++ cs = '*' :: cs' → False := by rintro cs' rfl; exact absurd hc (by decide)
    rw [List.cons_append, splitGap.eq_3 _ _ hline hblock, if_pos hc, ih fun x hx => hg x (List.mem_cons_of_mem _ hx)]
    rfl

/-! ## Tokens -/

theorem Token.kind_of_keyword? {t : Token} {k : Keyword} (h : t.keyword? = some k) : t.kind = .keyword k := by
  unfold Token.keyword? TokenKind.keyword? at h
  split at h
  · next hk => rw [hk, Option.some.inj h]
  · cases h

theorem TokenKind.exists_of_isWord {k : TokenKind} {w : String} (h : k.isWord w = true) : ∃ name, k = .identifier name := by
  unfold TokenKind.isWord at h
  split at h
  · exact ⟨_, rfl⟩
  · cases h

theorem tokensFrom_end {cs gap : List Char} (h : splitGap .blank cs = (gap, [])) (pos : Nat) :
    tokensFrom pos cs = [⟨.eof, ⟨pos + byteLength gap, pos + byteLength gap⟩, gap, []⟩] := by
  rw [tokensFrom]
  simp only [h]
  split
  · rfl
  · next heq => simp [h] at heq

theorem tokensFrom_cons {cs gap rest : List Char} {c : Char} (h : splitGap .blank cs = (gap, c :: rest)) (pos : Nat) :
    tokensFrom pos cs =
      ⟨(lexeme c rest).kind, ⟨pos + byteLength gap, pos + byteLength gap + byteLength (lexeme c rest).text⟩, gap,
        (lexeme c rest).text⟩ ::
        tokensFrom (pos + byteLength gap + byteLength (lexeme c rest).text) (lexeme c rest).rest := by
  rw [tokensFrom]
  simp only [h]
  split
  · next heq => simp [h] at heq
  · next c' rest' heq =>
    rw [h] at heq
    cases heq
    rfl

/-- The first token is the lexeme behind the first gap, and the others are those of what it leaves. -/
theorem tokensFrom_eq_cons {cs : List Char} {pos : Nat} {t : Token} {post : List Token} (h : tokensFrom pos cs = t :: post)
    (hk : t.kind.isEnd = false) : ∃ gap c rest, splitGap .blank cs = (gap, c :: rest) ∧
      t = ⟨(lexeme c rest).kind, ⟨pos + byteLength gap, pos + byteLength gap + byteLength (lexeme c rest).text⟩, gap,
        (lexeme c rest).text⟩ ∧
      tokensFrom (pos + byteLength gap + byteLength (lexeme c rest).text) (lexeme c rest).rest = post := by
  cases hgap : splitGap .blank cs with
  | mk gap rest =>
    cases rest with
    | nil =>
      rw [tokensFrom_end hgap] at h
      obtain ⟨rfl, -⟩ := List.cons.inj h
      cases hk
    | cons c rest =>
      rw [tokensFrom_cons hgap] at h
      obtain ⟨rfl, hpost⟩ := List.cons.inj h
      exact ⟨gap, c, rest, rfl, rfl, hpost⟩

theorem length_lexeme_rest_lt {cs gap rest : List Char} {c : Char} (h : splitGap .blank cs = (gap, c :: rest)) :
    (lexeme c rest).rest.length < cs.length := by
  have h₁ := length_splitGap .blank cs
  have h₂ := length_lexeme c rest
  rw [h] at h₁
  simp only [List.length_cons] at h₁
  omega

/-- Induction along the tokens of a text: it is only a gap, or a gap, a lexeme and a shorter text. -/
theorem token_induction {P : List Char → Prop} (atEnd : ∀ cs gap, splitGap .blank cs = (gap, []) → P cs)
    (cons : ∀ cs gap c rest, splitGap .blank cs = (gap, c :: rest) → P (lexeme c rest).rest → P cs)
    (cs : List Char) : P cs := by
  induction hn : cs.length using Nat.strongRecOn generalizing cs with
  | ind n ih =>
    cases h : splitGap .blank cs with
    | mk gap rest =>
      cases rest with
      | nil => exact atEnd cs gap h
      | cons c rest => exact cons cs gap c rest h (ih _ (hn ▸ length_lexeme_rest_lt h) _ rfl)

theorem gap_lexeme_append {cs gap rest : List Char} {c : Char} (h : splitGap .blank cs = (gap, c :: rest)) :
    gap ++ ((lexeme c rest).text ++ (lexeme c rest).rest) = cs := by
  rw [lexeme_append]
  simpa [h] using splitGap_append .blank cs

theorem lexeme_kind_ne_eof (c : Char) (cs : List Char) : (lexeme c cs).kind ≠ .eof := by
  refine lexeme_alike (P := fun l _ => l.kind ≠ .eof) Iff.rfl Iff.rfl ?string ?quoted ?bracket ?blob ?number ?word ?operator
  case string => intro _; unfold stringLiteral; dsimp only; split <;> simp
  case quoted => intro _; unfold quotedName; dsimp only; split <;> simp
  case bracket => intro _; unfold bracketName; dsimp only; split <;> simp
  case blob => intro _ _; unfold blobLiteral; dsimp only; split <;> simp
  case number => simp [numberLiteral]
  case word => unfold word; dsimp only; split <;> simp
  case operator =>
    unfold operator
    split
    · next h =>
      obtain ⟨e, -, he⟩ := Option.bind_eq_some_iff.mp h
      unfold pairKind? at he
      split at he <;> cases he <;> simp
    · unfold singleKind?
      split <;> simp

/-- The end comes last, and only there. -/
theorem tokensFrom_eq_append_end (cs : List Char) : ∀ pos, ∃ ts e, tokensFrom pos cs = ts ++ [e] ∧ e.kind = .eof ∧
    e.text = [] ∧ ∀ t ∈ ts, t.kind ≠ .eof ∧ t.text ≠ [] := by
  induction cs using token_induction with
  | atEnd cs gap h => exact fun pos => ⟨[], _, tokensFrom_end h pos, rfl, rfl, by simp⟩
  | cons cs gap c rest h ih =>
    intro pos
    obtain ⟨ts, e, hts, he, het, hne⟩ := ih (pos + byteLength gap + byteLength (lexeme c rest).text)
    refine ⟨_ :: ts, e, by rw [tokensFrom_cons h, hts]; rfl, he, het, ?_⟩
    intro t ht
    rcases List.mem_cons.mp ht with rfl | ht
    · exact ⟨lexeme_kind_ne_eof c rest, lexeme_text_ne_nil c rest⟩
    · exact hne t ht

/-- Gaps and texts of the tokens make up the text. -/
theorem flatMap_tokensFrom (cs : List Char) (pos : Nat) : (tokensFrom pos cs).flatMap (fun t => t.gap ++ t.text) = cs := by
  induction cs using token_induction generalizing pos with
  | atEnd cs gap h =>
    rw [tokensFrom_end h]
    simpa [h] using splitGap_append .blank cs
  | cons cs gap c rest h ih =>
    rw [tokensFrom_cons h, List.flatMap_cons, ih, List.append_assoc]
    exact gap_lexeme_append h

/-- A token without its place. -/
def Token.form (t : Token) : TokenKind × List Char × List Char := (t.kind, t.gap, t.text)

/-- Where a text stands has no bearing on its tokens but their places. -/
theorem map_form_tokensFrom (cs : List Char) (pos pos' : Nat) :
    (tokensFrom pos cs).map Token.form = (tokensFrom pos' cs).map Token.form := by
  induction cs using token_induction generalizing pos pos' with
  | atEnd cs gap h => rw [tokensFrom_end h, tokensFrom_end h]; rfl
  | cons cs gap c rest h ih =>
    rw [tokensFrom_cons h, tokensFrom_cons h, List.map_cons, List.map_cons, ih]
    rfl

/-- Puts blanks in front of the first token. -/
def indent (g : List Char) : List Token → List Token
  | [] => []
  | t :: ts => { t with gap := g ++ t.gap } :: ts

theorem tokensFrom_blank_append {g : List Char} (hg : ∀ c ∈ g, Text.isBlank c = true) (cs : List Char) (pos : Nat) :
    tokensFrom pos (g ++ cs) = indent g (tokensFrom (pos + byteLength g) cs) := by
  have happ := splitGap_blank_append hg cs
  cases h : splitGap .blank cs with
  | mk gap rest =>
    rw [h] at happ
    cases rest with
    | nil => rw [tokensFrom_end happ, tokensFrom_end h, byteLength_append, ← Nat.add_assoc]; rfl
    | cons c rest =>
      rw [tokensFrom_cons happ, tokensFrom_cons h, byteLength_append, ← Nat.add_assoc]; rfl

/-- A text that ends with a proper token has the same tokens in front of a delimiter. -/
theorem tokensFrom_append_delimiter {d : Char} (hd : isDelimiter d = true) (ds cs : List Char) (pos : Nat)
    {ts : List Token} {e : Token} (hts : tokensFrom pos cs = ts ++ [e]) (hgap : e.gap = [])
    (hend : ∀ t ∈ ts, t.kind.isEnd = false) :
    tokensFrom pos (cs ++ d :: ds) = ts ++ tokensFrom (pos + byteLength cs) (d :: ds) := by
  induction cs using token_induction generalizing pos ts with
  | atEnd cs gap h =>
    rw [tokensFrom_end h] at hts
    obtain ⟨rfl, rfl⟩ : ts = [] ∧ e = _ := by simpa [eq_comm] using List.append_eq_singleton_iff.mp hts.symm
    have hcs := splitGap_append .blank cs
    simp only at hgap
    subst hgap
    rw [h] at hcs
    simp [← hcs]
  | cons cs gap c rest h ih =>
    rw [tokensFrom_cons h] at hts
    cases ts with
    | nil => 
      obtain ⟨ts', e', hlast, -⟩ := tokensFrom_eq_append_end (lexeme c rest).rest (pos + byteLength gap + byteLength (lexeme c rest).text)
      rw [hlast] at hts
      simp at hts
    | cons t ts =>
      obtain ⟨rfl, hrest⟩ := List.cons.inj hts
      have hlex := lexeme_append_stops (stops_of_isDelimiter hd) rest ds c (hend _ List.mem_cons_self)
      have hsplit : splitGap .blank (cs ++ d :: ds) = (gap, c :: (rest ++ d :: ds)) := by
        simpa [h] using splitGap_append_stops (stops_of_isDelimiter hd) .blank cs ds (by simp [h])
      rw [tokensFrom_cons hsplit, hlex, ih _ hrest fun t ht => hend t (List.mem_cons_of_mem _ ht)]
      have hlen : byteLength cs = byteLength gap + byteLength (lexeme c rest).text + byteLength (lexeme c rest).rest := by
        rw [← gap_lexeme_append h]; simp [Nat.add_assoc]
      rw [hlen]
      simp [Nat.add_assoc]

end SchemaEditor
