import Mathlib.Data.List.TakeWhile
import SchemaEditor.Proofs.Sql.Lexing
import SchemaEditor.Sql.Identifier

/-!
# The tokens of printed text

A definition is printed from keywords, quoted names and delimiters. Each of them is one token of its kind
in front of what follows it in print.
-/

namespace SchemaEditor

/-- `w` is one token of kind `k` in front of `rest`. -/
structure IsToken (w : List Char) (k : TokenKind) (rest : List Char) : Prop where
  noGap : splitGap .blank (w ++ rest) = ([], w ++ rest)
  lexeme : ∃ c cs, w = c :: cs ∧ SchemaEditor.lexeme c (cs ++ rest) = ⟨k, w, rest⟩

theorem IsToken.tokensFrom {w rest : List Char} {k : TokenKind} (h : IsToken w k rest) (pos : Nat) :
    tokensFrom pos (w ++ rest) =
      ⟨k, ⟨pos, pos + byteLength w⟩, [], w⟩ :: SchemaEditor.tokensFrom (pos + byteLength w) rest := by
  obtain ⟨c, cs, rfl, hlex⟩ := h.lexeme
  have hgap := h.noGap
  rw [List.cons_append] at hgap ⊢
  rw [tokensFrom_cons hgap, hlex]
  simp

/-- The text starts with a delimiter. -/
def Delimited (cs : List Char) : Prop := ∃ d ds, cs = d :: ds ∧ isDelimiter d = true

/-- No word goes on into the text: it is empty, or starts with a delimiter. -/
def EndsWord (cs : List Char) : Prop := cs = [] ∨ Delimited cs

theorem Delimited.endsWord {cs : List Char} (h : Delimited cs) : EndsWord cs := .inr h

/-- A character that is no blank and no comment mark ends a gap. -/
theorem splitGap_of_not_blank {c : Char} (hb : Text.isBlank c = false) (hm : c ≠ '-') (hs : c ≠ '/') (cs : List Char) :
    splitGap .blank (c :: cs) = ([], c :: cs) := by
  rw [splitGap.eq_3 _ _ (fun _ h _ => hm h) (fun _ h _ => hs h), if_neg (by simp [hb])]

/-! ## Delimiters -/

theorem isToken_operator {c : Char} {k : TokenKind} (hc : c = '(' ∨ c = ')' ∨ c = ',' ∨ c = ';')
    (hk : singleKind? c = some k) (rest : List Char) : IsToken [c] k rest := by
  have hpair : ∀ e, pairKind? c e = none := by
    intro e; unfold pairKind?
    rcases hc with rfl | rfl | rfl | rfl <;> split <;> simp_all
  have hop : operator c rest = ⟨k, [c], rest⟩ := by
    rw [operator_of_unpaired hpair, hk]
    rfl
  constructor
  · rcases hc with rfl | rfl | rfl | rfl <;> exact splitGap_of_not_blank (by decide) (by decide) (by decide) rest
  · refine ⟨c, [], rfl, ?_⟩
    have halpha : Text.isAlphabetic c = false := by rcases hc with rfl | rfl | rfl | rfl <;> decide
    unfold lexeme
    rcases hc with rfl | rfl | rfl | rfl <;> simpa [halpha] using hop

theorem isToken_leftParen (rest : List Char) : IsToken ['('] .leftParen rest := isToken_operator (by simp) rfl rest

theorem isToken_rightParen (rest : List Char) : IsToken [')'] .rightParen rest := isToken_operator (by simp) rfl rest

theorem isToken_comma (rest : List Char) : IsToken [','] .comma rest := isToken_operator (by simp) rfl rest

theorem isToken_semicolon (rest : List Char) : IsToken [';'] .semicolon rest := isToken_operator (by simp) rfl rest

/-! ## Words -/

/-- The characters that a printed word starts with. -/
def startsWord (c : Char) : Bool :=
  Text.isAlphabetic c && !Text.isBlank c && !c.isDigit
    && !(['\'', '"', '\x60', '[', '-', '/', '.', 'x', 'X'].contains c)

theorem isToken_word {c : Char} {cs rest : List Char} (hc : startsWord c = true)
    (hcs : (c :: cs).all isWordChar = true) (hrest : EndsWord rest) :
    IsToken (c :: cs) (word (c :: cs)).kind rest := by
  have hall : (c :: cs).takeWhile isWordChar = c :: cs := List.takeWhile_eq_self_iff.mpr (List.all_eq_true.mp hcs)
  have hnone : (c :: cs).dropWhile isWordChar = [] := List.dropWhile_eq_nil_iff.mpr (List.all_eq_true.mp hcs)
  have hword : (c :: cs ++ rest).takeWhile isWordChar = c :: cs ∧ (c :: cs ++ rest).dropWhile isWordChar = rest := by
    rcases hrest with rfl | ⟨d, ds, rfl, hd⟩
    · rw [List.append_nil]
      exact ⟨hall, hnone⟩
    · have hw := (stops_of_isDelimiter hd).word
      rw [takeWhile_append_stop _ hw, dropWhile_append_stop _ hw, hall, hnone]
      exact ⟨rfl, rfl⟩
  simp only [startsWord, Bool.and_eq_true, Bool.not_eq_true', List.contains_eq_mem, decide_eq_false_iff_not,
    List.mem_cons, List.not_mem_nil, or_false, not_or] at hc
  obtain ⟨⟨⟨halpha, hblank⟩, hdigit⟩, hapo, hquote, htick, hbracket, hminus, hslash, hdot, hx, hX⟩ := hc
  constructor
  · exact splitGap_of_not_blank hblank hminus hslash _
  · refine ⟨c, cs, rfl, ?_⟩
    unfold lexeme
    rw [if_neg hapo, if_neg (by simp [hquote, htick]), if_neg hbracket, if_neg (by simp [hx, hX]),
      if_neg (by simp [hdigit, hdot]), if_pos (.inl halpha)]
    simp only [word, ← List.cons_append, hword, hall]

theorem isToken_keyword (k : Keyword) {rest : List Char} (hrest : Delimited rest) :
    IsToken k.word.toList (.keyword k) rest := by
  cases k <;> exact isToken_word (by decide) (by decide) hrest.endsWord

theorem isToken_rowid {rest : List Char} (hrest : EndsWord rest) :
    IsToken "ROWID".toList (.identifier "ROWID") rest :=
  isToken_word (c := 'R') (by decide) (by decide) hrest

/-! ## Quoted names -/

theorem quotation_doubled (q : Char) (name rest : List Char) (hrest : rest.head? ≠ some q) :
    quotation q (doubled q name ++ q :: rest) = ⟨name, doubled q name ++ [q], rest, true⟩ := by
  induction name with
  | nil =>
    cases rest with
    | nil => simp [doubled, quotation]
    | cons d ds =>
      have hd : d ≠ q := by simpa using hrest
      simp [doubled, quotation, hd]
  | cons c name ih =>
    by_cases hc : c = q
    · subst hc
      simp [doubled, quotation, ih]
    · have hne : doubled q name ++ q :: rest ≠ [] := by simp
      obtain ⟨d, ds, hds⟩ := List.exists_cons_of_ne_nil hne
      rw [doubled, if_neg hc, List.cons_append, hds, quotation, if_neg hc, ← hds, ih]
      rfl

theorem isToken_quoteWith {q : Char} (hq : q = '"' ∨ q = '\x60') (name : String) {rest : List Char}
    (hrest : rest.head? ≠ some q) : IsToken (quoteWith q name).toList (.identifier name) rest := by
  have htext : (quoteWith q name).toList = q :: (doubled q name.toList ++ [q]) := by
    simp [quoteWith]
  have hne : q ≠ '\'' := by rcases hq with rfl | rfl <;> decide
  rw [htext]
  constructor
  · rcases hq with rfl | rfl <;> exact splitGap_of_not_blank (by decide) (by decide) (by decide) _
  · refine ⟨q, _, rfl, ?_⟩
    have hquotation := quotation_doubled q name.toList rest hrest
    unfold lexeme
    rw [if_neg hne, if_pos hq]
    simp [quotedName, hquotation]

theorem isToken_quoteIdentifier (name : String) {rest : List Char} (hrest : rest.head? ≠ some '\x60') :
    IsToken (quoteIdentifier name).toList (.identifier name) rest :=
  isToken_quoteWith (.inr rfl) name hrest

end SchemaEditor
