import SchemaEditor.Proofs.Sql.Remainders
import SchemaEditor.Proofs.Sql.Words

/-!
# Neighbouring tokens

Written one after the other, two tokens stay two tokens unless the first one runs on into the second. No scanner looks
further than one character behind its token, so it does so only if it takes the first character of the second one. That
makes a short list of pairs, besides words next to words and the marks of comments.
-/

namespace SchemaEditor

/-! ## Numbers -/

/-- A number in base sixteen. -/
def isHexText (w : List Char) : Bool := w.take 2 == ['0', 'x'] || w.take 2 == ['0', 'X']

/-- The last character is the mark of an exponent. -/
def endsInMark (w : List Char) : Bool := w.getLast? == some 'e' || w.getLast? == some 'E'

theorem endsInMark_append {w : List Char} (v : List Char) (h : endsInMark w = true) : endsInMark (v ++ w) = true := by
  obtain ⟨c, hc⟩ : ∃ c, w.getLast? = some c := by
    cases hlast : w.getLast? with
    | none => simp [endsInMark, hlast] at h
    | some c => exact ⟨c, rfl⟩
  rw [endsInMark, hc] at h
  rwa [endsInMark, List.getLast?_append, hc]

section
variable {d : Char} (hd : isHexDigit d = false)
include hd

theorem isDigit_eq_false_of_isHexDigit : d.isDigit = false := by
  rw [isHexDigit, Bool.or_eq_false_iff, Bool.or_eq_false_iff] at hd
  exact hd.1.1

theorem ne_exponent_of_isHexDigit : ¬(d = 'e' ∨ d = 'E') := by
  rintro (rfl | rfl) <;> exact absurd hd (by decide)

theorem splitExponent_ends {r : List Char} (h : (splitExponent (r ++ [d])).2 = []) :
    (d = '+' ∨ d = '-') ∧ endsInMark r = true := by
  have hdigit := isDigit_eq_false_of_isHexDigit hd
  have hmark := ne_exponent_of_isHexDigit hd
  cases r with
  | nil => simp [splitExponent, hmark] at h
  | cons c r =>
    by_cases hc : c = 'e' ∨ c = 'E'
    · rw [List.cons_append, splitExponent, if_pos hc] at h
      cases r with
      | nil =>
        by_cases hsign : d = '+' ∨ d = '-'
        · exact ⟨hsign, by rcases hc with rfl | rfl <;> rfl⟩
        · simp [splitSign, hsign, hdigit] at h
      | cons s r =>
        by_cases hs : s = '+' ∨ s = '-'
        · simp [splitSign, hs, dropWhile_append_stop _ hdigit] at h
        · simp only [List.cons_append, splitSign, hs, if_false] at h
          rw [← List.cons_append, dropWhile_append_stop _ hdigit] at h
          simp at h
    · simp [splitExponent, hc] at h

theorem splitFraction_append_singleton {r : List Char} (h : r = [] → d ≠ '.') :
    (splitFraction (r ++ [d])).2 = (splitFraction r).2 ++ [d] := by
  have hdigit := isDigit_eq_false_of_isHexDigit hd
  cases r with
  | nil => simp [splitFraction, h rfl]
  | cons c r =>
    by_cases hc : c = '.'
    · subst hc
      simp only [List.cons_append, splitFraction, dropWhile_append_stop _ hdigit]
    · simp [splitFraction, hc]

theorem splitDecimal_ends {w : List Char} (h : (splitDecimal (w ++ [d])).2 = []) :
    d = '.' ∧ w.all Char.isDigit = true ∨ (d = '+' ∨ d = '-') ∧ endsInMark w = true := by
  have hdigit := isDigit_eq_false_of_isHexDigit hd
  have hrest : (splitExponent (splitFraction (w.dropWhile Char.isDigit ++ [d])).2).2 = [] := by
    rw [← dropWhile_append_stop _ hdigit]
    exact h
  by_cases hpoint : w.dropWhile Char.isDigit = [] ∧ d = '.'
  · exact .inl ⟨hpoint.2, List.all_eq_true.mpr (List.dropWhile_eq_nil_iff.mp hpoint.1)⟩
  rw [splitFraction_append_singleton hd fun hnil hdot => hpoint ⟨hnil, hdot⟩] at hrest
  obtain ⟨hsign, hmark⟩ := splitExponent_ends hd hrest
  refine .inr ⟨hsign, ?_⟩
  -- what the fraction leaves is the end of the number
  have hend : w = (w.takeWhile Char.isDigit ++ (splitFraction (w.dropWhile Char.isDigit)).1) ++
      (splitFraction (w.dropWhile Char.isDigit)).2 := by
    rw [List.append_assoc, splitFraction_append, List.takeWhile_append_dropWhile]
  rw [hend]
  exact endsInMark_append _ hmark

/-- What a number takes of the next character: digits and the mark of base sixteen apart, a point behind digits alone, and a
sign behind the mark of an exponent. -/
theorem splitNumber_ends {w : List Char} (hx : d ≠ 'x' ∧ d ≠ 'X') (h : (splitNumber (w ++ [d])).2 = []) :
    d = '.' ∧ w.all Char.isDigit = true ∨ (d = '+' ∨ d = '-') ∧ endsInMark w = true ∧ isHexText w = false := by
  have hdecimal (hhex : isHexText w = false) (hsplit : splitNumber (w ++ [d]) = splitDecimal (w ++ [d])) :
      d = '.' ∧ w.all Char.isDigit = true ∨ (d = '+' ∨ d = '-') ∧ endsInMark w = true ∧ isHexText w = false := by
    rw [hsplit] at h
    exact (splitDecimal_ends hd h).imp_right fun hsign => ⟨hsign.1, hsign.2, hhex⟩
  match w, h, hdecimal with
  | [], _, hdecimal => exact hdecimal rfl (by rw [List.nil_append]; simp [splitNumber])
  | [c], _, hdecimal => exact hdecimal (by simp [isHexText]) (by by_cases hc : c = '0' <;> simp [splitNumber, hc, hx])
  | c :: x :: cs, h, hdecimal =>
    by_cases hhex : c = '0' ∧ (x = 'x' ∨ x = 'X')
    · obtain ⟨rfl, hx⟩ := hhex
      simp [splitNumber, hx, dropWhile_append_stop _ hd] at h
    · refine hdecimal ?_ ?_
      · rw [not_and_or, not_or] at hhex
        simp only [isHexText, List.take_succ_cons, List.take_zero, Bool.or_eq_false_iff, beq_eq_false_iff_ne, ne_eq,
          List.cons.injEq, and_true]
        tauto
      · by_cases hc : c = '0'
        · subst hc
          simp_all [splitNumber]
        · simp [splitNumber, hc]

end

/-! ## Marks -/

/-- The first characters of operators and delimiters. -/
def marks : List Char :=
  ['(', ')', ',', ';', '+', '-', '*', '/', '%', '~', '?', '@', '$', ':', '&', '.', '=', '<', '>', '|', '!']

/-- No mark goes on with a literal or a name, but for a point, a sign or a dollar. -/
structure Plain (d : Char) : Prop where
  hex : isHexDigit d = false
  quote : d ≠ '\'' ∧ d ≠ '"' ∧ d ≠ '\x60'
  x : d ≠ 'x' ∧ d ≠ 'X'
  word : d ≠ '$' → isWordChar d = false

instance (d : Char) : Decidable (Plain d) :=
  decidable_of_iff
    (isHexDigit d = false ∧ (d ≠ '\'' ∧ d ≠ '"' ∧ d ≠ '\x60') ∧ (d ≠ 'x' ∧ d ≠ 'X') ∧ (d ≠ '$' → isWordChar d = false))
    ⟨fun h => ⟨h.1, h.2.1, h.2.2.1, h.2.2.2⟩, fun h => ⟨h.hex, h.quote, h.x, h.word⟩⟩

theorem plain_of_mem_marks {d : Char} (h : d ∈ marks) : Plain d := by
  -- a test of the list: for a statement about its members `decide` may go through all characters
  have hall : marks.all (fun d => decide (Plain d)) = true := by decide
  exact of_decide_eq_true (List.all_eq_true.mp hall d h)

theorem mem_marks_of_pairKind? {c d : Char} {k : TokenKind} (h : pairKind? c d = some k) : c ∈ marks := by
  unfold pairKind? at h
  split at h <;> first | decide | cases h

theorem mem_marks_of_singleKind? {c : Char} {k : TokenKind} (h : singleKind? c = some k) : c ∈ marks := by
  unfold singleKind? at h
  split at h <;> first | decide | cases h

theorem mem_marks_of_operator {c : Char} {cs : List Char} (hk : (operator c cs).kind.isEnd = false) : c ∈ marks := by
  unfold operator at hk
  split at hk
  · next hpair =>
    obtain ⟨d, -, hd⟩ := Option.bind_eq_some_iff.mp hpair
    exact mem_marks_of_pairKind? hd
  · cases hsingle : singleKind? c with
    | some k => exact mem_marks_of_singleKind? hsingle
    | none =>
      rw [hsingle] at hk
      cases hk

/-! ## Running on -/

namespace Token

/-- Without a blank between them the first token would run on into the second. -/
def fuses (a b : Token) : Bool :=
  match a.kind with
  | .eq => a.text == ['='] && b.text.head? == some '='
  | .lt => b.text.head?.any ['<', '=', '>'].contains
  | .gt => b.text.head?.any ['=', '>'].contains
  | .bitOr => b.text.head? == some '|'
  | .dot => b.kind == .number && b.text.head?.any Char.isDigit
  | .number => a.text.all Char.isDigit && b.kind == .dot
      || endsInMark a.text && !isHexText a.text && (b.kind == .plus || b.kind == .minus)
  | .identifier _ | .keyword _ => a.text.all isWordChar && b.kind == .dollar
  | _ => false

end Token

/-- A scanner that leaves the next character takes its token from in front of any text that begins with that character. -/
theorem lexeme_before {c d : Char} {cs w : List Char} {k : TokenKind} (h : lexeme c cs = ⟨k, w, []⟩) (hk : k.isEnd = false)
    (hleaves : (lexeme c (cs ++ [d])).rest ≠ []) (ds : List Char) : lexeme c (cs ++ d :: ds) = ⟨k, w, d :: ds⟩ := by
  obtain hnil | ⟨r, e, hr⟩ := List.eq_nil_or_concat (lexeme c (cs ++ [d])).rest
  · exact absurd hnil hleaves
  rw [List.concat_eq_append] at hr
  have happ := lexeme_append c (cs ++ [d])
  rw [hr, ← List.append_assoc, ← List.cons_append] at happ
  obtain ⟨-, rfl⟩ := List.append_singleton_inj.mp happ
  have hwhole : lexeme c (cs ++ [e]) = ⟨(lexeme c (cs ++ [e])).kind, (lexeme c (cs ++ [e])).text, r ++ [e]⟩ := by rw [← hr]
  obtain ⟨k', hcut, hrole⟩ := lexeme_cut_role hwhole
  obtain ⟨rfl, hw, rfl⟩ := Lexeme.mk.inj (h.symm.trans hcut)
  have hkind : k = (lexeme c (cs ++ [e])).kind := by
    rcases hrole with hsame | ⟨error, _, rfl, -⟩
    · exact hsame
    · cases hk
  have hextend := lexeme_extend ds hleaves
  rw [hr, ← hw, ← hkind] at hextend
  simpa using hextend

theorem text_of_lexeme_all {c : Char} {cs w : List Char} {k : TokenKind} (h : lexeme c cs = ⟨k, w, []⟩) : w = c :: cs := by
  have happ := lexeme_append c cs
  rwa [h, List.append_nil] at happ

theorem kind_word (cs : List Char) : (∃ k, (word cs).kind = .keyword k) ∨ ∃ name, (word cs).kind = .identifier name := by
  unfold word
  simp only
  split
  · exact .inl ⟨_, rfl⟩
  · exact .inr ⟨_, rfl⟩

theorem lexeme_of_mem_marks {c : Char} {cs : List Char} (hc : c ∈ marks) (hpoint : c = '.' → cs.head?.any Char.isDigit = false) :
    lexeme c cs = operator c cs := by
  have hall : marks.all (fun c => decide (c ≠ '\'' ∧ ¬(c = '"' ∨ c = '\x60') ∧ c ≠ '[' ∧ ¬(c = 'x' ∨ c = 'X') ∧
      c.isDigit = false ∧ ¬(Text.isAlphabetic c = true ∨ c = '_'))) = true := by decide
  obtain ⟨h₁, h₂, h₃, h₄, h₅, h₆⟩ := of_decide_eq_true (List.all_eq_true.mp hall c hc)
  have hnumber : ¬(c.isDigit = true ∨ c = '.' ∧ cs.head?.any Char.isDigit = true) := by
    rintro (hdigit | ⟨hdot, hdigit⟩)
    · rw [h₅] at hdigit
      cases hdigit
    · rw [hpoint hdot] at hdigit
      cases hdigit
  unfold lexeme
  rw [if_neg h₁, if_neg h₂, if_neg h₃, if_neg fun h => h₄ h.1, if_neg hnumber, if_neg h₆]

theorem lexeme_of_isDigit {c : Char} (hc : c.isDigit = true) (cs : List Char) : (lexeme c cs).kind = .number := by
  have hne {e : Char} (he : e.isDigit = false) : c ≠ e := by
    rintro rfl
    rw [hc] at he
    cases he
  unfold lexeme
  rw [if_neg (hne rfl), if_neg fun h => h.elim (hne rfl) (hne rfl), if_neg (hne rfl),
    if_neg fun h => h.1.elim (hne rfl) (hne rfl), if_pos (.inl hc)]
  rfl

section
variable {a b : Token} {d : Char} {cs bs : List Char} (hplain : Plain d) (hb : operator d bs = ⟨b.kind, b.text, []⟩)
  (hfuse : a.fuses b = false)
include hb

theorem kind_of_unpaired (hpair : ∀ e, pairKind? d e = none) {k : TokenKind} (hk : singleKind? d = some k) : b.kind = k := by
  rw [operator_of_unpaired hpair, hk] at hb
  exact (Lexeme.mk.inj hb).1.symm

include hplain hfuse

theorem numberLiteral_leaves (ha : numberLiteral cs = ⟨a.kind, a.text, []⟩) (htext : a.text = cs) :
    (numberLiteral (cs ++ [d])).rest ≠ [] := by
  intro hall
  have hnumber : a.kind = .number := (Lexeme.mk.inj ha).1.symm
  rw [Token.fuses, hnumber, htext, Bool.or_eq_false_iff] at hfuse
  obtain ⟨hpoint, hsign⟩ := hfuse
  rcases splitNumber_ends hplain.hex hplain.x hall with ⟨rfl, hdigits⟩ | ⟨rfl | rfl, hmark, hhex⟩
  · rw [kind_of_unpaired hb (by simp [pairKind?]) rfl, hdigits] at hpoint
    cases hpoint
  · rw [kind_of_unpaired hb (by simp [pairKind?]) rfl, hmark, hhex] at hsign
    cases hsign
  · rw [kind_of_unpaired hb (by simp [pairKind?]) rfl, hmark, hhex] at hsign
    cases hsign

theorem word_leaves (ha : word cs = ⟨a.kind, a.text, []⟩) : (word (cs ++ [d])).rest ≠ [] := by
  have hd : isWordChar d = false := by
    refine hplain.word ?_
    rintro rfl
    have hall : a.text.all isWordChar = true := by
      rw [← (Lexeme.mk.inj ha).2.1]
      exact List.all_takeWhile
    have hword : (∃ k, a.kind = .keyword k) ∨ ∃ name, a.kind = .identifier name := by simpa only [ha] using kind_word cs
    rcases hword with ⟨k, hk⟩ | ⟨name, hk⟩
    all_goals
      rw [Token.fuses, hk, hall, kind_of_unpaired hb (by simp [pairKind?]) rfl] at hfuse
      cases hfuse
  rw [word_append_stop cs [] hd]
  simp

end

section
variable {a b : Token} {c d : Char} {cs bs : List Char} (ha : lexeme c cs = ⟨a.kind, a.text, []⟩) (hka : a.kind.isEnd = false)
  (hb : lexeme d bs = ⟨b.kind, b.text, []⟩) (hfuse : a.fuses b = false)
include ha hka hb hfuse

/-- Literals, names and keywords leave the operator that follows them. -/
theorem lexeme_leaves_operator (hwa : a.kind.isWordLike = true) (hkb : b.kind.isEnd = false) (hwb : b.kind.isWordLike = false) :
    (lexeme c (cs ++ [d])).rest ≠ [] := by
  have hoperator : lexeme d bs = operator d bs := lexeme_eq_operator (by rw [hb]; exact hkb) (by rw [hb]; exact hwb)
  rw [hoperator] at hb
  have hplain := plain_of_mem_marks (mem_marks_of_operator (show (operator d bs).kind.isEnd = false by rw [hb]; exact hkb))
  have htext := text_of_lexeme_all ha
  revert ha
  refine lexeme_alike (P := fun l l' => l = ⟨a.kind, a.text, []⟩ → l'.rest ≠ [])
    (startsBlob_append_stop hplain.quote.1 cs []) (startsNumber_append_stop (isDigit_eq_false_of_isHexDigit hplain.hex) cs [])
    ?string ?quoted ?bracket ?blob ?number ?word ?operator
  case string =>
    intro _ ha
    rw [stringLiteral_append_stop cs [] hplain.quote.1 (by rw [ha]; exact hka)]
    simp
  case quoted =>
    intro hc ha
    have hd : d ≠ c := by
      rcases hc with rfl | rfl
      exacts [hplain.quote.2.1, hplain.quote.2.2]
    rw [quotedName_append_stop cs [] hd (by rw [ha]; exact hka)]
    simp
  case bracket =>
    intro _ ha
    rw [bracketName_append cs [d] (by rw [ha]; exact hka)]
    simp
  case blob =>
    intro _ hcs ha
    rw [List.tail_append_of_ne_nil (by rintro rfl; cases hcs), blobLiteral_append cs.tail [d] c (by rw [ha]; exact hka)]
    simp
  case number => exact fun ha => numberLiteral_leaves hplain hb hfuse ha htext
  case word => exact fun ha => word_leaves hplain hb hfuse ha
  case operator =>
    intro ha
    have hword := isWordLike_operator c cs
    rw [ha, hwa] at hword
    cases hword

/-- An operator leaves the token that follows it. -/
theorem lexeme_leaves_of_operator (hwa : a.kind.isWordLike = false) : (lexeme c (cs ++ [d])).rest ≠ [] := by
  have hoperator : lexeme c cs = operator c cs := lexeme_eq_operator (by rw [ha]; exact hka) (by rw [ha]; exact hwa)
  have hproper : (operator c cs).kind.isEnd = false := by rw [← hoperator, ha]; exact hka
  have hmark : c ∈ marks := mem_marks_of_operator hproper
  rw [ha] at hoperator
  by_cases hcs : cs = []
  · subst hcs
    have hsingle : a.kind = (singleKind? c).getD (.error (.unexpected c)) := (Lexeme.mk.inj hoperator).1
    have hatext : a.text = [c] := text_of_lexeme_all ha
    have hbtext : b.text = d :: bs := text_of_lexeme_all hb
    have hpoint : c = '.' → ([] ++ [d]).head?.any Char.isDigit = false := by
      rintro rfl
      by_contra hdigit
      have hdigit : d.isDigit = true := by simpa using hdigit
      have hnumber : b.kind = .number := by simpa only [hb] using lexeme_of_isDigit hdigit bs
      rw [Token.fuses, hsingle, hbtext] at hfuse
      simp [singleKind?, hnumber, hdigit] at hfuse
    rw [lexeme_of_mem_marks hmark hpoint]
    cases hpair : pairKind? c d with
    | none => simp [operator, hpair]
    | some k =>
      rw [Token.fuses, hsingle, hatext, hbtext] at hfuse
      rw [hsingle] at hka
      unfold pairKind? at hpair
      split at hpair <;> first | (cases hfuse; done) | cases hka | cases hpair
  · have hpoint : c ≠ '.' := by
      rintro rfl
      rw [operator_of_unpaired (by simp [pairKind?])] at hoperator
      exact hcs (Lexeme.mk.inj hoperator).2.2.symm
    rw [lexeme_of_mem_marks hmark fun h => absurd h hpoint, operator_extend [d] hcs]
    simp

end

/-! ## Tokens in front of tokens -/

theorem splitGap_eq_nil_iff {c : Char} {cs : List Char} : splitGap .blank (c :: cs) = ([], c :: cs) ↔
    Text.isBlank c = false ∧ ¬(c = '-' ∧ cs.head? = some '-') ∧ ¬(c = '/' ∧ cs.head? = some '*') := by
  by_cases hline : c = '-' ∧ cs.head? = some '-'
  · obtain ⟨rfl, hhead⟩ := hline
    obtain ⟨cs, rfl⟩ := List.head?_eq_some_iff.mp hhead
    simp [splitGap]
  by_cases hblock : c = '/' ∧ cs.head? = some '*'
  · obtain ⟨rfl, hhead⟩ := hblock
    obtain ⟨cs, rfl⟩ := List.head?_eq_some_iff.mp hhead
    simp [splitGap]
  have hnoLine : ∀ ds, c = '-' → cs = '-' :: ds → False := fun ds hc hcs => hline ⟨hc, by rw [hcs, List.head?_cons]⟩
  have hnoBlock : ∀ ds, c = '/' → cs = '*' :: ds → False := fun ds hc hcs => hblock ⟨hc, by rw [hcs, List.head?_cons]⟩
  rw [splitGap.eq_3 _ _ hnoLine hnoBlock]
  cases Text.isBlank c <;> simp [hline, hblock]

/-- A token stands before the next one without a blank, if both are not words, no comment begins between them and the first one
does not run on. -/
theorem IsToken.before {a b : Token} (ha : IsToken a.text a.kind []) (hka : a.kind.isEnd = false) (hb : IsToken b.text b.kind [])
    (hkb : b.kind.isEnd = false) (hwords : (a.isWordLike && b.isWordLike) = false)
    (hline : (a.text.getLast? == some '-' && b.text.head? == some '-') = false)
    (hblock : (a.text.getLast? == some '/' && b.text.head? == some '*') = false) (hfuse : a.fuses b = false)
    {next : List Char} (hnext : next.head? = b.text.head?) : IsToken a.text a.kind next := by
  obtain ⟨c, cs, htext, hlexeme⟩ := ha.lexeme
  obtain ⟨d, bs, hbtext, hblexeme⟩ := hb.lexeme
  rw [List.append_nil] at hlexeme hblexeme
  rw [hbtext, List.head?_cons] at hnext
  obtain ⟨ds, rfl⟩ := List.head?_eq_some_iff.mp hnext
  have hgap := ha.noGap
  rw [List.append_nil, htext] at hgap
  constructor
  · rw [htext, List.cons_append, splitGap_eq_nil_iff]
    obtain ⟨hblank, hnoLine, hnoBlock⟩ := splitGap_eq_nil_iff.mp hgap
    cases cs with
    | cons e es => exact ⟨hblank, hnoLine, hnoBlock⟩
    | nil =>
      rw [htext, hbtext] at hline hblock
      refine ⟨hblank, ?_, ?_⟩
      · rintro ⟨rfl, hd⟩
        simp_all
      · rintro ⟨rfl, hd⟩
        simp_all
  · refine ⟨c, cs, htext, lexeme_before hlexeme hka ?_ ds⟩
    cases hwa : a.kind.isWordLike with
    | true =>
      have hwb : b.kind.isWordLike = false := by simpa [Token.isWordLike, hwa] using hwords
      exact lexeme_leaves_operator hlexeme hka hblexeme hfuse hwa hkb hwb
    | false => exact lexeme_leaves_of_operator hlexeme hka hblexeme hfuse hwa

/-- A blank ends every token. -/
theorem IsToken.before_blank {w : List Char} {k : TokenKind} (h : IsToken w k []) (hk : k.isEnd = false) {d : Char}
    (hd : Text.isBlank d = true) (ds : List Char) : IsToken w k (d :: ds) := by
  obtain ⟨c, cs, hw, hlexeme⟩ := h.lexeme
  have hgap := h.noGap
  rw [List.append_nil] at hlexeme hgap
  have hstops := stops_of_isBlank hd
  constructor
  · rw [splitGap_append_stops hstops .blank w ds (by rw [hgap, hw]; simp), hgap]
  · refine ⟨c, cs, hw, ?_⟩
    rw [lexeme_append_stops hstops cs ds c (by rw [hlexeme]; exact hk), hlexeme]
    rfl

/-- A token of a text is a token by itself. -/
theorem InRow.isToken {ts : List Token} (h : InRow ts) (hproper : ∀ t ∈ ts, t.kind.isEnd = false) :
    ∀ t ∈ ts, IsToken t.text t.kind [] := by
  intro t ht
  obtain ⟨as, bs, rfl⟩ := List.append_of_mem ht
  have halone : InRow [t] := InRow.left (show InRow ([t] ++ bs) from h.right)
  obtain ⟨pos, e, htokens, hegap⟩ := halone.tokensFrom_source (by simpa using hproper t ht)
  have hsource : Token.source [t] = t.text := by simp [Token.source]
  rw [hsource, flush, List.singleton_append] at htokens
  obtain ⟨gap, c, rest, hgap, hlexeme, hrest⟩ := tokensFrom_eq_cons htokens (hproper t ht)
  obtain ⟨hkind, -, rfl, htext⟩ := Token.mk.inj hlexeme
  have hleft : (lexeme c rest).rest = [] := by
    obtain ⟨us, e', hus, -, hend, -⟩ := tokensFrom_eq_append_end (lexeme c rest).rest
      (pos + byteLength [] + byteLength (lexeme c rest).text)
    obtain ⟨-, rfl⟩ := List.append_singleton_inj.mp ((List.nil_append [e]).trans (hrest.symm.trans hus))
    rw [← flatMap_tokensFrom (lexeme c rest).rest (pos + byteLength [] + byteLength (lexeme c rest).text), hrest]
    simp [hegap, hend]
  have hwhole : t.text = c :: rest := by
    have happ := lexeme_append c rest
    rwa [hleft, List.append_nil, ← htext] at happ
  constructor
  · rw [List.append_nil, hgap, hwhole]
  · refine ⟨c, rest, hwhole, ?_⟩
    rw [List.append_nil, hkind, htext, ← hleft]

end SchemaEditor
