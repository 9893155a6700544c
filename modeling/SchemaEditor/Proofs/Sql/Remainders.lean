import Mathlib.Data.List.Forall2
import Mathlib.Data.List.TakeWhile
import SchemaEditor.Proofs.Sql.Truncation

/-!
# Tokens of a text that goes on or ends earlier

A token that leaves some of the text unread is the same whatever the text goes on with. A text that ends in blanks
has the tokens that it has without them, and a text that is cut between two tokens those in front of the cut. Only
what is wrong with a piece that is no token may be put differently, so the tokens are compared by their roles.
-/

namespace SchemaEditor

/-! ## Going on -/

/-- If the scanner leaves some of the text, it takes the same of a text that goes on. -/
def Extends (f : List Char → List Char × List Char) : Prop :=
  ∀ cs es, (f cs).2 ≠ [] → f (cs ++ es) = ((f cs).1, (f cs).2 ++ es)

theorem extends_span (p : Char → Bool) : Extends fun cs => (cs.takeWhile p, cs.dropWhile p) := by
  intro cs es h
  obtain ⟨htake, hdrop⟩ := takeWhile_append_of_ended h es
  simp only [htake, hdrop]

/-- At the end of the text nothing is left; elsewhere the first character is there in any case. -/
theorem extends_of_cons {f : List Char → List Char × List Char} (hnil : (f []).2 = [])
    (hcons : ∀ c cs es, (f (c :: cs)).2 ≠ [] → f (c :: (cs ++ es)) = ((f (c :: cs)).1, (f (c :: cs)).2 ++ es)) : Extends f := by
  intro cs es h
  cases cs with
  | nil => exact absurd hnil h
  | cons c cs => exact hcons c cs es h

/-- One scanner after another. -/
theorem Extends.seq {f g : List Char → List Char × List Char} (hf : Extends f) (hg : Extends g)
    (happ : ∀ cs, (g cs).1 ++ (g cs).2 = cs) : Extends fun cs => ((f cs).1 ++ (g (f cs).2).1, (g (f cs).2).2) := by
  intro cs es h
  have hmiddle : (f cs).2 ≠ [] := by
    intro hnil
    apply h
    have hg := happ (f cs).2
    rw [hnil] at hg
    exact hnil ▸ (List.append_eq_nil_iff.mp hg).2
  simp only
  rw [hf cs es hmiddle, hg _ es h]

theorem extends_splitFraction : Extends splitFraction := by
  apply extends_of_cons rfl
  intro c cs es h
  by_cases hc : c = '.'
  · subst hc
    have hspan := extends_span Char.isDigit cs es h
    simp only [Prod.mk.injEq] at hspan
    simp only [splitFraction, hspan.1, hspan.2]
  · simp [splitFraction, hc]

theorem extends_splitSign : Extends splitSign := by
  apply extends_of_cons rfl
  intro c cs es _
  by_cases hc : c = '+' ∨ c = '-' <;> simp [splitSign, hc]

theorem extends_splitExponent : Extends splitExponent := by
  apply extends_of_cons rfl
  intro c cs es h
  by_cases hc : c = 'e' ∨ c = 'E'
  · have hseq := extends_splitSign.seq (extends_span Char.isDigit) fun ds => List.takeWhile_append_dropWhile
    simp only [splitExponent, if_pos hc] at h ⊢
    have hext := hseq cs es h
    simp only [Prod.mk.injEq] at hext
    rw [List.cons_append, hext.1, hext.2]
    rfl
  · simp [splitExponent, hc]

theorem extends_splitDecimal : Extends splitDecimal := by
  have hparts := (extends_span Char.isDigit).seq (extends_splitFraction.seq extends_splitExponent splitExponent_append)
    fun cs => by rw [List.append_assoc, splitExponent_append, splitFraction_append]
  have heq : splitDecimal = fun cs => (cs.takeWhile Char.isDigit ++ ((splitFraction (cs.dropWhile Char.isDigit)).1 ++
      (splitExponent (splitFraction (cs.dropWhile Char.isDigit)).2).1),
      (splitExponent (splitFraction (cs.dropWhile Char.isDigit)).2).2) := by
    funext cs
    rw [← List.append_assoc]
    rfl
  rw [heq]
  exact hparts

theorem extends_splitNumber : Extends splitNumber := by
  apply extends_of_cons rfl
  intro c cs es h
  have hdecimal := extends_splitDecimal (c :: cs) es
  by_cases hc : c = '0'
  · subst hc
    cases cs with
    | nil => exact absurd rfl h
    | cons x cs =>
      by_cases hx : x = 'x' ∨ x = 'X'
      · simp only [List.cons_append, splitNumber, if_pos hx] at h ⊢
        have hspan := extends_span isHexDigit cs es h
        simp only [Prod.mk.injEq] at hspan
        rw [hspan.1, hspan.2]
      · simp only [List.cons_append, splitNumber, if_neg hx] at h hdecimal ⊢
        exact hdecimal h
  · have hplain (ds : List Char) : splitNumber (c :: ds) = splitDecimal (c :: ds) := by simp [splitNumber, hc]
    rw [hplain] at h ⊢
    rw [hplain]
    exact hdecimal h

theorem quotation_extend {q : Char} {cs : List Char} (es : List Char) (h : (quotation q cs).rest ≠ []) :
    quotation q (cs ++ es) =
      ⟨(quotation q cs).value, (quotation q cs).text, (quotation q cs).rest ++ es, (quotation q cs).closed⟩ := by
  fun_induction quotation q cs <;> simp_all +zetaDelta [quotation]

theorem blobBody_extend {cs : List Char} (es : List Char) (h : (blobBody cs).rest ≠ []) :
    blobBody (cs ++ es) = ⟨(blobBody cs).bytes, (blobBody cs).text, (blobBody cs).rest ++ es, (blobBody cs).error?⟩ := by
  fun_induction blobBody cs with
  | case4 c hc hhex => cases es <;> simp [blobBody, hc, hhex]
  | _ => simp_all +zetaDelta [blobBody]

theorem bracketName_extend {cs : List Char} (es : List Char) (h : (bracketName cs).rest ≠ []) :
    bracketName (cs ++ es) = ⟨(bracketName cs).kind, (bracketName cs).text, (bracketName cs).rest ++ es⟩ := by
  apply bracketName_append
  unfold bracketName at h ⊢
  cases hdrop : cs.dropWhile (· != ']') with
  | nil => simp [hdrop] at h
  | cons c rest => rfl

theorem operator_extend {c : Char} {cs : List Char} (es : List Char) (hcs : cs ≠ []) :
    operator c (cs ++ es) = ⟨(operator c cs).kind, (operator c cs).text, (operator c cs).rest ++ es⟩ := by
  obtain ⟨d, cs, rfl⟩ := List.exists_cons_of_ne_nil hcs
  cases hpair : pairKind? c d <;> simp [operator, hpair]

theorem lexeme_extend {c : Char} {cs : List Char} (es : List Char) (h : (lexeme c cs).rest ≠ []) :
    lexeme c (cs ++ es) = ⟨(lexeme c cs).kind, (lexeme c cs).text, (lexeme c cs).rest ++ es⟩ := by
  have hcs : cs ≠ [] := by
    intro hnil
    subst hnil
    exact h (List.length_eq_zero_iff.mp (Nat.le_zero.mp (length_lexeme c [])))
  have hhead : (cs ++ es).head? = cs.head? := by
    obtain ⟨d, cs, rfl⟩ := List.exists_cons_of_ne_nil hcs
    rfl
  revert h
  refine lexeme_alike (P := fun l l' => l.rest ≠ [] → l' = ⟨l.kind, l.text, l.rest ++ es⟩) (by rw [hhead]) (by rw [hhead])
    ?string ?quoted ?bracket ?blob ?number ?word ?operator
  case string => exact fun _ h => by simp only [stringLiteral, quotation_extend es h]
  case quoted => exact fun _ h => by simp only [quotedName, quotation_extend es h]
  case bracket => exact fun _ => bracketName_extend es
  case blob =>
    intro _ _ h
    rw [List.tail_append_of_ne_nil hcs]
    simp only [blobLiteral, blobBody_extend es h]
  case number =>
    intro h
    have hnumber := extends_splitNumber (c :: cs) es h
    simp only [numberLiteral, ← List.cons_append, hnumber]
  case word =>
    intro h
    have hspan := extends_span isWordChar (c :: cs) es h
    simp only [Prod.mk.injEq] at hspan
    simp only [word, ← List.cons_append, hspan.1, hspan.2]
  case operator => exact fun _ => operator_extend es hcs

/-- A mark of two characters that does not stand here does not come up when the text goes on. -/
theorem noMark_extend {P : Prop} {b : Char} {cs : List Char} (es : List Char) (h : ∀ cs', P → cs = b :: cs' → False)
    (hend : cs = [] → ¬P) : ∀ cs', P → cs ++ es = b :: cs' → False := by
  intro cs' hP hcs
  cases cs with
  | nil => exact hend rfl hP
  | cons c cs =>
    obtain ⟨rfl, -⟩ := List.cons.inj hcs
    exact h cs hP rfl

/-- A gap ends in any case before what is left of the text, unless that is the first half of the mark of a comment. -/
theorem splitGap_extend (s : GapState) (cs es : List Char) (h : (splitGap s cs).2 ≠ [])
    (hminus : (splitGap s cs).2 ≠ ['-']) (hslash : (splitGap s cs).2 ≠ ['/']) :
    splitGap s (cs ++ es) = ((splitGap s cs).1, (splitGap s cs).2 ++ es) := by
  fun_induction splitGap s cs with
  | case3 c cs hline hblock hc gap rest hrest ih =>
    rw [hrest] at ih
    have hend : cs ≠ [] := by
      intro hnil
      subst hnil
      cases hrest
      exact h rfl
    rw [List.cons_append, splitGap.eq_3 _ _ (noMark_extend es hline fun hnil => absurd hnil hend)
      (noMark_extend es hblock fun hnil => absurd hnil hend), if_pos hc, ih h hminus hslash]
  | case4 c cs hline hblock hc =>
    have hminus' : cs = [] → ¬c = '-' := by
      intro hnil hc
      exact hminus (by rw [hnil, hc])
    have hslash' : cs = [] → ¬c = '/' := by
      intro hnil hc
      exact hslash (by rw [hnil, hc])
    rw [List.cons_append, splitGap.eq_3 _ _ (noMark_extend es hline hminus') (noMark_extend es hblock hslash'), if_neg hc]
  | case7 c cs hclose gap rest hrest ih =>
    rw [hrest] at ih
    have hend : cs ≠ [] := by
      intro hnil
      subst hnil
      cases hrest
      exact h rfl
    rw [List.cons_append, splitGap.eq_6 _ _ (noMark_extend es hclose fun hnil => absurd hnil hend), ih h hminus hslash]
  | _ => simp_all +zetaDelta [splitGap]

/-- Where a token leaves some of the text, gap and token are the same in a text that goes on. -/
theorem splitGap_extend_token {cs gap left : List Char} {c : Char} (es : List Char) (h : splitGap .blank cs = (gap, c :: left))
    (hleft : left ≠ []) : splitGap .blank (cs ++ es) = (gap, c :: (left ++ es)) := by
  have hgap := splitGap_extend .blank cs es
  rw [h] at hgap
  apply hgap
  · simp
  · simp [hleft]
  · simp [hleft]

/-! ## Roles -/

namespace TokenKind

/-- The kinds are the same, but for what is wrong with a piece that is no token. -/
def SameRole (k k' : TokenKind) : Prop := k = k' ∨ ∃ e e', k = error e ∧ k' = error e'

theorem SameRole.refl (k : TokenKind) : k.SameRole k := .inl rfl

variable {k k' : TokenKind}

theorem SameRole.symm (h : k.SameRole k') : k'.SameRole k := by
  rcases h with rfl | ⟨e, e', rfl, rfl⟩
  · exact .refl _
  · exact .inr ⟨e', e, rfl, rfl⟩

theorem SameRole.keyword? (h : k.SameRole k') : k.keyword? = k'.keyword? := by
  rcases h with rfl | ⟨e, e', rfl, rfl⟩ <;> rfl

theorem SameRole.eq_iff (h : k.SameRole k') {l : TokenKind} (hl : ∀ e, l ≠ error e) : k = l ↔ k' = l := by
  rcases h with rfl | ⟨e, e', rfl, rfl⟩
  · rfl
  · exact iff_of_false (fun h => hl e h.symm) fun h => hl e' h.symm

end TokenKind

/-! ## Ending earlier -/

/-- A quotation that is left open takes all of the text. -/
theorem rest_of_open {q : Char} {cs : List Char} (h : (quotation q cs).closed = false) : (quotation q cs).rest = [] := by
  fun_induction quotation q cs <;> simp_all +zetaDelta

theorem blobBody_cut_error {cs es rest : List Char} {e : LexError} (herror : (blobBody (cs ++ es)).error? = some e)
    (h : (blobBody (cs ++ es)).rest = rest ++ es) :
    (blobBody cs).text = (blobBody (cs ++ es)).text ∧ (blobBody cs).rest = rest ∧ ∃ e', (blobBody cs).error? = some e' := by
  fun_induction blobBody cs generalizing rest with
  | case1 =>
    obtain ⟨htext, rfl⟩ := eq_nil_of_leaves (blobBody_append es) h
    exact ⟨htext.symm, rfl, _, rfl⟩
  | case2 =>
    have hstop : blobBody ('\'' :: es) = ⟨[], ['\''], es, none⟩ := by cases es <;> simp [blobBody]
    rw [List.singleton_append, hstop] at herror
    cases herror
  | case3 c hc hhex =>
    cases es with
    | nil =>
      obtain rfl : rest = [] := by simpa [blobBody, hc, hhex] using h.symm
      simp [blobBody, hc, hhex]
    | cons d es =>
      rw [List.singleton_append] at herror h ⊢
      by_cases hd : isHexDigit d = true
      · have hgo : (blobBody (c :: d :: es)).rest = (blobBody es).rest := by simp [blobBody, hc, hhex, hd]
        have hlen := congrArg List.length (blobBody_append es)
        rw [← hgo, h] at hlen
        simp only [List.length_append, List.length_cons] at hlen
        omega
      · have hstop : (blobBody (c :: d :: es)).text = [c] ∧ (blobBody (c :: d :: es)).rest = d :: es := by
          simp only [blobBody, if_neg hc, if_pos hhex, if_neg hd]
          split <;> exact ⟨rfl, rfl⟩
        rw [hstop.2] at h
        rw [hstop.1, List.append_left_eq_self.mp h.symm]
        exact ⟨rfl, rfl, _, rfl⟩
  | case4 c hc hhex =>
    have hstop : (blobBody (c :: es)).text = [] ∧ (blobBody (c :: es)).rest = c :: es := by
      cases es <;> simp [blobBody, hc, hhex]
    rw [List.singleton_append] at h ⊢
    rw [hstop.2] at h
    rw [hstop.1]
    have hrest : [c] ++ es = rest ++ es := h
    exact ⟨rfl, List.append_cancel_right hrest, _, rfl⟩
  | case5 d cs =>
    rw [List.cons_append, List.cons_append, blobBody, if_pos rfl] at herror
    cases herror
  | case6 c d cs hc hhex hhex' _ =>
    rename_i ih
    have hgo (ds : List Char) : blobBody (c :: d :: ds) = ⟨UInt8.ofNat (hexValue c * 16 + hexValue d) :: (blobBody ds).bytes,
        c :: d :: (blobBody ds).text, (blobBody ds).rest, (blobBody ds).error?⟩ := by
      simp [blobBody, hc, hhex, hhex']
    rw [List.cons_append, List.cons_append, hgo] at h herror ⊢
    obtain ⟨htext, hrest, hwrong⟩ := ih herror h
    refine ⟨?_, hrest, hwrong⟩
    show c :: d :: (blobBody cs).text = _
    rw [htext]
  | case7 c cs hc hhex hd =>
    have hstop (ds : List Char) : blobBody (c :: '\'' :: ds) = ⟨[], [c], '\'' :: ds, some .oddBlob⟩ := by
      simp [blobBody, hc, hhex, hd]
    rw [List.cons_append, List.cons_append, hstop] at h ⊢
    exact ⟨rfl, List.append_cancel_right h, _, rfl⟩
  | case8 c d cs hc hhex hd hd' =>
    have hstop (ds : List Char) : blobBody (c :: d :: ds) = ⟨[], [c], d :: ds, some .blobCharacter⟩ := by
      simp [blobBody, hc, hhex, hd, hd']
    rw [List.cons_append, List.cons_append, hstop] at h ⊢
    exact ⟨rfl, List.append_cancel_right h, _, rfl⟩
  | case9 c d cs hc hhex =>
    have hstop (ds : List Char) : blobBody (c :: d :: ds) = ⟨[], [], c :: d :: ds, some .blobCharacter⟩ := by
      simp [blobBody, hc, hhex]
    rw [List.cons_append, List.cons_append, hstop] at h ⊢
    exact ⟨rfl, List.append_cancel_right h, _, rfl⟩

/-- A token that ends before the end of the text has the same text and role if the text ends earlier. -/
theorem lexeme_cut_role {c : Char} {cs es w rest : List Char} {k : TokenKind} (h : lexeme c (cs ++ es) = ⟨k, w, rest ++ es⟩) :
    ∃ k', lexeme c cs = ⟨k', w, rest⟩ ∧ k'.SameRole k := by
  by_cases hk : k.isEnd = false
  · exact ⟨k, lexeme_cut h hk, .refl k⟩
  rw [Bool.not_eq_false] at hk
  by_cases hes : es = []
  · subst hes
    rw [List.append_nil, List.append_nil] at h
    exact ⟨k, h, .refl k⟩
  have hopen : rest ++ es ≠ [] := by
    intro hnil
    exact hes (List.append_eq_nil_iff.mp hnil).2
  have hblob := startsBlob_cut h
  have hnumber := startsNumber_cut h
  revert h
  refine lexeme_alike (P := fun l l' => l' = ⟨k, w, rest ++ es⟩ → ∃ k', l = ⟨k', w, rest⟩ ∧ k'.SameRole k) hblob hnumber
    ?string ?quoted ?bracket ?blob ?number ?word ?operator
  case string =>
    intro _ h
    have hleft : (quotation '\'' (cs ++ es)).rest = rest ++ es := congrArg Lexeme.rest h
    have hopened : (quotation '\'' (cs ++ es)).closed = false := by simpa [h, hk] using (isEnd_stringLiteral (cs ++ es)).symm
    exact absurd (hleft.symm.trans (rest_of_open hopened)) hopen
  case quoted =>
    intro _ h
    have hleft : (quotation c (cs ++ es)).rest = rest ++ es := congrArg Lexeme.rest h
    have hopened : (quotation c (cs ++ es)).closed = false := by simpa [h, hk] using (isEnd_quotedName c (cs ++ es)).symm
    exact absurd (hleft.symm.trans (rest_of_open hopened)) hopen
  case bracket =>
    intro _ h
    unfold bracketName at h
    cases hdrop : (cs ++ es).dropWhile (· != ']') with
    | nil =>
      rw [hdrop] at h
      exact absurd (Lexeme.mk.inj h).2.2.symm hopen
    | cons d left =>
      rw [hdrop] at h
      obtain ⟨rfl, -⟩ := Lexeme.mk.inj h
      cases hk
  case blob =>
    intro _ hcs h
    obtain ⟨cs, rfl⟩ := List.head?_eq_some_iff.mp hcs
    obtain ⟨rfl, rfl, hrest⟩ := Lexeme.mk.inj h
    simp only [List.cons_append, List.tail_cons] at hk hrest ⊢
    cases herror : (blobBody (cs ++ es)).error? with
    | none => simp [herror, TokenKind.isEnd] at hk
    | some e =>
      obtain ⟨htext, hleft, e', he'⟩ := blobBody_cut_error herror hrest
      refine ⟨.error e', ?_, .inr ⟨e', e, rfl, by simp⟩⟩
      simp [blobLiteral, htext, hleft, he']
  case number => exact fun h => ⟨k, numberLiteral_cut h, .refl k⟩
  case word => exact fun h => ⟨k, word_cut h, .refl k⟩
  case operator => exact fun h => ⟨k, operator_cut h, .refl k⟩

/-! ## Blanks at the end -/

section
variable {r : List Char} (hr : ∀ c ∈ r, Text.isBlank c = true)
include hr

theorem splitGap_blanks (s : GapState) : (splitGap s r).2 = [] := by
  induction r generalizing s with
  | nil => cases s <;> rfl
  | cons c r ih =>
    have hc := hr c List.mem_cons_self
    have hstops := (stops_of_isBlank hc).mark
    have ih (s : GapState) := ih (fun d hd => hr d (List.mem_cons_of_mem c hd)) s
    cases s with
    | blank =>
      rw [splitGap.eq_3 _ _ (by rintro cs' rfl; simp at hstops) (by rintro cs' rfl; simp at hstops), if_pos hc]
      exact ih .blank
    | line => exact ih _
    | block =>
      rw [splitGap.eq_6 _ _ (by rintro cs' rfl; simp at hstops)]
      exact ih .block

/-- Blanks behind a text that is only a gap are part of the gap. -/
theorem splitGap_append_blanks {s : GapState} {cs : List Char} (h : (splitGap s cs).2 = []) : (splitGap s (cs ++ r)).2 = [] := by
  fun_induction splitGap s cs with
  | case3 c cs hline hblock hc gap rest hrest ih =>
    rw [hrest] at ih
    have hstops := (stops_of_isBlank hc).mark
    rw [List.cons_append, splitGap.eq_3 _ _ (by rintro cs' rfl; simp at hstops) (by rintro cs' rfl; simp at hstops), if_pos hc]
    exact ih h
  | case7 c cs hclose gap rest hrest ih =>
    rw [hrest] at ih
    have hclose : ∀ cs', c = '*' → cs ++ r = '/' :: cs' → False := by
      intro cs' hc hcs
      cases cs with
      | cons d cs => exact hclose cs hc (by rw [(List.cons.inj hcs).1])
      | nil =>
        have hslash : '/' ∈ r := by
          rw [← List.nil_append r, hcs]
          exact List.mem_cons_self
        exact absurd (hr '/' hslash) (by decide)
    rw [List.cons_append, splitGap.eq_6 _ _ hclose]
    exact ih h
  | case8 s => exact splitGap_blanks hr s
  | _ => simp_all +zetaDelta [splitGap]

theorem quotation_blanks {q : Char} (hq : Text.isBlank q = false) : (quotation q r).closed = false := by
  induction r with
  | nil => rfl
  | cons c r ih =>
    have hc : c ≠ q := by
      intro hc
      have hblank := hr c List.mem_cons_self
      rw [hc, hq] at hblank
      cases hblank
    have ih := ih fun d hd => hr d (List.mem_cons_of_mem c hd)
    cases r with
    | nil => simp [quotation, hc]
    | cons d r => simpa [quotation, hc] using ih

/-- An open quotation is not closed by blanks. -/
theorem quotation_append_blanks {q : Char} {cs : List Char} (hq : Text.isBlank q = false)
    (h : (quotation q cs).closed = false) : (quotation q (cs ++ r)).closed = false := by
  fun_induction quotation q cs with
  | case1 => exact quotation_blanks hr hq
  | case3 c hc =>
    have hgo : (quotation q (c :: r)).closed = (quotation q r).closed := by cases r <;> simp [quotation, hc]
    rw [List.singleton_append, hgo]
    exact quotation_blanks hr hq
  | _ => simp_all +zetaDelta [quotation]

/-- A blob that is left open is spoilt by a blank. -/
theorem blobBody_append_blanks {cs : List Char} {e : LexError} (herror : (blobBody cs).error? = some e)
    (hrest : (blobBody cs).rest = []) : (∃ e', (blobBody (cs ++ r)).error? = some e') ∧ (blobBody (cs ++ r)).rest = r := by
  cases r with
  | nil =>
    rw [List.append_nil]
    exact ⟨⟨e, herror⟩, hrest⟩
  | cons d r =>
    have hstops := stops_of_isBlank (hr d List.mem_cons_self)
    have hd : d ≠ '\'' := hstops.ne.1
    have hhex := hstops.hex
    fun_induction blobBody cs with
    | case1 => cases r <;> simp [blobBody, hd, hhex]
    | _ => simp_all +zetaDelta [blobBody]

/-- A token at the end of a text that blanks follow: they are behind it, or, if it is left open, in it. -/
theorem lexeme_append_blanks {c : Char} {cs : List Char} (h : (lexeme c cs).rest = []) :
    (lexeme c cs).kind.SameRole (lexeme c (cs ++ r)).kind ∧ ((lexeme c (cs ++ r)).rest = [] ∨ (lexeme c (cs ++ r)).rest = r) := by
  cases r with
  | nil =>
    rw [List.append_nil]
    exact ⟨.refl _, .inl h⟩
  | cons d ds =>
  have hd := stops_of_isBlank (hr d List.mem_cons_self)
  by_cases hk : (lexeme c cs).kind.isEnd = false
  · rw [lexeme_append_stops hd cs ds c hk, h]
    exact ⟨.refl _, .inr rfl⟩
  rw [Bool.not_eq_false] at hk
  -- what is no token is an open quotation or bracket, a spoilt blob or an odd character
  revert h hk
  refine lexeme_alike (P := fun l l' => l.rest = [] → l.kind.isEnd = true →
      l.kind.SameRole l'.kind ∧ (l'.rest = [] ∨ l'.rest = d :: ds))
    (startsBlob_append_stop hd.ne.1 cs ds) (startsNumber_append_stop hd.digit cs ds)
    ?string ?quoted ?bracket ?blob ?number ?word ?operator
  case string =>
    intro _ _ hk
    have hopen : (quotation '\'' cs).closed = false := by simpa [isEnd_stringLiteral] using hk
    have hopen' := quotation_append_blanks hr (q := '\'') (by decide) hopen
    simp only [stringLiteral, hopen, hopen', rest_of_open hopen']
    exact ⟨.refl _, .inl trivial⟩
  case quoted =>
    intro hc _ hk
    have hblank : Text.isBlank c = false := by rcases hc with rfl | rfl <;> decide
    have hopen : (quotation c cs).closed = false := by simpa [isEnd_quotedName] using hk
    have hopen' := quotation_append_blanks hr hblank hopen
    simp only [quotedName, hopen, hopen', rest_of_open hopen']
    exact ⟨.refl _, .inl trivial⟩
  case bracket =>
    intro _ _ hk
    unfold bracketName at hk ⊢
    cases hdrop : cs.dropWhile (· != ']') with
    | cons b left =>
      rw [hdrop] at hk
      cases hk
    | nil =>
      have hopen : (cs ++ d :: ds).dropWhile (· != ']') = [] := by
        rw [List.dropWhile_eq_nil_iff] at hdrop ⊢
        intro x hx
        rcases List.mem_append.mp hx with hx | hx
        · exact hdrop x hx
        · have hblank := hr x hx
          simp only [bne_iff_ne, ne_eq]
          rintro rfl
          exact absurd hblank (by decide)
      simp only [hopen]
      exact ⟨.refl _, .inl trivial⟩
  case blob =>
    intro _ hcs h hk
    obtain ⟨cs, rfl⟩ := List.head?_eq_some_iff.mp hcs
    simp only [List.cons_append, List.tail_cons] at h hk ⊢
    cases herror : (blobBody cs).error? with
    | none => simp [isEnd_blobLiteral, herror] at hk
    | some e =>
      obtain ⟨⟨e', he'⟩, hrest⟩ := blobBody_append_blanks hr herror h
      simp only [blobLiteral, herror, he', hrest]
      exact ⟨.inr ⟨e, e', rfl, rfl⟩, .inr trivial⟩
  case number =>
    intro _ hk
    cases hk
  case word =>
    intro _ hk
    unfold word at hk
    dsimp only at hk
    split at hk <;> cases hk
  case operator =>
    intro h _
    rw [operator_append_stops hd]
    exact ⟨.refl _, .inr (by rw [h]; rfl)⟩

end

/-! ## Tokens -/

/-- Tokens of the same role. -/
def Token.SameRole (t t' : Token) : Prop := t.kind.SameRole t'.kind

/-- Tokens of the same role with the same text and the same gap in front of them. -/
structure Token.Akin (t t' : Token) : Prop where
  role : t.SameRole t'
  gap : t.gap = t'.gap
  text : t.text = t'.text

/-- The source text of tokens with the gaps in front of them. -/
def Token.spelled (ts : List Token) : List Char := ts.flatMap fun t => t.gap ++ t.text

/-- Where a text stands has no bearing on its tokens. -/
theorem akin_tokensFrom (cs : List Char) (pos pos' : Nat) : List.Forall₂ Token.Akin (tokensFrom pos cs) (tokensFrom pos' cs) := by
  induction cs using token_induction generalizing pos pos' with
  | atEnd cs gap h =>
    rw [tokensFrom_end h, tokensFrom_end h]
    exact .cons ⟨.refl _, rfl, rfl⟩ .nil
  | cons cs gap c rest h ih =>
    rw [tokensFrom_cons h, tokensFrom_cons h]
    exact .cons ⟨.refl _, rfl, rfl⟩ (ih _ _)

/-- The tokens of a text are, up to any place, those of its first part and those of the others. -/
theorem tokensFrom_split {ts post : List Token} {cs : List Char} {pos : Nat} (h : tokensFrom pos cs = ts ++ post)
    (hpost : post ≠ []) : ∃ pos' rest, cs = Token.spelled ts ++ rest ∧ tokensFrom pos' rest = post := by
  induction ts generalizing cs pos with
  | nil => exact ⟨pos, cs, rfl, h⟩
  | cons t ts ih =>
    cases hgap : splitGap .blank cs with
    | mk gap left =>
      cases left with
      | nil =>
        rw [tokensFrom_end hgap] at h
        have hnil := (List.cons.inj h).2
        exact absurd (List.append_eq_nil_iff.mp hnil.symm).2 hpost
      | cons c left =>
        rw [tokensFrom_cons hgap] at h
        obtain ⟨ht, h⟩ := List.cons.inj h
        obtain ⟨pos', rest, hcs, hrest⟩ := ih h
        refine ⟨pos', rest, ?_, hrest⟩
        rw [← gap_lexeme_append hgap, hcs, ← ht]
        simp [Token.spelled]

/-- There is nothing but the end behind the gap of a token. -/
theorem splitGap_gap {cs : List Char} {pos : Nat} {t : Token} {post : List Token} (h : tokensFrom pos cs = t :: post) :
    splitGap .blank t.gap = (t.gap, []) := by
  have happ := splitGap_append .blank cs
  cases hgap : splitGap .blank cs with
  | mk gap left =>
    rw [hgap] at happ
    have hcuts := cuts_splitGap .blank gap left []
    rw [happ, hgap] at hcuts
    have ht : t.gap = gap := by
      cases left with
      | nil =>
        rw [tokensFrom_end hgap] at h
        rw [← (List.cons.inj h).1]
      | cons c left =>
        rw [tokensFrom_cons hgap] at h
        rw [← (List.cons.inj h).1]
    rw [ht]
    exact hcuts rfl

/-- The tokens in front of a cut keep texts and roles, and behind the last of them there are the tokens of what is
left up to the cut. -/
theorem tokensFrom_cut_role {ts post : List Token} {cs es rest : List Char} {pos : Nat}
    (h : tokensFrom pos (cs ++ es) = ts ++ post) (hpost : post ≠ []) (hcs : cs = Token.spelled ts ++ rest) :
    ∃ ts' pos', tokensFrom pos cs = ts' ++ tokensFrom pos' rest ∧ List.Forall₂ Token.Akin ts ts' := by
  induction ts generalizing cs pos with
  | nil => exact ⟨[], pos, by rw [hcs]; rfl, .nil⟩
  | cons t ts ih =>
    cases hgap : splitGap .blank (cs ++ es) with
    | mk gap left =>
      cases left with
      | nil =>
        rw [tokensFrom_end hgap] at h
        have hnil := (List.cons.inj h).2
        exact absurd (List.append_eq_nil_iff.mp hnil.symm).2 hpost
      | cons c left =>
        rw [tokensFrom_cons hgap] at h
        obtain ⟨ht, h⟩ := List.cons.inj h
        have hwhole := gap_lexeme_append hgap
        rw [hcs, ← ht] at hwhole
        have hleft : (lexeme c left).rest = (Token.spelled ts ++ rest) ++ es := by simpa [Token.spelled] using hwhole
        -- the text begins with the gap and with the first character of the token
        obtain ⟨d, w, hw⟩ := List.exists_cons_of_ne_nil (lexeme_text_ne_nil c left)
        have happ := lexeme_append c left
        rw [hw, hleft, List.cons_append] at happ
        obtain ⟨rfl, hlefts⟩ := List.cons.inj happ
        have hcut : splitGap .blank cs = (gap, d :: (w ++ (Token.spelled ts ++ rest))) := by
          have hcuts := cuts_splitGap .blank cs es (d :: (w ++ (Token.spelled ts ++ rest)))
          rw [hgap] at hcuts
          exact hcuts (by rw [← hlefts]; simp)
        have hlexeme : lexeme d ((w ++ (Token.spelled ts ++ rest)) ++ es) =
            ⟨(lexeme d left).kind, (lexeme d left).text, (Token.spelled ts ++ rest) ++ es⟩ := by
          rw [← hleft, List.append_assoc, hlefts]
        obtain ⟨k', hk', hrole⟩ := lexeme_cut_role hlexeme
        rw [hleft] at h
        obtain ⟨ts', pos', hts', hakin⟩ := ih h rfl
        refine ⟨_ :: ts', pos', by rw [tokensFrom_cons hcut, hk', hts']; rfl, .cons ?_ hakin⟩
        rw [← ht]
        exact ⟨hrole.symm, rfl, rfl⟩

/-- The tokens in front of a token are the same in a text that goes on behind it. -/
theorem tokensFrom_extend {ts post : List Token} {t : Token} {cs : List Char} {pos : Nat} (h : tokensFrom pos cs = ts ++ t :: post)
    (ht : t.kind ≠ .eof) : ∃ pos' rest, cs = Token.spelled ts ++ rest ∧ tokensFrom pos' rest = t :: post ∧
      ∀ es, tokensFrom pos (cs ++ es) = ts ++ tokensFrom pos' (rest ++ es) := by
  induction ts generalizing cs pos with
  | nil => exact ⟨pos, cs, rfl, h, fun _ => rfl⟩
  | cons u ts ih =>
    cases hgap : splitGap .blank cs with
    | mk gap left =>
      cases left with
      | nil =>
        rw [tokensFrom_end hgap] at h
        have hnil := (List.cons.inj h).2
        exact absurd (List.append_eq_nil_iff.mp hnil.symm).2 (by simp)
      | cons c left =>
        rw [tokensFrom_cons hgap] at h
        obtain ⟨hu, h⟩ := List.cons.inj h
        have hrest : (lexeme c left).rest ≠ [] := by
          intro hnil
          rw [hnil, tokensFrom_end rfl] at h
          have hmem : t ∈ List.append ts (t :: post) := List.mem_append_right ts List.mem_cons_self
          rw [← h, List.mem_singleton] at hmem
          exact ht (by rw [hmem])
        have hleft : left ≠ [] := by
          intro hnil
          subst hnil
          exact hrest (List.length_eq_zero_iff.mp (Nat.le_zero.mp (length_lexeme c [])))
        obtain ⟨pos', rest, hcs, hpost, hext⟩ := ih h
        refine ⟨pos', rest, ?_, hpost, fun es => ?_⟩
        · rw [← gap_lexeme_append hgap, hcs, ← hu]
          simp [Token.spelled]
        · rw [tokensFrom_cons (splitGap_extend_token es hgap hleft), lexeme_extend es hrest, hext, hu]
          rfl

/-- Blanks at the end of a text make no difference to the roles of its tokens. -/
theorem roles_append_blanks {r : List Char} (hr : ∀ c ∈ r, Text.isBlank c = true) (cs : List Char) (pos pos' : Nat) :
    List.Forall₂ Token.SameRole (tokensFrom pos cs) (tokensFrom pos' (cs ++ r)) := by
  have hend {u : List Char} (hu : (splitGap .blank u).2 = []) (pos pos' : Nat) {v : List Char} (hv : (splitGap .blank v).2 = []) :
      List.Forall₂ Token.SameRole (tokensFrom pos u) (tokensFrom pos' v) := by
    rw [tokensFrom_end (Prod.ext rfl hu), tokensFrom_end (Prod.ext rfl hv)]
    exact .cons (.refl _) .nil
  induction cs using token_induction generalizing pos pos' with
  | atEnd cs gap h => exact hend (by rw [h]) pos pos' (splitGap_append_blanks hr (by rw [h]))
  | cons cs gap c rest h ih =>
    have hgap : splitGap .blank (cs ++ r) = (gap, c :: (rest ++ r)) := by
      cases r with
      | nil => simpa using h
      | cons d ds =>
        have hstops := stops_of_isBlank (hr d List.mem_cons_self)
        have happ := splitGap_append_stops hstops .blank cs ds
        rw [h] at happ
        exact happ (by simp)
    rw [tokensFrom_cons h, tokensFrom_cons hgap]
    by_cases hrest : (lexeme c rest).rest = []
    · obtain ⟨hrole, hafter⟩ := lexeme_append_blanks hr hrest
      refine .cons hrole (hend ?_ _ _ ?_)
      · rw [hrest]
        rfl
      · rcases hafter with hafter | hafter
        · rw [hafter]
          rfl
        · rw [hafter]
          exact splitGap_blanks hr .blank
    · rw [lexeme_extend r hrest]
      exact .cons (.refl _) (ih _ _)

end SchemaEditor
