import SchemaEditor.Catalog
import SchemaEditor.Proofs.Sql.Remainders

/-!
# Text without carriage returns

A carriage return between tokens is a blank, but it may be the only one there, and inside a token it belongs to the token.
So without carriage returns a text has other tokens if a token has one in it or runs on into its neighbours. Whether one
does can be seen from two tokens at a time, since no scanner looks further than one character behind its token.
-/

namespace SchemaEditor

def dropReturns (cs : List Char) : List Char := cs.filter (· != '\r')

@[simp] theorem dropReturns_append (cs ds : List Char) : dropReturns (cs ++ ds) = dropReturns cs ++ dropReturns ds :=
  List.filter_append ..

theorem dropReturns_eq_self {cs : List Char} (h : '\r' ∉ cs) : dropReturns cs = cs :=
  List.filter_eq_self.mpr fun _ hc => bne_iff_ne.mpr fun heq => h (heq ▸ hc)

theorem not_mem_dropReturns (cs : List Char) : '\r' ∉ dropReturns cs := by simp [dropReturns]

theorem tokenize_withoutReturns (s : String) : tokenize (withoutReturns s) = tokensFrom 0 (dropReturns s.toList) := by
  rw [tokenize, withoutReturns, String.toList_ofList, dropReturns]

/-! ## Tokens and what follows them -/

namespace Token

/-- It is the first token of its gap and its text in front of `next`. -/
def StandsBefore (t : Token) (next : List Char) : Prop :=
  (tokensFrom 0 (t.gap ++ (t.text ++ next))).head?.map form = some t.form

instance (t : Token) (next : List Char) : Decidable (t.StandsBefore next) :=
  inferInstanceAs (Decidable (_ = _))

/-- The token behind a gap without carriage returns. -/
def slim (t : Token) : Token := { t with gap := dropReturns t.gap }

variable {t : Token} {next more : List Char}

theorem standsBefore_iff (ht : t.text ≠ []) : t.StandsBefore next ↔
    splitGap .blank (t.gap ++ (t.text ++ next)) = (t.gap, t.text ++ next) ∧
      ∃ c cs, t.text = c :: cs ∧ lexeme c (cs ++ next) = ⟨t.kind, t.text, next⟩ := by
  unfold StandsBefore
  have happ := splitGap_append .blank (t.gap ++ (t.text ++ next))
  constructor
  · intro h
    cases hsplit : splitGap .blank (t.gap ++ (t.text ++ next)) with
    | mk gap rest =>
      rw [hsplit] at happ
      cases rest with
      | nil =>
        rw [tokensFrom_end hsplit] at h
        exact absurd (congrArg (fun f => f.2.2) (Option.some.inj h)).symm ht
      | cons c rest =>
        rw [tokensFrom_cons hsplit] at h
        have hform := Option.some.inj h
        have hkind : (lexeme c rest).kind = t.kind := congrArg Prod.fst hform
        obtain rfl : gap = t.gap := congrArg (fun f => f.2.1) hform
        have htext : (lexeme c rest).text = t.text := congrArg (fun f => f.2.2) hform
        have hrest : c :: rest = t.text ++ next := List.append_cancel_left happ
        have hleft : (lexeme c rest).rest = next := by
          have hlexeme := lexeme_append c rest
          rw [htext, hrest] at hlexeme
          exact List.append_cancel_left hlexeme
        obtain ⟨d, cs, hcs⟩ := List.exists_cons_of_ne_nil ht
        rw [hcs, List.cons_append] at hrest
        obtain ⟨rfl, rfl⟩ := List.cons.inj hrest
        refine ⟨by rw [hcs, List.cons_append], c, cs, hcs, ?_⟩
        rw [← hkind, ← htext]
        exact congrArg (Lexeme.mk _ _) hleft
  · rintro ⟨hsplit, c, cs, hcs, hlexeme⟩
    rw [hcs, List.cons_append] at hsplit
    rw [hcs, List.cons_append, tokensFrom_cons hsplit, hlexeme]
    rfl

/-- Behind a token its first neighbour is all that counts. -/
theorem standsBefore_append (ht : t.text ≠ []) (hnext : next = [] → more = []) :
    t.StandsBefore (next ++ more) ↔ t.StandsBefore next := by
  by_cases hnil : next = []
  · rw [hnext hnil, List.append_nil]
  rw [standsBefore_iff ht, standsBefore_iff ht]
  constructor
  · rintro ⟨hsplit, c, cs, hcs, hlexeme⟩
    refine ⟨?_, c, cs, hcs, ?_⟩
    · have hcuts := cuts_splitGap .blank (t.gap ++ (t.text ++ next)) more (t.text ++ next)
      simp only [List.append_assoc] at hcuts
      rw [hsplit] at hcuts
      exact hcuts rfl
    · rw [← List.append_assoc] at hlexeme
      obtain ⟨k, hcut, -⟩ := lexeme_cut_role hlexeme
      have hopen : (lexeme c (cs ++ next)).rest ≠ [] := by rwa [hcut]
      have hextend := lexeme_extend more hopen
      rw [hlexeme, hcut] at hextend
      obtain ⟨rfl, -⟩ := Lexeme.mk.inj hextend
      exact hcut
  · rintro ⟨hsplit, c, cs, hcs, hlexeme⟩
    refine ⟨?_, c, cs, hcs, ?_⟩
    · rw [hcs, List.cons_append] at hsplit ⊢
      have hextend := splitGap_extend_token more hsplit (by simp [hnil])
      simpa using hextend
    · have hopen : (lexeme c (cs ++ next)).rest ≠ [] := by rwa [hlexeme]
      have hextend := lexeme_extend more hopen
      rw [hlexeme] at hextend
      rw [← List.append_assoc, hextend]

theorem StandsBefore.map_form (h : t.StandsBefore next) (ht : t.text ≠ []) (pos : Nat) :
    ∃ pos', (tokensFrom pos (t.gap ++ (t.text ++ next))).map form = t.form :: (tokensFrom pos' next).map form := by
  obtain ⟨hsplit, c, cs, hcs, hlexeme⟩ := (standsBefore_iff ht).mp h
  rw [hcs, List.cons_append] at hsplit
  rw [hcs, List.cons_append, tokensFrom_cons hsplit, hlexeme]
  exact ⟨_, rfl⟩

theorem standsBefore_of_map_form {pos : Nat} {fs : List (TokenKind × List Char × List Char)}
    (h : (tokensFrom pos (t.gap ++ (t.text ++ next))).map form = t.form :: fs) : t.StandsBefore next := by
  rw [StandsBefore, ← List.head?_map, map_form_tokensFrom _ 0 pos, h]
  rfl

end Token

/-! ## Neighbours without carriage returns -/

/-- Without carriage returns every token of these stands before the next one as it is: none has one in it, and none runs on. -/
def Apart : List Token → Prop
  | [] => True
  | t :: ts => '\r' ∉ t.text ∧ t.slim.StandsBefore (dropReturns (Token.spelled (ts.take 1))) ∧ Apart ts

instance decidableApart : (ts : List Token) → Decidable (Apart ts)
  | [] => .isTrue trivial
  | _ :: ts =>
    have := decidableApart ts
    inferInstanceAs (Decidable (_ ∧ _ ∧ _))

theorem spelled_tokensFrom (cs : List Char) (pos : Nat) : Token.spelled (tokensFrom pos cs) = cs := flatMap_tokensFrom cs pos

/-- A next token without carriage returns is all that counts of the text behind a token. -/
theorem standsBefore_next {t : Token} (ht : t.text ≠ []) {cs : List Char} {pos : Nat}
    (h : ∀ u ∈ (tokensFrom pos cs).head?, '\r' ∉ u.text) :
    t.StandsBefore (dropReturns cs) ↔ t.StandsBefore (dropReturns (Token.spelled ((tokensFrom pos cs).take 1))) := by
  obtain ⟨us, e, hus, -, hend, hne⟩ := tokensFrom_eq_append_end cs pos
  have hcs := spelled_tokensFrom cs pos
  cases htokens : tokensFrom pos cs with
  | nil => simp [htokens] at hus
  | cons u rest =>
    rw [htokens] at h hus hcs
    have hwhole : dropReturns cs = dropReturns (Token.spelled [u]) ++ dropReturns (Token.spelled rest) := by
      rw [← hcs, ← dropReturns_append]
      simp [Token.spelled]
    rw [hwhole]
    refine Token.standsBefore_append ht fun hnil => ?_
    -- only the end has no text, and nothing follows it
    have htext : u.text = [] := by
      have hboth : dropReturns u.gap ++ dropReturns u.text = [] := by simpa [Token.spelled] using hnil
      rw [← dropReturns_eq_self (h u rfl)]
      exact (List.append_eq_nil_iff.mp hboth).2
    cases us with
    | nil =>
      obtain rfl : rest = [] := (List.cons.inj hus).2
      rfl
    | cons v us => exact absurd htext ((List.cons.inj hus).1 ▸ (hne v List.mem_cons_self).2)

theorem Apart.head? {ts : List Token} (h : Apart ts) : ∀ t ∈ ts.head?, '\r' ∉ t.text := by
  cases ts with
  | nil => simp
  | cons t ts => exact fun _ ht => Option.some.inj ht ▸ h.1

/-- A text that is only a gap stays one without carriage returns if its end stands behind it. -/
theorem map_form_dropReturns_end {e : Token} (he : e.kind = .eof) (htext : e.text = []) (pos : Nat) :
    (tokensFrom pos (dropReturns e.gap)).map Token.form = [e.slim.form] ↔ Apart [e] := by
  have hapart : Apart [e] ↔ (tokensFrom 0 (dropReturns e.gap)).head?.map Token.form = some e.slim.form := by
    simp [Apart, Token.StandsBefore, Token.slim, Token.spelled, htext, dropReturns]
  rw [hapart, ← List.head?_map, map_form_tokensFrom _ 0 pos]
  constructor
  · intro h
    rw [h]
    rfl
  · intro h
    obtain ⟨ts, last, hts, -, -, hne⟩ := tokensFrom_eq_append_end (dropReturns e.gap) pos
    rw [hts] at h ⊢
    cases ts with
    | nil => simpa using h
    | cons t ts =>
      have hkind : t.kind = e.kind := congrArg Prod.fst (Option.some.inj h)
      exact absurd (hkind.trans he) (hne t List.mem_cons_self).1

/-- A text keeps its tokens without carriage returns, and its gaps but for these, if and only if every token stands before
the next one as it is. -/
theorem map_form_dropReturns_iff (cs : List Char) (pos pos' : Nat) :
    (tokensFrom pos' (dropReturns cs)).map Token.form = (tokensFrom pos cs).map (Token.form ∘ Token.slim) ↔
      Apart (tokensFrom pos cs) := by
  induction cs using token_induction generalizing pos pos' with
  | atEnd cs gap h =>
    obtain rfl : gap = cs := by simpa [h] using splitGap_append .blank cs
    rw [tokensFrom_end h]
    generalize pos + byteLength gap = stop
    have hend := map_form_dropReturns_end (e := ⟨.eof, ⟨stop, stop⟩, gap, []⟩) rfl rfl pos'
    exact hend
  | cons cs gap c rest h ih =>
    rw [tokensFrom_cons h]
    generalize hstop : pos + byteLength gap + byteLength (lexeme c rest).text = stop
    set t : Token := ⟨(lexeme c rest).kind, ⟨pos + byteLength gap, stop⟩, gap, (lexeme c rest).text⟩
    have htext : t.slim.text ≠ [] := lexeme_text_ne_nil c rest
    have hwhole (hreturn : '\r' ∉ t.text) :
        dropReturns cs = t.slim.gap ++ (t.slim.text ++ dropReturns (lexeme c rest).rest) := by
      rw [← gap_lexeme_append h, dropReturns_append, dropReturns_append, dropReturns_eq_self hreturn]
      rfl
    rw [List.map_cons, Apart]
    constructor
    · intro heq
      have hreturn : '\r' ∉ t.text := by
        obtain ⟨u, us, hus, hu, -⟩ := List.map_eq_cons_iff.mp heq
        have hutext : u.text = t.text := congrArg (fun f => f.2.2) hu
        have hspelled := spelled_tokensFrom (dropReturns cs) pos'
        rw [hus] at hspelled
        intro hmem
        refine not_mem_dropReturns cs ?_
        rw [← hspelled]
        simp [Token.spelled, hutext, hmem]
      rw [hwhole hreturn] at heq
      have hstands : t.slim.StandsBefore (dropReturns (lexeme c rest).rest) := Token.standsBefore_of_map_form heq
      obtain ⟨pos'', hforms⟩ := hstands.map_form htext pos'
      have hrest : Apart (tokensFrom stop (lexeme c rest).rest) :=
        (ih stop pos'').mp (List.cons.inj (hforms.symm.trans heq)).2
      exact ⟨hreturn, (standsBefore_next htext hrest.head?).mp hstands, hrest⟩
    · rintro ⟨hreturn, hstands, hrest⟩
      obtain ⟨pos'', hforms⟩ := ((standsBefore_next htext hrest.head?).mpr hstands).map_form htext pos'
      rw [hwhole hreturn, hforms, (ih stop pos'').mpr hrest]
      rfl

/-! ## Line ends -/

/-- Every carriage return is followed by a line feed. -/
def returnsEndLines : List Char → Bool
  | [] => true
  | c :: cs => (c != '\r' || cs.head? == some '\n') && returnsEndLines cs

theorem returnsEndLines_right {cs ds : List Char} (h : returnsEndLines (cs ++ ds) = true) : returnsEndLines ds = true := by
  induction cs with
  | nil => exact h
  | cons c cs ih => exact ih (Bool.and_eq_true_iff.mp h).2

theorem dropReturns_return (cs : List Char) : dropReturns ('\r' :: cs) = dropReturns cs := rfl

theorem dropReturns_cons {c : Char} (hc : c ≠ '\r') (cs : List Char) : dropReturns (c :: cs) = c :: dropReturns cs := by
  simp [dropReturns, hc]

/-- A carriage return leaves the line feed behind it in its place. -/
theorem dropReturns_lineEnd {cs : List Char} (h : returnsEndLines ('\r' :: cs) = true) :
    ∃ ds, dropReturns ('\r' :: cs) = '\n' :: ds := by
  cases cs with
  | nil => simp [returnsEndLines] at h
  | cons d ds =>
    obtain rfl : d = '\n' := by simpa [returnsEndLines] using (Bool.and_eq_true_iff.mp h).1
    exact ⟨_, rfl⟩

/-- Line ends are no part of the mark of a comment. -/
theorem noMark_dropReturns {P : Prop} {b : Char} (hb : b ≠ '\n') {cs : List Char} (hcs : returnsEndLines cs = true)
    (h : ∀ cs', P → cs = b :: cs' → False) : ∀ cs', P → dropReturns cs = b :: cs' → False := by
  intro cs' hP heq
  cases cs with
  | nil => cases heq
  | cons c cs =>
    by_cases hc : c = '\r'
    · subst hc
      obtain ⟨ds, hline⟩ := dropReturns_lineEnd hcs
      rw [hline] at heq
      exact hb (List.cons.inj heq).1.symm
    · rw [dropReturns_cons hc] at heq
      obtain ⟨rfl, -⟩ := List.cons.inj heq
      exact h cs hP rfl

theorem splitGap_dropReturns (s : GapState) (cs : List Char) (h : returnsEndLines cs = true) :
    splitGap s (dropReturns cs) = (dropReturns (splitGap s cs).1, dropReturns (splitGap s cs).2) := by
  have htail {c : Char} {cs : List Char} (h : returnsEndLines (c :: cs) = true) : returnsEndLines cs = true :=
    (Bool.and_eq_true_iff.mp h).2
  fun_induction splitGap s cs with
  | case1 cs gap rest hrest ih =>
    rw [hrest] at ih
    rw [dropReturns_cons (by decide), dropReturns_cons (by decide), splitGap, ih (htail (htail h))]
    rfl
  | case2 cs gap rest hrest ih =>
    rw [hrest] at ih
    rw [dropReturns_cons (by decide), dropReturns_cons (by decide), splitGap, ih (htail (htail h))]
    rfl
  | case3 c cs hline hblock hc gap rest hrest ih =>
    rw [hrest] at ih
    by_cases hreturn : c = '\r'
    · rw [hreturn, dropReturns_return, ih (htail h)]
      rfl
    · rw [dropReturns_cons hreturn, splitGap.eq_3 _ _ (noMark_dropReturns (by decide) (htail h) hline)
        (noMark_dropReturns (by decide) (htail h) hblock), if_pos hc, ih (htail h), dropReturns_cons hreturn]
  | case4 c cs hline hblock hc =>
    have hreturn : c ≠ '\r' := by
      rintro rfl
      exact hc (by decide)
    rw [dropReturns_cons hreturn, splitGap.eq_3 _ _ (noMark_dropReturns (by decide) (htail h) hline)
      (noMark_dropReturns (by decide) (htail h) hblock), if_neg hc, dropReturns]
    rfl
  | case5 c cs gap rest hrest ih =>
    rw [hrest] at ih
    by_cases hreturn : c = '\r'
    · subst hreturn
      exact ih (htail h)
    · rw [dropReturns_cons hreturn, splitGap, ih (htail h), dropReturns_cons hreturn]
  | case6 cs gap rest hrest ih =>
    rw [hrest] at ih
    rw [dropReturns_cons (by decide), dropReturns_cons (by decide), splitGap, ih (htail (htail h))]
    rfl
  | case7 c cs hclose gap rest hrest ih =>
    rw [hrest] at ih
    by_cases hreturn : c = '\r'
    · rw [hreturn, dropReturns_return, ih (htail h)]
      rfl
    · rw [dropReturns_cons hreturn, splitGap.eq_6 _ _ (noMark_dropReturns (by decide) (htail h) hclose), ih (htail h),
        dropReturns_cons hreturn]
  | case8 s => cases s <;> rfl

/-- A proper token stays what it is in front of a line end. -/
theorem lexeme_dropReturns {c : Char} {cs w rest : List Char} {k : TokenKind} (h : lexeme c (cs ++ rest) = ⟨k, w, rest⟩)
    (hk : k.isEnd = false) (hrest : returnsEndLines rest = true) :
    lexeme c (cs ++ dropReturns rest) = ⟨k, w, dropReturns rest⟩ := by
  cases rest with
  | nil => exact h
  | cons d ds =>
    by_cases hd : d = '\r'
    · subst hd
      have hcut : lexeme c cs = ⟨k, w, []⟩ := lexeme_cut h hk
      obtain ⟨es, hline⟩ := dropReturns_lineEnd hrest
      have happ := lexeme_append_stops (d := '\n') (by decide) cs es c (by rw [hcut]; exact hk)
      rw [hline, happ, hcut]
      rfl
    · rw [← List.singleton_append, ← List.append_assoc] at h
      have hcut : lexeme c (cs ++ [d]) = ⟨k, w, [d]⟩ := lexeme_cut h hk
      have hopen : (lexeme c (cs ++ [d])).rest ≠ [] := by simp [hcut]
      have hextend := lexeme_extend (dropReturns ds) hopen
      rw [dropReturns_cons hd, ← List.singleton_append, ← List.append_assoc, hextend, hcut]

/-- Tokens without carriage returns stay what they are in a text whose carriage returns end lines. -/
theorem apart_of_returnsEndLines {cs : List Char} {pos : Nat} (h : returnsEndLines cs = true)
    (htokens : ∀ t ∈ tokensFrom pos cs, '\r' ∉ t.text) (herrors : ∀ t ∈ tokensFrom pos cs, ∀ e, t.kind ≠ .error e) :
    Apart (tokensFrom pos cs) := by
  induction cs using token_induction generalizing pos with
  | atEnd cs gap hgap =>
    have hslim := splitGap_dropReturns .blank cs h
    rw [hgap] at hslim
    rw [← map_form_dropReturns_iff cs pos pos, tokensFrom_end hslim, tokensFrom_end hgap]
    rfl
  | cons cs gap c rest hgap ih =>
    have hslim := splitGap_dropReturns .blank cs h
    have hwhole := gap_lexeme_append hgap
    rw [hgap] at hslim
    rw [tokensFrom_cons hgap] at htokens herrors ⊢
    obtain ⟨hreturn, htokens⟩ := List.forall_mem_cons.mp htokens
    obtain ⟨hproper, herrors⟩ := List.forall_mem_cons.mp herrors
    have hrest : returnsEndLines (lexeme c rest).rest = true := by
      rw [← hwhole, ← List.append_assoc] at h
      exact returnsEndLines_right h
    have hapart := ih hrest htokens herrors
    have hkind : (lexeme c rest).kind.isEnd = false := by
      cases hk : (lexeme c rest).kind with
      | eof => exact absurd hk (lexeme_kind_ne_eof c rest)
      | error e => exact absurd hk (hproper e)
      | _ => rfl
    have happ := lexeme_append c rest
    obtain ⟨d, w, hw⟩ := List.exists_cons_of_ne_nil (lexeme_text_ne_nil c rest)
    have hleft : dropReturns (c :: rest) = (lexeme c rest).text ++ dropReturns (lexeme c rest).rest := by
      rw [← happ, dropReturns_append, dropReturns_eq_self hreturn]
    rw [← hwhole, dropReturns_append, happ, hleft] at hslim
    rw [hw, List.cons_append] at happ
    obtain ⟨rfl, hrests⟩ := List.cons.inj happ
    have hlexeme : lexeme d (w ++ (lexeme d rest).rest) =
        ⟨(lexeme d rest).kind, (lexeme d rest).text, (lexeme d rest).rest⟩ := by rw [hrests]
    refine ⟨hreturn, (standsBefore_next (lexeme_text_ne_nil d rest) hapart.head?).mp ?_, hapart⟩
    exact (Token.standsBefore_iff (lexeme_text_ne_nil d rest)).mpr
      ⟨hslim, d, w, hw, lexeme_dropReturns hlexeme hkind hrest⟩

end SchemaEditor
