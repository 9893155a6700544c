import SchemaEditor.Proofs.Sql.Lexing

/-!
# Tokens without what follows them

A scanner that leaves some of the text at its end would have taken the same without it: scanners look ahead to see
where a token ends, and the end of the text ends it too. So the tokens in front of any place between two tokens are
the tokens of the text up to there, and the text of a proper token is that token by itself.
-/

namespace SchemaEditor

/-! ## Scanners -/

/-- What the scanner leaves at the end of the text has no part in what it takes. -/
def Cuts (f : List Char → List Char × List Char) : Prop :=
  ∀ cs es rest, (f (cs ++ es)).2 = rest ++ es → f cs = ((f (cs ++ es)).1, rest)

/-- What leaves all of the text takes nothing of it. -/
theorem eq_nil_of_leaves {taken left es rest : List Char} (happ : taken ++ left = es) (h : left = rest ++ es) :
    taken = [] ∧ rest = [] := by
  subst h
  have hlen := congrArg List.length happ
  simp only [List.length_append] at hlen
  exact ⟨List.length_eq_zero_iff.mp (by omega), List.length_eq_zero_iff.mp (by omega)⟩

/-- At the end of the text there is nothing to take; elsewhere the first character is there with and without the rest. -/
theorem cuts_of_cons {f : List Char → List Char × List Char} (happ : ∀ cs, (f cs).1 ++ (f cs).2 = cs) (hnil : f [] = ([], []))
    (hcons : ∀ c cs es rest, (f (c :: (cs ++ es))).2 = rest ++ es → f (c :: cs) = ((f (c :: (cs ++ es))).1, rest)) :
    Cuts f := by
  intro cs es rest h
  cases cs with
  | nil =>
    obtain ⟨htaken, rfl⟩ := eq_nil_of_leaves (happ es) h
    rw [hnil, List.nil_append, htaken]
  | cons c cs => exact hcons c cs es rest h

theorem cuts_span (p : Char → Bool) : Cuts fun cs => (cs.takeWhile p, cs.dropWhile p) := by
  intro cs es rest h
  induction cs with
  | nil =>
    obtain ⟨htaken, rfl⟩ := eq_nil_of_leaves (List.takeWhile_append_dropWhile (p := p) (l := es)) h
    simpa using htaken.symm
  | cons c cs ih =>
    by_cases hc : p c = true
    · simp only [List.cons_append, List.takeWhile_cons, List.dropWhile_cons, hc, if_true] at h ⊢
      have hih := ih h
      simp only [Prod.mk.injEq] at hih ⊢
      exact ⟨by rw [hih.1], hih.2⟩
    · simp only [List.cons_append, List.takeWhile_cons, List.dropWhile_cons, hc] at h ⊢
      have hrest : c :: cs = rest := List.append_cancel_right h
      rw [← hrest]
      rfl

/-- One scanner after another. -/
theorem Cuts.seq {f g : List Char → List Char × List Char} (hf : Cuts f) (hg : Cuts g)
    (happ : ∀ cs, (g cs).1 ++ (g cs).2 = cs) :
    Cuts fun cs => ((f cs).1 ++ (g (f cs).2).1, (g (f cs).2).2) := by
  intro cs es rest h
  simp only at h ⊢
  have hmiddle : (f (cs ++ es)).2 = ((g (f (cs ++ es)).2).1 ++ rest) ++ es := by
    rw [List.append_assoc, ← h, happ]
  have hfirst := hf cs es _ hmiddle
  have hsecond := hg ((g (f (cs ++ es)).2).1 ++ rest) es rest (by rw [← hmiddle, h])
  rw [hfirst, hsecond, ← hmiddle]

theorem cuts_splitFraction : Cuts splitFraction := by
  refine cuts_of_cons splitFraction_append rfl fun c cs es rest h => ?_
  by_cases hc : c = '.'
  · subst hc
    have hspan := cuts_span Char.isDigit cs es rest h
    simp only [Prod.mk.injEq] at hspan
    simp only [splitFraction, Prod.mk.injEq]
    exact ⟨by rw [hspan.1], hspan.2⟩
  · have hplain (ds : List Char) : splitFraction (c :: ds) = ([], c :: ds) := by simp [splitFraction, hc]
    rw [hplain] at h ⊢
    rw [hplain, show rest = c :: cs from (List.append_cancel_right h).symm]

theorem cuts_splitSign : Cuts splitSign := by
  refine cuts_of_cons splitSign_append rfl fun c cs es rest h => ?_
  by_cases hc : c = '+' ∨ c = '-'
  · simp only [splitSign, if_pos hc] at h ⊢
    rw [List.append_cancel_right h]
  · simp only [splitSign, if_neg hc] at h ⊢
    rw [show rest = c :: cs from (List.append_cancel_right h).symm]

theorem cuts_splitExponent : Cuts splitExponent := by
  refine cuts_of_cons splitExponent_append rfl fun c cs es rest h => ?_
  by_cases hc : c = 'e' ∨ c = 'E'
  · have hseq := cuts_splitSign.seq (cuts_span Char.isDigit) (fun ds => List.takeWhile_append_dropWhile)
    simp only [splitExponent, if_pos hc] at h ⊢
    have hcut := hseq cs es rest h
    simp only [Prod.mk.injEq] at hcut ⊢
    exact ⟨by rw [List.cons_append, List.cons_append, hcut.1], hcut.2⟩
  · simp only [splitExponent, if_neg hc] at h ⊢
    rw [show rest = c :: cs from (List.append_cancel_right h).symm]

theorem cuts_splitDecimal : Cuts splitDecimal := by
  have hparts := (cuts_span Char.isDigit).seq (cuts_splitFraction.seq cuts_splitExponent splitExponent_append)
    fun cs => by rw [List.append_assoc, splitExponent_append, splitFraction_append]
  intro cs es rest h
  have heq (ds : List Char) : splitDecimal ds = (ds.takeWhile Char.isDigit ++ ((splitFraction (ds.dropWhile Char.isDigit)).1 ++
      (splitExponent (splitFraction (ds.dropWhile Char.isDigit)).2).1),
      (splitExponent (splitFraction (ds.dropWhile Char.isDigit)).2).2) := by
    rw [← List.append_assoc]
    rfl
  rw [heq] at h ⊢
  rw [heq]
  exact hparts cs es rest h

theorem cuts_splitNumber : Cuts splitNumber := by
  refine cuts_of_cons splitNumber_append rfl fun c cs es rest h => ?_
  have hdecimal := cuts_splitDecimal (c :: cs) es rest
  by_cases hc : c = '0'
  · subst hc
    have hplain : ∀ x ds, ¬(x = 'x' ∨ x = 'X') → splitNumber ('0' :: x :: ds) = splitDecimal ('0' :: x :: ds) :=
      fun x ds hx => by simp [splitNumber, hx]
    cases cs with
    | nil =>
      rw [show splitNumber ['0'] = splitDecimal ['0'] from rfl]
      cases es with
      | nil => exact hdecimal h
      | cons x es =>
        by_cases hx : x = 'x' ∨ x = 'X'
        · simp only [List.nil_append, splitNumber, if_pos hx] at h
          have hlen := (List.dropWhile_sublist (l := es) isHexDigit).length_le
          rw [h] at hlen
          simp only [List.length_append, List.length_cons] at hlen
          omega
        · rw [List.nil_append, hplain x es hx] at h ⊢
          exact hdecimal h
    | cons x cs =>
      by_cases hx : x = 'x' ∨ x = 'X'
      · simp only [List.cons_append, splitNumber, if_pos hx] at h ⊢
        have hspan := cuts_span isHexDigit cs es rest h
        simp only [Prod.mk.injEq] at hspan ⊢
        exact ⟨by rw [hspan.1], hspan.2⟩
      · rw [List.cons_append, hplain x _ hx] at h ⊢
        rw [hplain x _ hx]
        exact hdecimal h
  · have hplain : ∀ ds, splitNumber (c :: ds) = splitDecimal (c :: ds) := fun ds => by simp [splitNumber, hc]
    rw [hplain] at h ⊢
    rw [hplain]
    exact hdecimal h

theorem quotation_text_ne_nil {q : Char} {cs : List Char} (h : (quotation q cs).closed = true) :
    (quotation q cs).text ≠ [] := by
  fun_induction quotation q cs <;> simp_all

theorem quotation_cut (q : Char) {cs es rest : List Char} (hclosed : (quotation q (cs ++ es)).closed = true)
    (h : (quotation q (cs ++ es)).rest = rest ++ es) :
    quotation q cs = ⟨(quotation q (cs ++ es)).value, (quotation q (cs ++ es)).text, rest, true⟩ := by
  fun_induction quotation q cs generalizing rest with
  | case1 =>
    obtain ⟨htext, -⟩ := eq_nil_of_leaves (quotation_append q es) h
    exact absurd htext (quotation_text_ne_nil hclosed)
  | case2 =>
    cases es with
    | nil =>
      obtain rfl : rest = [] := by simpa [quotation] using h.symm
      simp [quotation]
    | cons d es =>
      by_cases hd : d = q
      · have happ := quotation_append q (q :: d :: es)
        have htext : ∃ us, (quotation q (q :: d :: es)).text = q :: d :: us := ⟨_, by simp [quotation, hd]; rfl⟩
        obtain ⟨us, hus⟩ := htext
        have hlen := congrArg List.length happ
        rw [List.singleton_append] at h
        rw [h, hus] at hlen
        simp only [List.length_append, List.length_cons] at hlen
        omega
      · have hstop : quotation q (q :: d :: es) = ⟨[], [q], d :: es, true⟩ := by simp [quotation, hd]
        rw [List.singleton_append, hstop] at h ⊢
        rw [List.append_left_eq_self.mp h.symm]
  | case3 c hc =>
    cases es with
    | nil => simp [quotation, hc] at hclosed
    | cons d es =>
      have hgo : quotation q (c :: d :: es) =
        ⟨c :: (quotation q (d :: es)).value, c :: (quotation q (d :: es)).text, (quotation q (d :: es)).rest,
          (quotation q (d :: es)).closed⟩ := by simp [quotation, hc]
      rw [List.singleton_append, hgo] at h hclosed
      obtain ⟨htext, -⟩ := eq_nil_of_leaves (quotation_append q (d :: es)) h
      exact absurd htext (quotation_text_ne_nil hclosed)
  | case4 cs _ =>
    rename_i ih
    have hgo : quotation q (q :: q :: (cs ++ es)) =
        ⟨q :: (quotation q (cs ++ es)).value, q :: q :: (quotation q (cs ++ es)).text,
      (quotation q (cs ++ es)).rest, (quotation q (cs ++ es)).closed⟩ := by simp [quotation]
    rw [List.cons_append, List.cons_append, hgo] at h hclosed ⊢
    show Quotation.mk (q :: (quotation q cs).value) (q :: q :: (quotation q cs).text) (quotation q cs).rest
      (quotation q cs).closed = _
    rw [ih hclosed h]
  | case5 d cs hd =>
    have hstop (ds : List Char) : quotation q (q :: d :: ds) = ⟨[], [q], d :: ds, true⟩ := by simp [quotation, hd]
    rw [List.cons_append, List.cons_append, hstop] at h ⊢
    rw [show rest = d :: cs from (List.append_cancel_right h).symm]
  | case6 c d cs hc _ =>
    rename_i ih
    have hgo : quotation q (c :: d :: (cs ++ es)) =
        ⟨c :: (quotation q (d :: (cs ++ es))).value, c :: (quotation q (d :: (cs ++ es))).text,
      (quotation q (d :: (cs ++ es))).rest, (quotation q (d :: (cs ++ es))).closed⟩ := by simp [quotation, hc]
    rw [List.cons_append, List.cons_append, hgo] at h hclosed ⊢
    show Quotation.mk (c :: (quotation q (d :: cs)).value) (c :: (quotation q (d :: cs)).text) (quotation q (d :: cs)).rest
      (quotation q (d :: cs)).closed = _
    rw [ih hclosed h, List.cons_append]

theorem blobBody_text_ne_nil {cs : List Char} (h : (blobBody cs).error? = none) : (blobBody cs).text ≠ [] := by
  fun_induction blobBody cs <;> simp_all

theorem blobBody_cut {cs es rest : List Char} (hok : (blobBody (cs ++ es)).error? = none)
    (h : (blobBody (cs ++ es)).rest = rest ++ es) :
    blobBody cs = ⟨(blobBody (cs ++ es)).bytes, (blobBody (cs ++ es)).text, rest, none⟩ := by
  have hnone {ds us : List Char} (hds : (blobBody ds).error? = none) : (blobBody ds).rest ≠ us ++ ds := by
    intro hrest
    exact blobBody_text_ne_nil hds (eq_nil_of_leaves (blobBody_append ds) hrest).1
  fun_induction blobBody cs generalizing rest with
  | case1 => exact absurd h (hnone hok)
  | case2 =>
    have hstop : blobBody ('\'' :: es) = ⟨[], ['\''], es, none⟩ := by cases es <;> simp [blobBody]
    rw [List.singleton_append, hstop] at h ⊢
    rw [List.append_left_eq_self.mp h.symm]
  | case3 c hc hhex =>
    cases es with
    | nil => simp [blobBody, hc, hhex] at hok
    | cons d es =>
      by_cases hd : isHexDigit d = true
      · have hgo : (blobBody (c :: d :: es)).rest = (blobBody es).rest := by simp [blobBody, hc, hhex, hd]
        have hlen := congrArg List.length (blobBody_append es)
        rw [List.singleton_append, hgo] at h
        rw [h] at hlen
        simp only [List.length_append, List.length_cons] at hlen
        omega
      · simp only [List.singleton_append, blobBody, if_neg hc, if_pos hhex, if_neg hd] at hok
        split at hok <;> cases hok
  | case4 c hc hhex =>
    cases es with
    | nil => simp [blobBody, hc, hhex] at hok
    | cons d es => simp [blobBody, hc, hhex] at hok
  | case5 d cs =>
    have hstop (ds : List Char) : blobBody ('\'' :: d :: ds) = ⟨[], ['\''], d :: ds, none⟩ := by simp [blobBody]
    rw [List.cons_append, List.cons_append, hstop] at h ⊢
    rw [show rest = d :: cs from (List.append_cancel_right h).symm]
  | case6 c d cs hc hhex hhex' _ =>
    rename_i ih
    have hgo : blobBody (c :: d :: (cs ++ es)) = ⟨UInt8.ofNat (hexValue c * 16 + hexValue d) :: (blobBody (cs ++ es)).bytes,
        c :: d :: (blobBody (cs ++ es)).text, (blobBody (cs ++ es)).rest, (blobBody (cs ++ es)).error?⟩ := by
      simp [blobBody, hc, hhex, hhex']
    rw [List.cons_append, List.cons_append, hgo] at h hok ⊢
    show BlobBody.mk (UInt8.ofNat (hexValue c * 16 + hexValue d) :: (blobBody cs).bytes) (c :: d :: (blobBody cs).text)
      (blobBody cs).rest
      (blobBody cs).error? = _
    rw [ih hok h]
  | case7 => simp_all [blobBody]
  | case8 => simp_all [blobBody]
  | case9 => simp_all [blobBody]

theorem bracketName_cut {cs es w rest : List Char} {k : TokenKind} (h : bracketName (cs ++ es) = ⟨k, w, rest ++ es⟩)
    (hk : k.isEnd = false) : bracketName cs = ⟨k, w, rest⟩ := by
  unfold bracketName at h ⊢
  cases hdrop : (cs ++ es).dropWhile (· != ']') with
  | nil =>
    rw [hdrop] at h
    obtain ⟨rfl, -⟩ := Lexeme.mk.inj h
    cases hk
  | cons c left =>
    rw [hdrop] at h
    obtain ⟨rfl, rfl, rfl⟩ := Lexeme.mk.inj h
    have hspan := cuts_span (· != ']') cs es (c :: rest) hdrop
    simp only [Prod.mk.injEq] at hspan
    rw [hspan.2, hspan.1]

theorem word_cut {cs es w rest : List Char} {k : TokenKind} (h : word (cs ++ es) = ⟨k, w, rest ++ es⟩) :
    word cs = ⟨k, w, rest⟩ := by
  obtain ⟨rfl, rfl, hrest⟩ := Lexeme.mk.inj h
  have hspan := cuts_span isWordChar cs es rest hrest
  simp only [Prod.mk.injEq] at hspan
  unfold word
  rw [hspan.1, hspan.2]

theorem operator_cut {c : Char} {cs es w rest : List Char} {k : TokenKind} (h : operator c (cs ++ es) = ⟨k, w, rest ++ es⟩) :
    operator c cs = ⟨k, w, rest⟩ := by
  cases cs with
  | nil =>
    cases hpair : es.head?.bind (pairKind? c) with
    | none =>
      rw [List.nil_append, operator_of_single hpair] at h
      obtain ⟨rfl, rfl, hrest⟩ := Lexeme.mk.inj h
      rw [operator_of_single rfl, List.append_left_eq_self.mp hrest.symm]
    | some k' =>
      obtain ⟨d, hd, hk'⟩ := Option.bind_eq_some_iff.mp hpair
      obtain ⟨es, rfl⟩ := List.head?_eq_some_iff.mp hd
      rw [List.nil_append, operator_of_pair hk'] at h
      obtain ⟨-, -, hrest⟩ := Lexeme.mk.inj h
      have hlen := congrArg List.length hrest
      simp only [List.length_append, List.length_cons] at hlen
      omega
  | cons d cs =>
    cases hpair : pairKind? c d with
    | none =>
      rw [List.cons_append, operator_of_single (by simpa using hpair)] at h
      obtain ⟨rfl, rfl, hrest⟩ := Lexeme.mk.inj h
      rw [operator_of_single (by simpa using hpair), show rest = d :: cs from (List.append_cancel_right hrest).symm]
    | some k' =>
      rw [List.cons_append, operator_of_pair hpair] at h
      obtain ⟨rfl, rfl, hrest⟩ := Lexeme.mk.inj h
      rw [operator_of_pair hpair, List.append_cancel_right hrest]

theorem stringLiteral_cut {cs es w rest : List Char} {k : TokenKind} (h : stringLiteral (cs ++ es) = ⟨k, w, rest ++ es⟩)
    (hk : k.isEnd = false) : stringLiteral cs = ⟨k, w, rest⟩ := by
  have hclosed : (quotation '\'' (cs ++ es)).closed = true := by simpa [h, hk] using (isEnd_stringLiteral (cs ++ es)).symm
  obtain ⟨rfl, rfl, hrest⟩ := Lexeme.mk.inj h
  simp only [stringLiteral, quotation_cut _ hclosed hrest, hclosed]

theorem quotedName_cut {q : Char} {cs es w rest : List Char} {k : TokenKind} (h : quotedName q (cs ++ es) = ⟨k, w, rest ++ es⟩)
    (hk : k.isEnd = false) : quotedName q cs = ⟨k, w, rest⟩ := by
  have hclosed : (quotation q (cs ++ es)).closed = true := by simpa [h, hk] using (isEnd_quotedName q (cs ++ es)).symm
  obtain ⟨rfl, rfl, hrest⟩ := Lexeme.mk.inj h
  simp only [quotedName, quotation_cut _ hclosed hrest, hclosed]

theorem blobLiteral_cut {x : Char} {cs es w rest : List Char} {k : TokenKind} (h : blobLiteral x (cs ++ es) = ⟨k, w, rest ++ es⟩)
    (hk : k.isEnd = false) : blobLiteral x cs = ⟨k, w, rest⟩ := by
  have hok : (blobBody (cs ++ es)).error? = none := by simpa [h, hk] using (isEnd_blobLiteral x (cs ++ es)).symm
  obtain ⟨rfl, rfl, hrest⟩ := Lexeme.mk.inj h
  simp only [blobLiteral, blobBody_cut hok hrest, hok]

theorem numberLiteral_cut {cs es w rest : List Char} {k : TokenKind} (h : numberLiteral (cs ++ es) = ⟨k, w, rest ++ es⟩) :
    numberLiteral cs = ⟨k, w, rest⟩ := by
  have hsplit (ds : List Char) : numberLiteral ds = ⟨.number, (splitNumber ds).1, (splitNumber ds).2⟩ := rfl
  rw [hsplit] at h ⊢
  obtain ⟨rfl, rfl, hrest⟩ := Lexeme.mk.inj h
  rw [cuts_splitNumber cs es rest hrest]

/-! ## Tokens -/

/-- A token of the first character alone. -/
theorem text_of_leaves {c : Char} {es w rest : List Char} {k : TokenKind} (h : lexeme c es = ⟨k, w, rest ++ es⟩) : w = [c] := by
  have happ := lexeme_append c es
  have hne := lexeme_text_ne_nil c es
  rw [h] at happ hne
  obtain ⟨a, us, rfl⟩ := List.exists_cons_of_ne_nil hne
  obtain ⟨rfl, htail⟩ := List.cons.inj happ
  rw [(eq_nil_of_leaves htail rfl).1]

theorem splitNumber_point {d : Char} (hd : d.isDigit = true) (cs : List Char) :
    ∃ us, (splitNumber ('.' :: d :: cs)).1 = '.' :: d :: us := by
  have hpoint : Char.isDigit '.' = false := by decide
  exact ⟨_, by simp [splitNumber, splitDecimal, splitFraction, hpoint, hd]; rfl⟩

section
variable {c : Char} {cs es w rest : List Char} {k : TokenKind} (h : lexeme c (cs ++ es) = ⟨k, w, rest ++ es⟩)
include h

/-- The character that decides on a blob is not behind the end of the token. -/
theorem startsBlob_cut :
    (c = 'x' ∨ c = 'X') ∧ (cs ++ es).head? = some '\'' ↔ (c = 'x' ∨ c = 'X') ∧ cs.head? = some '\'' := by
  cases cs with
  | cons d cs => rfl
  | nil =>
    refine iff_of_false (fun hx => ?_) (by simp)
    rw [List.nil_append] at h hx
    obtain ⟨es, rfl⟩ := List.head?_eq_some_iff.mp hx.2
    have hw := congrArg Lexeme.text h
    rw [text_of_leaves h] at hw
    rcases hx.1 with rfl | rfl <;> simp [lexeme, blobLiteral] at hw

/-- Nor is the one that decides on a number. -/
theorem startsNumber_cut : (c.isDigit = true ∨ c = '.' ∧ (cs ++ es).head?.any Char.isDigit = true) ↔
    (c.isDigit = true ∨ c = '.' ∧ cs.head?.any Char.isDigit = true) := by
  cases cs with
  | cons d cs => rfl
  | nil =>
    refine or_congr_right (iff_of_false (fun hx => ?_) (by simp))
    rw [List.nil_append] at h hx
    obtain ⟨rfl, hany⟩ := hx
    cases es with
    | nil => cases hany
    | cons d es =>
      have hd : d.isDigit = true := hany
      obtain ⟨us, hus⟩ := splitNumber_point hd es
      have hw := congrArg Lexeme.text h
      rw [text_of_leaves h] at hw
      simp [lexeme, numberLiteral, hd, hus] at hw

/-- A token that ends before the end of the text is the same if the text ends earlier. -/
theorem lexeme_cut (hk : k.isEnd = false) : lexeme c cs = ⟨k, w, rest⟩ := by
  have hblob := startsBlob_cut h
  have hnumber := startsNumber_cut h
  revert h
  refine lexeme_alike (P := fun l l' => l' = ⟨k, w, rest ++ es⟩ → l = ⟨k, w, rest⟩) hblob hnumber
    ?string ?quoted ?bracket ?blob ?number ?word ?operator
  case string => exact fun _ h => stringLiteral_cut h hk
  case quoted => exact fun _ h => quotedName_cut h hk
  case bracket => exact fun _ h => bracketName_cut h hk
  case blob =>
    intro _ hcs h
    obtain ⟨cs, rfl⟩ := List.head?_eq_some_iff.mp hcs
    exact blobLiteral_cut h hk
  case number => exact fun h => numberLiteral_cut h
  case word => exact fun h => word_cut h
  case operator => exact operator_cut

end

/-! ## Gaps -/

/-- A mark of two characters does not stand across the end if the scanner leaves what is behind the end. -/
theorem noMark_of_leaves {s : GapState} {cs es left rest : List Char} {b : Char} {P : Prop}
    (h : ∀ cs', P → cs = b :: cs' → False) (hmark : ∀ ds, P → cs = [] → es = b :: ds → left = (splitGap s ds).2)
    (hrest : left = rest ++ es) : ∀ ds, P → cs ++ es = b :: ds → False := by
  intro ds hP hds
  cases cs with
  | cons c cs =>
    obtain ⟨rfl, -⟩ := List.cons.inj hds
    exact h cs hP rfl
  | nil =>
    rw [List.nil_append] at hds
    have hlen := length_splitGap s ds
    rw [← hmark ds hP rfl hds, hrest, hds] at hlen
    simp only [List.length_append, List.length_cons] at hlen
    omega

theorem cuts_splitGap (s : GapState) : Cuts (splitGap s) := by
  intro cs es rest h
  fun_induction splitGap s cs generalizing rest with
  | case1 cs gap left hcs ih =>
    rw [hcs] at ih
    cases ih rest h
    rfl
  | case2 cs gap left hcs ih =>
    rw [hcs] at ih
    cases ih rest h
    rfl
  | case3 c cs hline hblock hc gap left hcs ih =>
    have hline := noMark_of_leaves hline (fun ds hP hcs hes => by rw [hP, hcs, hes]; rfl) h
    have hblock := noMark_of_leaves hblock (fun ds hP hcs hes => by rw [hP, hcs, hes]; rfl) h
    rw [List.cons_append, splitGap.eq_3 _ _ hline hblock, if_pos hc] at h ⊢
    rw [hcs] at ih
    cases ih rest h
    rfl
  | case4 c cs hline hblock hc =>
    have hline := noMark_of_leaves hline (fun ds hP hcs hes => by rw [hP, hcs, hes]; rfl) h
    have hblock := noMark_of_leaves hblock (fun ds hP hcs hes => by rw [hP, hcs, hes]; rfl) h
    rw [List.cons_append, splitGap.eq_3 _ _ hline hblock, if_neg hc] at h ⊢
    rw [← List.cons_append] at h
    rw [List.append_cancel_right h]
  | case5 c cs gap left hcs ih =>
    rw [hcs] at ih
    cases ih rest h
    rfl
  | case6 cs gap left hcs ih =>
    rw [hcs] at ih
    cases ih rest h
    rfl
  | case7 c cs hclose gap left hcs ih =>
    have hclose := noMark_of_leaves hclose (fun ds hP hcs hes => by rw [hP, hcs, hes]; rfl) h
    rw [List.cons_append, splitGap.eq_6 _ _ hclose] at h ⊢
    rw [hcs] at ih
    cases ih rest h
    rfl
  | case8 s =>
    obtain ⟨htaken, rfl⟩ := eq_nil_of_leaves (splitGap_append s es) h
    rw [List.nil_append, htaken]

/-- What follows a gap begins with no gap. -/
theorem splitGap_rest (s : GapState) (cs : List Char) : splitGap .blank (splitGap s cs).2 = ([], (splitGap s cs).2) := by
  fun_induction splitGap s cs with
  | case4 c cs hline hblock hc => rw [splitGap.eq_3 _ _ hline hblock, if_neg hc]
  | case8 => rfl
  | _ => simp_all

/-! ## Texts of tokens -/

/-- The tokens in front of a place between two tokens are the tokens of the text up to there. -/
theorem tokensFrom_cut {ts post : List Token} {cs es : List Char} {pos : Nat} (h : tokensFrom pos (cs ++ es) = ts ++ post)
    (hcs : ts.flatMap (fun t => t.gap ++ t.text) = cs) (hproper : ∀ t ∈ ts, t.kind.isEnd = false) :
    ∃ e, tokensFrom pos cs = ts ++ [e] ∧ e.gap = [] := by
  induction ts generalizing cs pos with
  | nil =>
    subst hcs
    exact ⟨_, tokensFrom_end rfl pos, rfl⟩
  | cons t ts ih =>
    obtain ⟨gap, c, left, hgap, rfl, hrest⟩ := tokensFrom_eq_cons h (hproper t List.mem_cons_self)
    have hwhole : gap ++ ((lexeme c left).text ++ (lexeme c left).rest) = cs ++ es := gap_lexeme_append hgap
    rw [List.flatMap_cons] at hcs
    have hleft : (lexeme c left).rest = ts.flatMap (fun t => t.gap ++ t.text) ++ es := by
      rw [← hcs] at hwhole
      simpa using hwhole
    obtain ⟨w, hw⟩ : ∃ w, (lexeme c left).text = c :: w := by
      obtain ⟨d, w, hd⟩ := List.exists_cons_of_ne_nil (lexeme_text_ne_nil c left)
      have happ := lexeme_append c left
      rw [hd] at happ
      exact ⟨w, by rw [hd, (List.cons.inj happ).1]⟩
    have happ := lexeme_append c left
    rw [hleft, hw] at happ
    have hlefts : left = (w ++ ts.flatMap fun t => t.gap ++ t.text) ++ es := by simpa using happ.symm
    have hcut : splitGap .blank cs = (gap, c :: (w ++ ts.flatMap fun t => t.gap ++ t.text)) := by
      have hcuts := cuts_splitGap .blank cs es (c :: (w ++ ts.flatMap fun t => t.gap ++ t.text))
      rw [hgap] at hcuts
      exact hcuts (by rw [hlefts]; rfl)
    have hlex : lexeme c (w ++ ts.flatMap fun t => t.gap ++ t.text) =
        ⟨(lexeme c left).kind, (lexeme c left).text, ts.flatMap fun t => t.gap ++ t.text⟩ := by
      have hlexeme : lexeme c ((w ++ ts.flatMap fun t => t.gap ++ t.text) ++ es) =
          ⟨(lexeme c left).kind, (lexeme c left).text, ts.flatMap (fun t => t.gap ++ t.text) ++ es⟩ := by
        rw [← hlefts, ← hleft]
      exact lexeme_cut hlexeme (hproper _ List.mem_cons_self)
    rw [hleft] at hrest
    obtain ⟨e, he, hegap⟩ := ih hrest rfl fun t ht => hproper t (List.mem_cons_of_mem _ ht)
    exact ⟨e, by rw [tokensFrom_cons hcut, hlex, he, List.cons_append], hegap⟩

/-- The tokens stand one after the other in some text. -/
def InRow (ts : List Token) : Prop := ∃ pos cs post, tokensFrom pos cs = ts ++ post

namespace InRow

variable {as bs : List Token}

theorem left (h : InRow (as ++ bs)) : InRow as := by
  obtain ⟨pos, cs, post, h⟩ := h
  exact ⟨pos, cs, bs ++ post, by rw [h, List.append_assoc]⟩

theorem nil : InRow [] := ⟨0, [], _, rfl⟩

theorem tail {t : Token} {ts : List Token} (h : InRow (t :: ts)) : InRow ts := by
  obtain ⟨pos, cs, post, h⟩ := h
  cases hgap : splitGap .blank cs with
  | mk gap rest =>
    cases rest with
    | nil =>
      rw [tokensFrom_end hgap] at h
      obtain ⟨-, hnil⟩ := List.cons.inj h
      rw [(List.append_eq_nil_iff.mp hnil.symm).1]
      exact nil
    | cons c rest =>
      rw [tokensFrom_cons hgap] at h
      exact ⟨_, _, post, (List.cons.inj h).2⟩

theorem right (h : InRow (as ++ bs)) : InRow bs := by
  induction as with
  | nil => exact h
  | cons a as ih => exact ih h.tail

end InRow

/-- The tokens without the gap in front of them. -/
def flush : List Token → List Token
  | [] => []
  | t :: ts => { t with gap := [] } :: ts

/-- The source of tokens that stand in a row has just these tokens. -/
theorem InRow.tokensFrom_source {ts : List Token} (h : InRow ts) (hproper : ∀ t ∈ ts, t.kind.isEnd = false) :
    ∃ pos e, tokensFrom pos (Token.source ts) = flush ts ++ [e] ∧ e.gap = [] := by
  obtain ⟨pos, cs, post, h⟩ := h
  cases ts with
  | nil => exact ⟨0, _, tokensFrom_end rfl 0, rfl⟩
  | cons t ts =>
    obtain ⟨gap, c, left, hgap, ht, hrest⟩ := tokensFrom_eq_cons h (hproper t List.mem_cons_self)
    -- Without the gap the text begins with the first token.
    have hstart : splitGap .blank (c :: left) = ([], c :: left) := by
      have hleft := splitGap_rest .blank cs
      rwa [hgap] at hleft
    have hflush : SchemaEditor.tokensFrom (pos + byteLength gap) (c :: left) = flush (t :: ts) ++ post := by
      rw [tokensFrom_cons hstart]
      simpa [flush, byteLength, ht] using hrest
    have hflat : (flush (t :: ts)).flatMap (fun t => t.gap ++ t.text) = Token.source (t :: ts) := rfl
    have htext : c :: left = Token.source (t :: ts) ++ post.flatMap fun t => t.gap ++ t.text := by
      rw [← flatMap_tokensFrom (c :: left) (pos + byteLength gap), hflush, List.flatMap_append, hflat]
    rw [htext] at hflush
    obtain ⟨e, he, hegap⟩ := tokensFrom_cut hflush hflat (by simpa [flush] using hproper)
    exact ⟨_, e, he, hegap⟩

end SchemaEditor
