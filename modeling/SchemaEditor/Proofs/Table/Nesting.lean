import SchemaEditor.Proofs.Sql.Truncation
import SchemaEditor.Proofs.Table.Expressions

/-!
# Parentheses in a text

A scan of single characters tells which parentheses of a text count: those outside of quotations. It refuses comments.
Over the text of one token it counts as the readers of tokens do, so it finds the parenthesis behind a compact
expression, and every way to cut a text into tokens leads to the same one.
-/

namespace SchemaEditor

/-! ## A scan of single characters -/

/-- Where the scan is: before the mark that closes a quotation, if it is inside of one, under so many parentheses, and
behind a character. -/
structure Nesting where
  quote? : Option Char
  depth : Nat
  last? : Option Char

/-- The mark that closes what the character opens. -/
def closingMark? : Char → Option Char
  | '\'' => some '\''
  | '"' => some '"'
  | '\x60' => some '\x60'
  | '[' => some ']'
  | _ => none

/-- Whether a comment begins with the two characters. -/
def beginsComment (a b : Char) : Bool := a == '-' && b == '-' || a == '/' && b == '*'

namespace Nesting

def depthBehind (depth : Nat) (c : Char) : Nat :=
  if c = '(' then depth + 1 else if c = ')' then depth - 1 else depth

/-- The place behind the next character, unless a comment begins with it. -/
def next? (n : Nesting) (c : Char) : Option Nesting :=
  match n.quote? with
  | some q => some ⟨if c = q then none else some q, n.depth, some c⟩
  | none => if n.last?.any (beginsComment · c) then none else some ⟨closingMark? c, depthBehind n.depth c, some c⟩

/-- What stands before and behind the first closing parenthesis that has no opening one. -/
def closing? : Nesting → List Char → Option (List Char × List Char)
  | _, [] => none
  | n, c :: cs =>
    if n.quote? = none ∧ n.depth = 0 ∧ c = ')' then some ([], cs)
    else (n.next? c).bind fun m => (closing? m cs).map fun p => (c :: p.1, p.2)

/-- The scan goes from one place to the other over `w`. -/
def Passes (n : Nesting) (w : List Char) (m : Nesting) : Prop :=
  ∀ rest, n.closing? (w ++ rest) = (m.closing? rest).map fun p => (w ++ p.1, p.2)

variable {n m k : Nesting} {d : Nat} {l : Option Char}

theorem passes_nil (n : Nesting) : n.Passes [] n := by
  intro rest
  cases h : n.closing? rest with
  | none => simp [h]
  | some p => simp [h]

theorem Passes.append {v w : List Char} (hv : n.Passes v m) (hw : m.Passes w k) : n.Passes (v ++ w) k := by
  intro rest
  rw [List.append_assoc, hv, hw, Option.map_map]
  simp [Function.comp_def]

theorem passes_char {c : Char} (hnext : n.next? c = some m) (hopen : ¬(n.quote? = none ∧ n.depth = 0 ∧ c = ')')) :
    n.Passes [c] m := by
  intro rest
  rw [List.singleton_append, closing?, if_neg hopen, hnext]
  rfl

/-- The last character up to the end of `w`. -/
def lastOf (l : Option Char) (w : List Char) : Option Char := w.foldl (fun _ c => some c) l

theorem lastOf_append (l : Option Char) (v w : List Char) : lastOf l (v ++ w) = lastOf (lastOf l v) w := List.foldl_append

theorem lastOf_of_ne_nil (l : Option Char) {w : List Char} (h : w ≠ []) : lastOf l w = w.getLast? := by
  obtain ⟨v, c, rfl⟩ := (List.eq_nil_or_concat w).resolve_left h
  rw [List.concat_eq_append, lastOf_append, List.getLast?_append]
  rfl

/-! ## Quotations -/

theorem passes_open {c q : Char} (h : closingMark? c = some q) : (Nesting.mk none d l).Passes [c] ⟨some q, d, some c⟩ := by
  have hc : c ≠ '-' ∧ c ≠ '*' ∧ c ≠ '(' ∧ c ≠ ')' := by
    refine ⟨?_, ?_, ?_, ?_⟩ <;> rintro rfl <;> cases h
  refine passes_char ?_ (by simp [hc])
  cases l <;> simp [next?, depthBehind, beginsComment, h, hc]

theorem passes_close (q : Char) : (Nesting.mk (some q) d l).Passes [q] ⟨none, d, some q⟩ :=
  passes_char (by simp [next?]) (by simp)

theorem passes_inside {q c : Char} (hc : c ≠ q) : (Nesting.mk (some q) d l).Passes [c] ⟨some q, d, some c⟩ :=
  passes_char (by simp [next?, hc]) (by simp)

theorem passes_quotation {q : Char} (hq : closingMark? q = some q) {cs : List Char} (hclosed : (quotation q cs).closed = true) :
    (Nesting.mk (some q) d l).Passes (quotation q cs).text ⟨none, d, lastOf l (quotation q cs).text⟩ := by
  fun_induction quotation q cs generalizing l with
  | case1 => cases hclosed
  | case2 => exact passes_close q
  | case3 => cases hclosed
  | case4 cs _ =>
    rename_i ih
    -- A doubled mark closes the quotation and opens it again.
    exact ((passes_close q).append (passes_open hq)).append (ih hclosed)
  | case5 => exact passes_close q
  | case6 c e cs hc _ =>
    rename_i ih
    exact (passes_inside hc).append (ih hclosed)

theorem passes_bracket {w : List Char} (hw : ∀ c ∈ w, c ≠ ']') :
    (Nesting.mk (some ']') d l).Passes (w ++ [']']) ⟨none, d, some ']'⟩ := by
  induction w generalizing l with
  | nil => exact passes_close ']'
  | cons c w ih =>
    exact (passes_inside (hw c List.mem_cons_self)).append (ih fun x hx => hw x (List.mem_cons_of_mem c hx))

theorem passes_blobBody {cs : List Char} (hok : (blobBody cs).error? = none) :
    (Nesting.mk (some '\'') d l).Passes (blobBody cs).text ⟨none, d, lastOf l (blobBody cs).text⟩ := by
  have hhex {c : Char} (hc : isHexDigit c = true) : c ≠ '\'' := by
    rintro rfl
    exact absurd hc (by decide)
  fun_induction blobBody cs generalizing l with
  | case2 => exact passes_close '\''
  | case5 => exact passes_close '\''
  | case6 c e cs hc hhexc hhexe _ =>
    rename_i ih
    exact ((passes_inside (hhex hhexc)).append (passes_inside (hhex hhexe))).append (ih hok)
  | _ => cases hok

/-! ## Text outside of quotations -/

/-- The character has no part in quotations, parentheses and comments, but for a hyphen or slash in front of it. -/
def isQuiet (c : Char) : Bool :=
  (closingMark? c).isNone && c != '(' && c != ')' && c != '-' && c != '*'

theorem passes_next {c : Char} (hmark : l.any (beginsComment · c) = false) (hc : closingMark? c = none) (hopen : c ≠ '(')
    (hclose : c ≠ ')') : (Nesting.mk none d l).Passes [c] ⟨none, d, some c⟩ := by
  refine passes_char ?_ (by simp [hclose])
  simp [next?, hmark, hc, depthBehind, hopen, hclose]

theorem passes_quiet {w : List Char} (hw : ∀ c ∈ w, isQuiet c = true) :
    (Nesting.mk none d l).Passes w ⟨none, d, lastOf l w⟩ := by
  induction w generalizing l with
  | nil => exact passes_nil _
  | cons c w ih =>
    have hc := hw c List.mem_cons_self
    simp only [isQuiet, Bool.and_eq_true, bne_iff_ne, Option.isNone_iff_eq_none] at hc
    obtain ⟨⟨⟨⟨hmark, hopen⟩, hclose⟩, hminus⟩, hstar⟩ := hc
    have hcomment : l.any (beginsComment · c) = false := by cases l <;> simp [beginsComment, hminus, hstar]
    exact (passes_next hcomment hmark hopen hclose).append (ih fun x hx => hw x (List.mem_cons_of_mem c hx))

theorem isQuiet_of {p : Char → Bool} (hp : [ '\'', '"', '\x60', '[', '(', ')', '-', '*'].all (fun c => !p c) = true) {c : Char}
    (hc : p c = true) : isQuiet c = true := by
  have hne : ∀ x ∈ [ '\'', '"', '\x60', '[', '(', ')', '-', '*'], c ≠ x := by
    rintro x hx rfl
    have hnot := List.all_eq_true.mp hp c hx
    simp [hc] at hnot
  have hmark : closingMark? c = none := by
    unfold closingMark?
    split <;> simp_all
  simp [isQuiet, hmark, hne]

theorem isQuiet_takeWhile {p : Char → Bool} (hp : [ '\'', '"', '\x60', '[', '(', ')', '-', '*'].all (fun c => !p c) = true)
    (cs : List Char) : ∀ c ∈ cs.takeWhile p, isQuiet c = true :=
  fun _ hc => isQuiet_of hp (List.mem_takeWhile_imp hc)

theorem passes_splitFraction (cs : List Char) :
    (Nesting.mk none d l).Passes (splitFraction cs).1 ⟨none, d, lastOf l (splitFraction cs).1⟩ := by
  refine passes_quiet ?_
  unfold splitFraction
  split
  · refine List.forall_mem_cons.mpr ⟨by decide, isQuiet_takeWhile (by decide) _⟩
  · simp

/-- The sign of an exponent stands behind its mark, so it makes no comment. -/
theorem passes_splitExponent (cs : List Char) :
    (Nesting.mk none d l).Passes (splitExponent cs).1 ⟨none, d, lastOf l (splitExponent cs).1⟩ := by
  have hdigits (l : Option Char) (ds : List Char) : (Nesting.mk none d l).Passes (ds.takeWhile Char.isDigit)
      ⟨none, d, lastOf l (ds.takeWhile Char.isDigit)⟩ := passes_quiet (isQuiet_takeWhile (by decide) ds)
  cases cs with
  | nil => exact passes_nil _
  | cons c cs =>
    by_cases hc : c = 'e' ∨ c = 'E'
    · have hquiet : isQuiet c = true := by rcases hc with rfl | rfl <;> decide
      have hmark : (Nesting.mk none d l).Passes [c] ⟨none, d, some c⟩ := passes_quiet (by simpa using hquiet)
      have hsign : (Nesting.mk none d (some c)).Passes (splitSign cs).1 ⟨none, d, lastOf (some c) (splitSign cs).1⟩ := by
        cases cs with
        | nil => exact passes_nil _
        | cons s cs =>
          by_cases hs : s = '+' ∨ s = '-'
          · rw [splitSign, if_pos hs]
            have hcomment : (some c).any (beginsComment · s) = false := by
              rcases hc with rfl | rfl <;> rcases hs with rfl | rfl <;> decide
            refine passes_next hcomment ?_ ?_ ?_ <;> rcases hs with rfl | rfl <;> decide
          · rw [splitSign, if_neg hs]
            exact passes_nil _
      rw [splitExponent, if_pos hc]
      have happ := (hmark.append hsign).append (hdigits _ (splitSign cs).2)
      rwa [← lastOf_append] at happ
    · rw [splitExponent, if_neg hc]
      exact passes_nil _

theorem passes_splitDecimal (cs : List Char) :
    (Nesting.mk none d l).Passes (splitDecimal cs).1 ⟨none, d, lastOf l (splitDecimal cs).1⟩ := by
  have hdigits : (Nesting.mk none d l).Passes (cs.takeWhile Char.isDigit) ⟨none, d, lastOf l (cs.takeWhile Char.isDigit)⟩ :=
    passes_quiet (isQuiet_takeWhile (by decide) cs)
  have happ := (hdigits.append (passes_splitFraction (cs.dropWhile Char.isDigit))).append
    (passes_splitExponent (splitFraction (cs.dropWhile Char.isDigit)).2)
  rwa [← lastOf_append, ← lastOf_append, ← List.append_assoc] at happ

theorem passes_splitNumber (cs : List Char) :
    (Nesting.mk none d l).Passes (splitNumber cs).1 ⟨none, d, lastOf l (splitNumber cs).1⟩ := by
  unfold splitNumber
  split
  · split
    · next hx =>
      refine passes_quiet (List.forall_mem_cons.mpr ⟨by decide, List.forall_mem_cons.mpr ⟨?_, isQuiet_takeWhile (by decide) _⟩⟩)
      rcases hx with rfl | rfl <;> decide
    · exact passes_splitDecimal _
  · exact passes_splitDecimal _

/-! ## Tokens -/

theorem quiet_of_pairKind? {a b : Char} {k : TokenKind} (h : pairKind? a b = some k) :
    isQuiet a = true ∧ isQuiet b = true ∧ ∀ d, Reader.depthAfter d k = d := by
  unfold pairKind? at h
  split at h <;> cases h <;> exact ⟨by decide, by decide, fun _ => rfl⟩

theorem depthAfter_of_singleKind? {c : Char} {k : TokenKind} (h : singleKind? c = some k) :
    closingMark? c = none ∧ (c = ')' ↔ k = .rightParen) ∧ ∀ d, Reader.depthAfter d k = depthBehind d c := by
  unfold singleKind? at h
  split at h <;> cases h <;> exact ⟨by decide, by decide, fun _ => rfl⟩

theorem passes_operator {c : Char} {cs : List Char} (hk : (operator c cs).kind.isEnd = false)
    (hmark : l.any (beginsComment · c) = false) (hclose : ¬(d = 0 ∧ (operator c cs).kind = .rightParen)) :
    (Nesting.mk none d l).Passes (operator c cs).text
      ⟨none, Reader.depthAfter d (operator c cs).kind, lastOf l (operator c cs).text⟩ := by
  cases hpair : cs.head?.bind (pairKind? c) with
  | some k =>
    obtain ⟨e, he, hk'⟩ := Option.bind_eq_some_iff.mp hpair
    obtain ⟨cs, rfl⟩ := List.head?_eq_some_iff.mp he
    obtain ⟨hc, he, hdepth⟩ := quiet_of_pairKind? hk'
    rw [operator_of_pair hk', hdepth]
    exact passes_quiet (by simp [hc, he])
  | none =>
    rw [operator_of_single hpair] at hk hclose ⊢
    cases hsingle : singleKind? c with
    | none =>
      rw [hsingle] at hk
      cases hk
    | some k =>
      obtain ⟨hquote, hparen, hdepth⟩ := depthAfter_of_singleKind? hsingle
      rw [hsingle, Option.getD_some, ← hparen] at hclose
      rw [Option.getD_some, hdepth]
      refine passes_char ?_ (by simpa using hclose)
      simp [next?, hmark, hquote, lastOf]

theorem passes_bracketName {cs : List Char} (hk : (bracketName cs).kind.isEnd = false) :
    (Nesting.mk none d l).Passes (bracketName cs).text
      ⟨none, Reader.depthAfter d (bracketName cs).kind, lastOf l (bracketName cs).text⟩ := by
  unfold bracketName at hk ⊢
  cases hrest : cs.dropWhile (· != ']') with
  | nil =>
    rw [hrest] at hk
    cases hk
  | cons c rest =>
    have hc : c = ']' := by
      have hstop := List.head?_dropWhile_not (· != ']') cs
      rw [hrest] at hstop
      simpa using hstop
    subst hc
    have hname : ∀ x ∈ cs.takeWhile (· != ']'), x ≠ ']' := fun x hx => by simpa using List.mem_takeWhile_imp hx
    have happ := (passes_open (d := d) (l := l) (c := '[') rfl).append (passes_bracket hname)
    rw [show lastOf l ('[' :: cs.takeWhile (· != ']') ++ [']']) = some ']' by rw [lastOf_append]; rfl]
    exact happ

theorem passes_word (cs : List Char) :
    (Nesting.mk none d l).Passes (word cs).text ⟨none, Reader.depthAfter d (word cs).kind, lastOf l (word cs).text⟩ := by
  have hdepth : Reader.depthAfter d (word cs).kind = d := by
    unfold word
    simp only
    split <;> rfl
  rw [hdepth]
  exact passes_quiet (isQuiet_takeWhile (by decide) cs)

/-- Over the text of a token the scan counts parentheses as the readers do. -/
theorem passes_lexeme {c : Char} {cs : List Char} (hk : (lexeme c cs).kind.isEnd = false)
    (hmark : l.any (beginsComment · c) = false) (hclose : ¬(d = 0 ∧ (lexeme c cs).kind = .rightParen)) :
    (Nesting.mk none d l).Passes (lexeme c cs).text
      ⟨none, Reader.depthAfter d (lexeme c cs).kind, lastOf l (lexeme c cs).text⟩ := by
  revert hk hclose
  refine lexeme_alike (P := fun x _ => x.kind.isEnd = false → ¬(d = 0 ∧ x.kind = .rightParen) →
      (Nesting.mk none d l).Passes x.text ⟨none, Reader.depthAfter d x.kind, lastOf l x.text⟩) Iff.rfl Iff.rfl
    ?string ?quoted ?bracket ?blob ?number ?word ?operator
  case string =>
    intro _ hk _
    have hclosed : (quotation '\'' cs).closed = true := by simpa [isEnd_stringLiteral] using hk
    have hkind : (stringLiteral cs).kind = .string (String.ofList (quotation '\'' cs).value) := by simp [stringLiteral, hclosed]
    rw [hkind]
    exact (passes_open (c := '\'') rfl).append (passes_quotation rfl hclosed)
  case quoted =>
    intro hc hk _
    have hclosed : (quotation c cs).closed = true := by simpa [isEnd_quotedName] using hk
    have hkind : (quotedName c cs).kind = .identifier (String.ofList (quotation c cs).value) := by simp [quotedName, hclosed]
    have hquote : closingMark? c = some c := by rcases hc with rfl | rfl <;> rfl
    rw [hkind]
    exact (passes_open hquote).append (passes_quotation hquote hclosed)
  case bracket => exact fun _ hk _ => passes_bracketName hk
  case blob =>
    intro hc _ hk _
    have hok : (blobBody cs.tail).error? = none := by simpa [isEnd_blobLiteral] using hk
    have hkind : (blobLiteral c cs.tail).kind = .blob (blobBody cs.tail).bytes := by simp [blobLiteral, hok]
    have hx : (Nesting.mk none d l).Passes [c] ⟨none, d, some c⟩ := by
      refine passes_quiet (w := [c]) (List.forall_mem_singleton.mpr ?_)
      rcases hc with rfl | rfl <;> decide
    rw [hkind]
    exact (hx.append (passes_open (c := '\'') rfl)).append (passes_blobBody hok)
  case number => exact fun _ _ => passes_splitNumber _
  case word => exact fun _ _ => passes_word _
  case operator => exact fun hk hclose => passes_operator hk hmark hclose

end Nesting

/-! ## Compact text -/

/-- The text of the token is what the lexer takes from the front of some text. -/
def Token.IsLexeme (t : Token) : Prop := ∃ c cs, t.kind = (lexeme c cs).kind ∧ t.text = (lexeme c cs).text

theorem isLexeme_of_inRow {ts : List Token} (h : InRow ts) (hproper : ∀ t ∈ ts, t.kind.isEnd = false) :
    ∀ t ∈ ts, t.IsLexeme := by
  induction ts with
  | nil => simp
  | cons t ts ih =>
    refine List.forall_mem_cons.mpr ⟨?_, ih h.tail fun u hu => hproper u (List.mem_cons_of_mem t hu)⟩
    obtain ⟨pos, cs, post, hrow⟩ := h
    obtain ⟨gap, c, rest, -, rfl, -⟩ := tokensFrom_eq_cons hrow (hproper t List.mem_cons_self)
    exact ⟨c, rest, rfl, rfl⟩

theorem head?_lexeme_text (c : Char) (cs : List Char) : (lexeme c cs).text.head? = some c := by
  obtain ⟨d, w, hd⟩ := List.exists_cons_of_ne_nil (lexeme_text_ne_nil c cs)
  have happ := lexeme_append c cs
  rw [hd] at happ ⊢
  rw [(List.cons.inj happ).1, List.head?_cons]

/-- Kinds of which every token is the one same character. -/
def TokenKind.isSingle : TokenKind → Bool
  | .leftParen | .rightParen | .plus | .minus => true
  | _ => false

theorem isSingle_of_pairKind? {a b : Char} {k : TokenKind} (h : pairKind? a b = some k) : TokenKind.isSingle k = false := by
  unfold pairKind? at h
  split at h <;> cases h <;> rfl

theorem operator_single {c : Char} {cs : List Char} (h : TokenKind.isSingle (operator c cs).kind = true) :
    singleKind? c = some (operator c cs).kind ∧ (operator c cs).text = [c] ∧ (operator c cs).rest = cs := by
  cases hpair : cs.head?.bind (pairKind? c) with
  | some k =>
    obtain ⟨e, he, hk⟩ := Option.bind_eq_some_iff.mp hpair
    obtain ⟨cs, rfl⟩ := List.head?_eq_some_iff.mp he
    rw [operator_of_pair hk, isSingle_of_pairKind? hk] at h
    cases h
  | none =>
    rw [operator_of_single hpair] at h ⊢
    refine ⟨?_, rfl, rfl⟩
    cases hsingle : singleKind? c with
    | some k => rfl
    | none =>
      rw [hsingle] at h
      cases h

theorem lexeme_single {c : Char} {cs : List Char} (h : TokenKind.isSingle (lexeme c cs).kind = true) :
    singleKind? c = some (lexeme c cs).kind ∧ (lexeme c cs).text = [c] ∧ (lexeme c cs).rest = cs := by
  have hliteral {k : TokenKind} (hk : TokenKind.isSingle k = true) : k.isEnd = false ∧ k.isWordLike = false := by
    cases k <;> first | exact ⟨rfl, rfl⟩ | cases hk
  have hoperator : lexeme c cs = operator c cs := lexeme_eq_operator (hliteral h).1 (hliteral h).2
  rw [hoperator] at h ⊢
  exact operator_single h

theorem Token.IsLexeme.single {t : Token} (ht : t.IsLexeme) (hk : TokenKind.isSingle t.kind = true) :
    ∃ c, singleKind? c = some t.kind ∧ t.text = [c] := by
  obtain ⟨c, cs, hkind, htext⟩ := ht
  rw [hkind] at hk ⊢
  obtain ⟨hsingle, hchar, -⟩ := lexeme_single hk
  exact ⟨c, hsingle, htext.trans hchar⟩

namespace Reader

theorem depthThrough_cons {t : Token} {ts : List Token} {d e : Nat} (h : depthThrough d (t :: ts) = some e) :
    t.kind.isEnd = false ∧ ¬(d = 0 ∧ t.kind = .rightParen) ∧ depthThrough (depthAfter d t.kind) ts = some e := by
  rw [depthThrough] at h
  split at h
  · cases h
  · next hstop =>
    simp only [Bool.or_eq_true, Bool.and_eq_true, beq_iff_eq, not_or, Bool.not_eq_true] at hstop
    exact ⟨hstop.1, hstop.2, h⟩

end Reader

namespace Nesting

variable {d : Nat} {l : Option Char}

theorem passes_token {t : Token} (ht : t.IsLexeme) (hk : t.kind.isEnd = false) (hclose : ¬(d = 0 ∧ t.kind = .rightParen))
    (hmark : ∀ c ∈ t.text.head?, l.any (beginsComment · c) = false) :
    (Nesting.mk none d l).Passes t.text ⟨none, Reader.depthAfter d t.kind, lastOf l t.text⟩ := by
  obtain ⟨c, cs, hkind, htext⟩ := ht
  rw [hkind] at hk hclose ⊢
  rw [htext, head?_lexeme_text] at hmark
  rw [htext]
  exact passes_lexeme hk (hmark c rfl) hclose

theorem passes_blank {g : List Char} (hg : ∀ c ∈ g, Text.isBlank c = true) :
    (Nesting.mk none d l).Passes g ⟨none, d, lastOf l g⟩ :=
  passes_quiet fun c hc => isQuiet_of (by decide) (hg c hc)

theorem head?_compact (t : Token) (ts : List Token) (ht : t.text ≠ []) : (Reader.compact (t :: ts)).head? = t.text.head? := by
  obtain ⟨c, w, hw⟩ := List.exists_cons_of_ne_nil ht
  cases ts <;> simp [Reader.compact, hw]

theorem text_ne_nil_of_isLexeme {t : Token} (ht : t.IsLexeme) : t.text ≠ [] := by
  obtain ⟨c, cs, -, htext⟩ := ht
  rw [htext]
  exact lexeme_text_ne_nil c cs

/-- No comment begins with a blank. -/
theorem not_beginsComment_blank {g : List Char} (hg : ∀ c ∈ g, Text.isBlank c = true) (c : Char) :
    (lastOf none g).any (beginsComment · c) = false := by
  by_cases hnil : g = []
  · rw [hnil]
    rfl
  · rw [lastOf_of_ne_nil none hnil]
    cases hlast : g.getLast? with
    | none => rfl
    | some e =>
      have hblank := hg e (List.mem_of_getLast? hlast)
      have hminus : e ≠ '-' := by rintro rfl; exact absurd hblank (by decide)
      have hslash : e ≠ '/' := by rintro rfl; exact absurd hblank (by decide)
      simp [beginsComment, hminus, hslash]

/-- Between two tokens that need no blank no comment begins. -/
theorem not_beginsComment {a b : Token} (h : Reader.needsBlank a b = false) {c : Char} (hc : c ∈ b.text.head?) :
    a.text.getLast?.any (beginsComment · c) = false := by
  simp only [Reader.needsBlank, Bool.or_eq_false_iff, Bool.and_eq_false_imp, beq_iff_eq] at h
  obtain ⟨⟨-, hhyphen⟩, hslash⟩ := h
  rw [Option.mem_def] at hc
  rw [hc] at hhyphen hslash
  cases hlast : a.text.getLast? with
  | none => rfl
  | some e =>
    rw [hlast] at hhyphen hslash
    simp_all [beginsComment]

/-- Over a compact expression the scan counts the parentheses of its tokens, and no more. -/
theorem passes_compact {ts : List Token} (hts : ∀ t ∈ ts, t.IsLexeme) {e : Nat} (hdepth : depthThrough d ts = some e)
    (hmark : ∀ c ∈ (Reader.compact ts).head?, l.any (beginsComment · c) = false) :
    (Nesting.mk none d l).Passes (Reader.compact ts) ⟨none, e, lastOf l (Reader.compact ts)⟩ := by
  fun_induction Reader.compact ts generalizing d l with
  | case1 =>
    cases hdepth
    exact passes_nil _
  | case2 t =>
    obtain ⟨hk, hclose, hrest⟩ := Reader.depthThrough_cons hdepth
    cases hrest
    exact passes_token (hts t List.mem_cons_self) hk hclose hmark
  | case3 a b ts ih =>
    obtain ⟨hk, hclose, hrest⟩ := Reader.depthThrough_cons hdepth
    have ha := hts a List.mem_cons_self
    have hb := text_ne_nil_of_isLexeme (hts b (by simp))
    have hne := text_ne_nil_of_isLexeme ha
    have hfirst := passes_token (d := d) (l := l) ha hk hclose fun c hc => hmark c (by
      obtain ⟨x, w, hw⟩ := List.exists_cons_of_ne_nil hne
      simpa [hw] using hc)
    have hih := fun l hl => ih (d := Reader.depthAfter d a.kind) (l := l) (fun t ht => hts t (List.mem_cons_of_mem a ht)) hrest hl
    rw [head?_compact b ts hb] at hih
    by_cases hblank : Reader.needsBlank a b = true
    · rw [if_pos hblank, lastOf_append, lastOf_append]
      exact (hfirst.append (passes_blank isBlank_space)).append (hih _ (by simp [lastOf, beginsComment]))
    · rw [if_neg hblank, List.append_nil, lastOf_append]
      refine hfirst.append (hih _ fun c hc => ?_)
      rw [lastOf_of_ne_nil l hne]
      exact not_beginsComment (by simpa using hblank) hc

/-- The scan finds the parenthesis that is put behind a compact expression. -/
theorem closing?_compact {ts : List Token} (hts : ∀ t ∈ ts, t.IsLexeme) (hdepth : Enclosed ts) {g : List Char}
    (hg : ∀ c ∈ g, Text.isBlank c = true) (rest : List Char) :
    closing? ⟨none, 0, none⟩ (g ++ (Reader.compact ts ++ ')' :: rest)) = some (g ++ Reader.compact ts, rest) := by
  have hmark : ∀ c ∈ (Reader.compact ts).head?, (lastOf none g).any (beginsComment · c) = false :=
    fun c _ => not_beginsComment_blank hg c
  rw [← List.append_assoc, ((passes_blank hg).append (passes_compact hts hdepth hmark)) (')' :: rest)]
  simp [closing?]

/-! ## Tokens under the scan -/

section
variable {before behind : List Char}

theorem Passes.of_closing? {n m : Nesting} {w rest : List Char} (hw : n.Passes w m)
    (h : closing? n (w ++ rest) = some (before, behind)) :
    ∃ before', closing? m rest = some (before', behind) ∧ before = w ++ before' := by
  rw [hw] at h
  obtain ⟨⟨before', behind'⟩, hrest, hpair⟩ := Option.map_eq_some_iff.mp h
  obtain ⟨rfl, rfl⟩ := Prod.mk.inj hpair
  exact ⟨before', hrest, rfl⟩

theorem closing?_comment {c : Char} (hmark : l.any (beginsComment · c) = true) (rest : List Char) :
    closing? ⟨none, d, l⟩ (c :: rest) = none := by
  have hc : c ≠ ')' := by
    rintro rfl
    cases l <;> simp [beginsComment] at hmark
  simp [closing?, next?, hmark, hc]

theorem closing?_twoCharacters {a b : Char} (h : beginsComment a b = true) (rest : List Char) :
    closing? ⟨none, d, l⟩ (a :: b :: rest) = none := by
  by_cases hmark : l.any (beginsComment · a) = true
  · exact closing?_comment hmark (b :: rest)
  · have ha : closingMark? a = none ∧ a ≠ '(' ∧ a ≠ ')' := by
      rcases (by simpa [beginsComment] using h : a = '-' ∧ b = '-' ∨ a = '/' ∧ b = '*') with ⟨rfl, -⟩ | ⟨rfl, -⟩ <;> decide
    have hpass := passes_next (d := d) (by simpa using hmark) ha.1 ha.2.1 ha.2.2 (b :: rest)
    rw [List.singleton_append] at hpass
    rw [hpass, closing?_comment (l := some a) (by simpa using h)]
    rfl

/-- A scan that gets through a gap finds no comments in it. -/
theorem isBlank_of_closing? {cs : List Char} (h : (closing? ⟨none, d, l⟩ cs).isSome = true) :
    ∀ c ∈ (splitGap .blank cs).1, Text.isBlank c = true := by
  generalize hs : GapState.blank = s
  fun_induction splitGap s cs generalizing l with
  | case1 => simp [closing?_twoCharacters (show beginsComment '-' '-' = true from rfl)] at h
  | case2 => simp [closing?_twoCharacters (show beginsComment '/' '*' = true from rfl)] at h
  | case3 c cs hline hblock hc gap rest hgap ih =>
    have hpass := passes_blank (d := d) (l := l) (List.forall_mem_singleton.mpr hc) cs
    rw [List.singleton_append] at hpass
    rw [hpass, Option.isSome_map] at h
    have hih := ih h rfl
    rw [hgap] at hih
    exact List.forall_mem_cons.mpr ⟨hc, hih⟩
  | case4 => simp
  | case8 => simp
  | _ => cases hs

theorem closing?_gap {cs gap rest : List Char} (hgap : splitGap .blank cs = (gap, rest))
    (h : closing? ⟨none, d, l⟩ cs = some (before, behind)) :
    (∀ c ∈ gap, Text.isBlank c = true) ∧
      ∃ l' before', closing? ⟨none, d, l'⟩ rest = some (before', behind) ∧ before = gap ++ before' := by
  have hblank : ∀ c ∈ gap, Text.isBlank c = true := by
    have hall := isBlank_of_closing? (show (closing? ⟨none, d, l⟩ cs).isSome = true by rw [h]; rfl)
    rwa [hgap] at hall
  have happ := splitGap_append .blank cs
  rw [hgap] at happ
  rw [← happ] at h
  exact ⟨hblank, _, (passes_blank hblank).of_closing? h⟩

theorem closing?_lexeme {c : Char} {cs : List Char} (h : closing? ⟨none, d, l⟩ (c :: cs) = some (before, behind))
    (hk : (lexeme c cs).kind.isEnd = false) (hclose : ¬(d = 0 ∧ (lexeme c cs).kind = .rightParen)) :
    ∃ l' before', closing? ⟨none, Reader.depthAfter d (lexeme c cs).kind, l'⟩ (lexeme c cs).rest = some (before', behind) ∧
      before = (lexeme c cs).text ++ before' := by
  have hmark : l.any (beginsComment · c) = false := by
    by_contra hmark
    rw [closing?_comment (by simpa using hmark)] at h
    cases h
  rw [← lexeme_append c cs] at h
  exact ⟨_, (passes_lexeme hk hmark hclose).of_closing? h⟩

/-- The tokens up to a closing parenthesis are what the scan finds in front of it. -/
theorem tokens_of_closing? {us post : List Token} {r : Token} {cs : List Char} {pos : Nat}
    (h : tokensFrom pos cs = us ++ r :: post) (hdepth : depthThrough d us = some 0) (hr : r.kind = .rightParen)
    (hclose : closing? ⟨none, d, l⟩ cs = some (before, behind)) :
    before = us.flatMap (fun t => t.gap ++ t.text) ++ r.gap ∧ r.text = [')'] ∧
      (∀ t ∈ us ++ [r], ∀ c ∈ t.gap, Text.isBlank c = true) ∧ ∃ pos', post = tokensFrom pos' behind := by
  induction us generalizing cs pos d l before with
  | nil =>
    cases hgap : splitGap .blank cs with
    | mk gap left =>
      obtain ⟨hblank, l', before', hleft, rfl⟩ := closing?_gap hgap hclose
      cases left with
      | nil => cases hleft
      | cons c left =>
        rw [tokensFrom_cons hgap] at h
        obtain ⟨rfl, rfl⟩ := List.cons.inj h
        obtain rfl : d = 0 := Option.some.inj hdepth
        have hkind : (lexeme c left).kind = .rightParen := hr
        obtain ⟨hsingle, htext, hrest⟩ := lexeme_single (by rw [hkind]; rfl)
        obtain rfl : c = ')' := (depthAfter_of_singleKind? hsingle).2.1.mpr hr
        simp only [closing?, and_self, if_true, Option.some.injEq, Prod.mk.injEq] at hleft
        obtain ⟨rfl, rfl⟩ := hleft
        exact ⟨by simp, htext, List.forall_mem_singleton.mpr hblank, _, by rw [hrest]⟩
  | cons u us ih =>
    cases hgap : splitGap .blank cs with
    | mk gap left =>
      obtain ⟨hblank, l', before', hleft, rfl⟩ := closing?_gap hgap hclose
      cases left with
      | nil => cases hleft
      | cons c left =>
        rw [tokensFrom_cons hgap] at h
        obtain ⟨rfl, htail⟩ := List.cons.inj h
        obtain ⟨hk, hstop, hdepth⟩ := Reader.depthThrough_cons hdepth
        obtain ⟨l'', before'', hrest, rfl⟩ := closing?_lexeme hleft hk hstop
        obtain ⟨rfl, htext, hgaps, hpost⟩ := ih htail hdepth hrest
        exact ⟨by simp, htext, List.forall_mem_cons.mpr ⟨hblank, hgaps⟩, hpost⟩

end

end Nesting

end SchemaEditor
