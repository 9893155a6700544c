import SchemaEditor.Proofs.Sql.Tiling
import SchemaEditor.Proofs.Table.Layout

/-!
# Places in a statement

A reader that starts at a place in the statement stops at a place in the statement, also when it fails. A token is only
taken where the end is not next, so most readers look before they take. `Stays` says this of a reader, and holds of each
of them.
-/

namespace SchemaEditor

open Grammar (entry)

/-! ## Excerpts -/

/-- A text that stands in the statement from the first character of one token to the last character of another. -/
structure Excerpt (s : String) (first last : Token) (text : String) : Prop where
  first_mem : first ∈ tokenize s
  last_mem : last ∈ tokenize s
  within : (first.span.through last.span).Within s.toList
  start_lt_stop : first.span.start < last.span.stop
  textIn_eq : (first.span.through last.span).textIn s = text
  ne_empty : text ≠ ""

section
variable {s : String}

/-- Neighbouring tokens in front of the end are an excerpt. -/
theorem excerpt_of_split {pre us post : List Token} {first last : Token} (h : tokenize s = pre ++ us ++ post)
    (hus : ∀ t ∈ us, t.kind ≠ .eof) (hfirst : us.head? = some first) (hlast : us.getLast? = some last) :
    Excerpt s first last (String.ofList (Token.source us)) := by
  obtain ⟨vs, rfl⟩ := List.head?_eq_some_iff.mp hfirst
  obtain ⟨ws, hws⟩ := List.getLast?_eq_some_iff.mp hlast
  have hfirst_mem : first ∈ tokenize s := by simp [h]
  have hlast_mem : last ∈ tokenize s := by simp [h, hws]
  have hbefore : tokenize s = pre ++ first :: (vs ++ post) := by simp [h]
  have hbehind : tokenize s = (pre ++ ws) ++ last :: post := by simp [h, hws]
  have hstart := span_of_split hbefore
  have hstop := span_of_split hbehind
  rw [List.append_assoc, ← hws] at hstop
  have hwhole : Token.spelled (tokenize s) = s.toList := flatMap_tokensFrom s.toList 0
  have hcovers : (first.span.through last.span).Covers s.toList (Token.source (first :: vs)) := by
    refine ⟨Token.spelled pre ++ first.gap, Token.spelled post, ?_, ?_⟩
    · rw [← hwhole, h]
      simp [Token.spelled, Token.source]
    · rw [Span.through, hstart, hstop]
      simp [Token.spelled, Token.source, Nat.add_assoc]
  have hne : Token.source (first :: vs) ≠ [] := by
    have htext := Reader.text_ne_nil_of_mem hfirst_mem (hus first (by simp))
    simp [Token.source, htext]
  have hlt : first.span.start < last.span.stop := by
    obtain ⟨before, _, -, hspan⟩ := hcovers
    have hpos := byteLength_pos hne
    simp only [Span.through, Span.mk.injEq] at hspan
    omega
  exact ⟨hfirst_mem, hlast_mem, hcovers.within, hlt, by rw [Span.textIn, hcovers.slice_eq], by simpa using hne⟩

/-- Each token but the end is an excerpt by itself. -/
theorem excerpt_of_mem {t : Token} (ht : t ∈ tokenize s) (hk : t.kind ≠ .eof) : Excerpt s t t (String.ofList t.text) := by
  obtain ⟨pre, post, h⟩ := List.append_of_mem ht
  have hsplit : tokenize s = pre ++ [t] ++ post := by simp [h]
  have hexcerpt := excerpt_of_split hsplit (by simpa using hk) rfl rfl
  simpa [Token.source] using hexcerpt

end

/-- A clause as it is kept: an excerpt, behind the name of its column if it belongs to one. -/
inductive IsClause (s : String) : String → Prop where
  | table {first last : Token} {text : String} (h : Excerpt s first last text) : IsClause s text
  | column {first last : Token} {text : String} (name : String) (h : Excerpt s first last text) :
      IsClause s (name ++ " " ++ text)

/-! ## Places -/

namespace Cursor

/-- The cursor stands between two tokens of the statement. -/
def Along (s : String) (c : Cursor) : Prop := c.read.reverse ++ c.rest = tokenize s

/-- The cursor has come to a place in the statement without passing the end. -/
structure On (s : String) (c : Cursor) : Prop where
  along : c.Along s
  read : ∀ t ∈ c.read, t.kind ≠ .eof
  discarded : ∀ clause ∈ c.discarded, IsClause s clause

variable {s : String} {c : Cursor}

theorem on_start (s : String) : (start s).On s := ⟨rfl, by simp [start], by simp [start]⟩

namespace On

variable (h : c.On s)
include h

/-- The end is still to come. -/
theorem rest_ne_nil : c.rest ≠ [] := by
  intro hrest
  obtain ⟨ts, e, hts, he, -⟩ := tokensFrom_eq_append_end s.toList 0
  have halong := h.along
  rw [Along, hrest, List.append_nil, tokenize, hts] at halong
  exact h.read e (by rw [← List.mem_reverse, halong]; simp) he

theorem length_read_lt : c.read.length < (tokenize s).length := by
  have hlength := congrArg List.length h.along
  have hrest := List.length_pos_iff.mpr h.rest_ne_nil
  rw [List.length_append, List.length_reverse] at hlength
  omega

theorem mem_of_read {t : Token} (ht : t ∈ c.read) : t ∈ tokenize s := by
  rw [← h.along]
  exact List.mem_append_left _ (List.mem_reverse.mpr ht)

theorem current_mem : c.current ∈ tokenize s := by
  obtain ⟨t, ts, hrest⟩ := List.exists_cons_of_ne_nil h.rest_ne_nil
  rw [← h.along, (advance_of_rest hrest).1, hrest]
  simp

theorem jump {ts rest : List Token} (hrest : c.rest = ts ++ rest) (hts : ∀ t ∈ ts, t.kind ≠ .eof) :
    (c.jump ts rest).On s := by
  refine ⟨?_, fun t ht => ?_, h.discarded⟩
  · have halong := h.along
    rw [Along, hrest] at halong
    simpa [Along, Cursor.jump] using halong
  · rcases List.mem_append.mp ht with ht | ht
    · exact hts t (List.mem_reverse.mp ht)
    · exact h.read t ht

theorem advance (hk : c.current.kind ≠ .eof) : c.advance.On s := by
  obtain ⟨rest, hrest⟩ := rest_of_current hk
  rw [advance_eq_jump hrest]
  exact h.jump hrest (by simpa using hk)

/-- What was read since an earlier place. -/
theorem excerpt_sourceSince {m : Nat} (hm : m < c.read.length) : ∃ first last, Excerpt s first last (c.sourceSince m) := by
  let since := (c.read.take (c.read.length - m)).reverse
  have hsplit : c.read.reverse = (c.read.drop (c.read.length - m)).reverse ++ since := by
    rw [← List.reverse_append, List.take_append_drop]
  have halong := h.along
  rw [Along, hsplit] at halong
  have hne : since ≠ [] := by
    rw [ne_eq, ← List.length_eq_zero_iff, List.length_reverse, List.length_take]
    omega
  have hread : ∀ t ∈ since, t.kind ≠ .eof := fun t ht => h.read t (List.mem_of_mem_take (List.mem_reverse.mp ht))
  exact ⟨_, _, excerpt_of_split halong.symm hread (List.head?_eq_some_head hne) (List.getLast?_eq_some_getLast hne)⟩

theorem record {m : Nat} (hm : m < c.read.length) (column : Option String) :
    (c.record [entry column (c.read.take (c.read.length - m)).reverse]).On s := by
  refine ⟨h.along, h.read, fun clause hclause => ?_⟩
  obtain ⟨first, last, hexcerpt⟩ := h.excerpt_sourceSince hm
  rcases List.mem_cons.mp hclause with rfl | hclause
  · cases column with
    | none => exact .table hexcerpt
    | some name => exact .column name hexcerpt
  · exact h.discarded clause hclause

end On

end Cursor

theorem within_of_mem {s : String} {t : Token} (ht : t ∈ tokenize s) : t.span.Within s.toList := (covers_of_mem ht).within

namespace Reader

/-- A reading stops at a place in the statement behind `n` tokens, and the span of its error is in the statement too. -/
inductive Lands (s : String) (n : Nat) {α : Type} : EStateM.Result ParseError Cursor α → Prop where
  | ok {a : α} {c : Cursor} (hc : c.On s) (hn : n ≤ c.read.length) : Lands s n (.ok a c)
  | error {e : ParseError} {c : Cursor} (hc : c.On s) (he : e.span.Within s.toList) : Lands s n (.error e c)

variable {α β : Type} {s : String} {n : Nat} {c : Cursor} {r r' : Reader α} {f : α → Reader β}

theorem Lands.mono {m : Nat} {x : EStateM.Result ParseError Cursor α} (hmn : m ≤ n) (h : Lands s n x) : Lands s m x := by
  cases h with
  | ok hc hn => exact .ok hc (Nat.le_trans hmn hn)
  | error hc he => exact .error hc he

theorem Lands.bind {m : Nat} (h : Lands s m (r c))
    (hf : ∀ a d, r c = .ok a d → d.On s → m ≤ d.read.length → Lands s n (f a d)) : Lands s n ((r >>= f) c) := by
  cases hr : r c with
  | ok a d =>
    rw [hr] at h
    cases h with
    | ok hd hm =>
      rw [bind_eq_of_ok hr]
      exact hf a d hr hd hm
  | error e d =>
    rw [hr] at h
    cases h with
    | error hd he =>
      rw [bind_eq_of_error hr]
      exact .error hd he

/-- From any place in the statement the reader comes to a place in it. -/
class Stays (s : String) (n : Nat) (r : Reader α) : Prop where
  lands : ∀ c, c.On s → n ≤ c.read.length → Lands s n (r c)

/-- From any place in front of the end the reader comes to a place in the statement. -/
class StaysBeforeEnd (s : String) (n : Nat) (r : Reader α) : Prop where
  lands : ∀ c, c.On s → n ≤ c.read.length → c.current.kind ≠ .eof → Lands s n (r c)

instance [Stays s n r] : StaysBeforeEnd s n r := ⟨fun c hc hn _ => Stays.lands c hc hn⟩

/-! ### Single tokens -/

theorem lands_skip (hc : c.On s) (hn : n ≤ c.read.length) (hk : c.current.kind ≠ .eof) : Lands s (n + 1) (skip c) :=
  .ok (hc.advance hk) (Nat.succ_le_succ hn)

instance : StaysBeforeEnd s n skip := ⟨fun _ hc hn hk => (lands_skip hc hn hk).mono (Nat.le_succ n)⟩

instance {f : Unit → Reader β} [hf : ∀ a, Stays s n (f a)] : StaysBeforeEnd s n (skip >>= f) :=
  ⟨fun _ hc hn hk => (lands_skip hc hn hk).bind fun a d _ hd hm => (hf a).lands d hd (Nat.le_of_succ_le hm)⟩

/-- Behind the token that was taken there is one token more. -/
instance {f : Unit → Reader β} [hf : ∀ a, Stays s (n + 1) (f a)] : StaysBeforeEnd s n (skip >>= f) :=
  ⟨fun _ hc hn hk => ((lands_skip hc hn hk).bind fun a d _ => (hf a).lands d).mono (Nat.le_succ n)⟩

instance (a : α) : Stays s n (pure a : Reader α) := ⟨fun _ hc hn => .ok hc hn⟩

theorem stays_bind [hr : Stays s n r] (hf : ∀ a, Stays s n (f a)) : Stays s n (r >>= f) :=
  ⟨fun c hc hn => (hr.lands c hc hn).bind fun a d _ => (hf a).lands d⟩

instance [Stays s n r] [hf : ∀ a, Stays s n (f a)] : Stays s n (r >>= f) := stays_bind hf

instance {p : Prop} [Decidable p] [Stays s n r] [Stays s n r'] : Stays s n (if p then r else r') := by split <;> assumption

instance : Stays s n current := ⟨fun _ hc hn => .ok hc hn⟩
instance : Stays s n following := ⟨fun _ hc hn => .ok hc hn⟩
instance : Stays s n mark := ⟨fun _ hc hn => .ok hc hn⟩
instance (m : Nat) : Stays s n (sourceSince m) := ⟨fun _ hc hn => .ok hc hn⟩
instance (e : Expected) : Stays s n (unexpected e : Reader α) := ⟨fun _ hc _ => .error hc (within_of_mem hc.current_mem)⟩
instance (k : TokenKind) : Stays s n (atKind k) := by unfold atKind; infer_instance
instance (k : Keyword) : Stays s n (atKeyword k) := by unfold atKeyword; infer_instance
instance (w : String) : Stays s n (atWord w) := by unfold atWord; infer_instance

theorem stays_fail {span : Span} (h : span.Within s.toList) (failure : ParseFailure) :
    Stays s n (fail failure span : Reader α) := ⟨fun _ hc _ => .error hc h⟩

theorem stays_fail_bind {span : Span} (h : span.Within s.toList) (failure : ParseFailure) (f : α → Reader β) :
    Stays s n (fail failure span >>= f) := ⟨fun _ hc _ => .error hc h⟩

/-- The current token is a token of the statement. -/
theorem stays_current {f : Token → Reader β} (hf : ∀ t ∈ tokenize s, Stays s n (f t)) : Stays s n (current >>= f) :=
  ⟨fun c hc hn => (hf c.current hc.current_mem).lands c hc hn⟩

/-- What is read from a place on may go back to that place. -/
theorem stays_mark {f : Nat → Reader β} (hf : ∀ m, Stays s m (f m)) : Stays s n (mark >>= f) :=
  ⟨fun c hc hn => ((hf c.read.length).lands c hc (Nat.le_refl _)).mono hn⟩

/-- What is done with the current token may depend on whether it is the end. -/
theorem stays_token {f : Token → Reader β} (hf : ∀ t, t.kind ≠ .eof → StaysBeforeEnd s n (f t))
    (hend : ∀ t, t.kind = .eof → Stays s n (f t)) : Stays s n (current >>= f) := by
  refine ⟨fun c hc hn => ?_⟩
  by_cases hk : c.current.kind = .eof
  · exact (hend c.current hk).lands c hc hn
  · exact (hf c.current hk).lands c hc hn hk

/-- Behind a test that the end does not pass, the current token may be taken. -/
theorem Looks.stays {l : Reader Bool} {test : TokenKind → Bool} (hl : Looks l test) [hr : StaysBeforeEnd s n r]
    [hr' : Stays s n r'] : Stays s n (l >>= fun b => if b = true then r else r') := by
  refine ⟨fun c hc hn => ?_⟩
  rw [bind_eq_of_ok (hl.look c)]
  by_cases htest : test c.current.kind = true
  · rw [if_pos htest]
    refine hr.lands c hc hn fun hk => ?_
    rw [hk, hl.eof] at htest
    cases htest
  · rw [if_neg htest]
    exact hr'.lands c hc hn

instance (k : Keyword) [StaysBeforeEnd s n r] [Stays s n r'] :
    Stays s n (atKeyword k >>= fun b => if b = true then r else r') := (looks_atKeyword k).stays

instance (w : String) [StaysBeforeEnd s n r] [Stays s n r'] :
    Stays s n (atWord w >>= fun b => if b = true then r else r') := (looks_atWord w).stays

theorem stays_expectKind {k : TokenKind} (hk : k ≠ .eof) : Stays s n (expectKind k) := (looks_atKind hk).stays

instance : Stays s n (expectKind .leftParen) := stays_expectKind (by decide)
instance : Stays s n (expectKind .rightParen) := stays_expectKind (by decide)
instance (k : Keyword) : Stays s n (expectKeyword k) := by unfold expectKeyword; infer_instance
instance (w : String) : Stays s n (expectWord w) := by unfold expectWord; infer_instance

instance : Stays s n expectName := by
  refine stays_token (fun t _ => ?_) fun t ht => ?_
  · split <;> infer_instance
  · rw [show nameOf? t = none by rw [nameOf?, ht]]
    infer_instance

/-! ### Balanced text -/

theorem kind_ne_eof_of_isEnd {k : TokenKind} (h : k.isEnd = false) : k ≠ .eof := by
  rintro rfl
  cases h

theorem isEnd_of_mem_takeBalanced (stop : TokenKind → Bool) (depth : Nat) (ts : List Token) :
    ∀ t ∈ (takeBalanced stop depth ts).1, t.kind.isEnd = false := by
  induction ts generalizing depth with
  | nil => simp [takeBalanced]
  | cons t ts ih =>
    rw [takeBalanced]
    split
    · simp
    · next hstop =>
      simp only [Bool.or_eq_true, not_or, Bool.not_eq_true] at hstop
      intro u hu
      rcases List.mem_cons.mp hu with rfl | hu
      · exact hstop.1
      · exact ih _ u hu

theorem on_takeBalanced (hc : c.On s) (stop : TokenKind → Bool) (depth : Nat) :
    (c.jump (takeBalanced stop depth c.rest).1 (takeBalanced stop depth c.rest).2).On s :=
  hc.jump (takeBalanced_append stop depth c.rest).symm
    fun t ht => kind_ne_eof_of_isEnd (isEnd_of_mem_takeBalanced stop depth c.rest t ht)

theorem length_read_jump (c : Cursor) (ts rest : List Token) : c.read.length ≤ (c.jump ts rest).read.length := by
  simp [Cursor.jump]

/-- A reading that may only fail where it stops. -/
theorem lands_ite {p : Prop} [Decidable p] {failure : ParseFailure} {a : α} (hc : c.On s) (hn : n ≤ c.read.length) :
    Lands s n (if p then .error ⟨failure, c.current.span⟩ c else .ok a c) := by
  split
  · exact .error hc (within_of_mem hc.current_mem)
  · exact .ok hc hn

instance : Stays s n inside :=
  ⟨fun _ hc hn => lands_ite (on_takeBalanced hc _ 0) (Nat.le_trans hn (length_read_jump ..))⟩

instance : Stays s n toNextDefinition :=
  ⟨fun _ hc hn => lands_ite (on_takeBalanced hc _ 0) (Nat.le_trans hn (length_read_jump ..))⟩

theorem current_of_inside {ts : List Token} {d : Cursor} (h : inside c = .ok ts d) : d.current.kind.isEnd = false := by
  unfold inside at h
  simp only at h
  split at h
  · cases h
  · next hend =>
    cases h
    simpa using hend

/-- Behind a text in parentheses there is something to take. -/
instance : Stays s n (inside >>= fun _ => skip) :=
  ⟨fun c hc hn => (Stays.lands c hc hn).bind fun _ d h hd hm =>
    StaysBeforeEnd.lands d hd hm (kind_ne_eof_of_isEnd (current_of_inside h))⟩

instance : Stays s n parenthesized := by unfold parenthesized; infer_instance
instance : Stays s n compactExpression := by unfold compactExpression; infer_instance
instance : Stays s n closedExpression := by unfold closedExpression; infer_instance

/-! ### Loops -/

instance {step : α → Reader (Turn α β)} [∀ a, Progresses (step a)] [hs : ∀ a, Stays s n (step a)] (a : α) :
    Stays s n (loop step a) := by
  refine ⟨fun c hc hn => ?_⟩
  -- a loop ends because each turn but the last leaves fewer tokens
  induction hlength : c.rest.length using Nat.strongRecOn generalizing a c with
  | ind k ih =>
    subst hlength
    have hstep := (hs a).lands c hc hn
    rw [loop]
    split
    · next a' d h =>
      rw [h] at hstep
      cases hstep with
      | ok hd hm => exact ih _ (Progresses.progresses h) a' d hd hm rfl
    · next b d h =>
      rw [h] at hstep
      cases hstep with
      | ok hd hm => exact .ok hd hm
    · next e d h =>
      rw [h] at hstep
      cases hstep with
      | error hd he => exact .error hd he

instance (a : α) : Stays s n (turnAtComma a) := by
  refine ⟨fun c hc hn => ?_⟩
  unfold turnAtComma
  split
  · next hk => exact .ok (hc.advance (by simp [hk])) (Nat.le_succ_of_le hn)
  · exact .ok hc hn

/-! ### Clauses -/

/-- Two tests of the current token, of which one has to pass. -/
theorem stays_either {l l' : Reader Bool} {test test' : TokenKind → Bool} (hl : Looks l test) (hl' : Looks l' test')
    [StaysBeforeEnd s n r] [Stays s n r'] :
    Stays s n (l >>= fun b => l' >>= fun b' => if (b || b') = true then r else r') := by
  rw [either_bind l l' fun b => if b = true then r else r']
  exact (hl.or hl').stays

instance : Stays s n sortOrder := stays_either (looks_atKeyword .asc) (looks_atKeyword .desc)

instance : Stays s n conflictClause := by
  have : Stays s n (current >>= fun t => if isResolution t.keyword? then skip else unexpected .resolution) := by
    refine stays_token (fun t _ => ?_) fun t ht => ?_
    · split <;> infer_instance
    · rw [if_neg (by simp [Token.keyword?, TokenKind.keyword?, isResolution, ht])]
      infer_instance
  unfold conflictClause
  infer_instance

instance : Stays s n generatedTail := by
  have : Stays s n (do if (← atWord "STORED") || (← atWord "VIRTUAL") then skip : Reader Unit) :=
    stays_either (looks_atWord "STORED") (looks_atWord "VIRTUAL")
  unfold generatedTail
  infer_instance

/-- A check inside a check begins with two tokens that are taken without a look. -/
theorem lands_innerCheck (hc : c.On s) (hn : n ≤ c.read.length) (hfirst : c.current.kind ≠ .eof)
    (hsecond : c.following.kind ≠ .eof) : Lands s n (innerCheck c) := by
  have hrest : StaysBeforeEnd s n (do
      skip
      expectKind .leftParen
      let expression ← closedExpression
      expectKind .rightParen
      return expression : Reader String) := inferInstance
  have hskip : innerCheck c = _ := bind_eq_of_ok (show skip c = .ok () c.advance from rfl)
  rw [hskip]
  exact hrest.lands c.advance (hc.advance hfirst) (Nat.le_succ_of_le hn) hsecond

instance (column : String) : Stays s n (checkExpression column) := by
  have : Stays s n (current >>= fun first => following >>= fun second =>
      if nameOf? first == some column && second.keyword? == some .check then innerCheck else closedExpression) := by
    refine ⟨fun c hc hn => ?_⟩
    rw [bind_eq_of_ok (show current c = .ok c.current c from rfl), bind_eq_of_ok (show following c = .ok c.following c from rfl)]
    split
    · next hown =>
      simp only [Bool.and_eq_true, beq_iff_eq] at hown
      refine lands_innerCheck hc hn (fun hk => ?_) (kind_ne_eof_of_keyword? hown.2)
      rw [nameOf?, hk] at hown
      cases hown.1
    · exact Stays.lands c hc hn
  unfold checkExpression
  infer_instance

instance : Stays s n defaultValue := by
  have hnumber (first : List Char) : Stays s n (current >>= fun number => if number.kind == .number then (do
      skip
      return String.ofList (first ++ number.text)) else unexpected .number : Reader String) := by
    refine stays_token (fun t _ => ?_) fun t ht => ?_
    · split <;> infer_instance
    · rw [ht, if_neg (by decide)]
      infer_instance
  refine stays_token (fun t _ => ?_) fun t ht => ?_
  · split <;> infer_instance
  · rw [ht]
    exact inferInstanceAs (Stays s n (unexpected .defaultValue))

theorem kind_ne_eof_of_takeForeignKey (previous : TokenKind) (depth : Nat) (ts : List Token) :
    ∀ t ∈ (takeForeignKey previous depth ts).taken, t.kind ≠ .eof := by
  induction ts generalizing previous depth with
  | nil => simp [takeForeignKey]
  | cons t ts ih =>
    cases depth with
    | zero =>
      rw [takeForeignKey]
      split
      · simp
      · next hend =>
        intro u hu
        rcases List.mem_cons.mp hu with rfl | hu
        · intro hk
          rw [hk] at hend
          exact hend rfl
        · exact ih _ _ u hu
    | succ k =>
      rw [takeForeignKey]
      split
      · simp
      · next hend =>
        intro u hu
        rcases List.mem_cons.mp hu with rfl | hu
        · exact kind_ne_eof_of_isEnd (by simpa using hend)
        · exact ih _ _ u hu

instance : Stays s n foreignKeyTail := by
  refine ⟨fun c hc hn => ?_⟩
  have hd := hc.jump (takeForeignKey_append ((c.read.head?.map Token.kind).getD .eof) 0 c.rest).symm
    (kind_ne_eof_of_takeForeignKey _ _ _)
  unfold foreignKeyTail
  simp only
  split
  · exact .ok hd (Nat.le_trans hn (length_read_jump ..))
  · exact .error hd (within_of_mem hd.current_mem)

/-- A clause is discarded behind its first keyword. -/
instance (m : Nat) (column : Option String) : Stays s (m + 1) (discardSince m column) := by
  refine ⟨fun c hc hn => ?_⟩
  rw [discardSince_eq]
  exact .ok (hc.record hn column) hn

theorem kind_ne_eof_of_isTypeWord {t : Token} (h : isTypeWord t = true) : t.kind ≠ .eof := by
  intro hk
  rw [isTypeWord, hk] at h
  cases h

instance : Stays s n typeWords := by
  refine ⟨fun c hc hn => .ok (hc.jump List.takeWhile_append_dropWhile.symm fun t ht => ?_) (Nat.le_trans hn (length_read_jump ..))⟩
  exact kind_ne_eof_of_isTypeWord (List.mem_takeWhile_imp ht)

instance : Stays s n typeName := by
  unfold typeName
  infer_instance

theorem stays_constraintTail {m : Nat} {f : Field} {k : Keyword} {r : Reader Field} (h : constraintTail m f k = some r) :
    Stays s (m + 1) r := by
  cases k <;> simp only [constraintTail, Option.some.injEq, reduceCtorEq] at h <;> subst h <;> infer_instance

instance (f : Field) : Stays s n (columnConstraint f) := by
  refine ⟨fun c hc hn => ?_⟩
  unfold columnConstraint
  split
  · next tail htail =>
    obtain ⟨k, hk, htail⟩ := Option.bind_eq_some_iff.mp htail
    have := stays_constraintTail (s := s) htail
    have hstep : StaysBeforeEnd s c.read.length (do skip; return Turn.again (← tail) : Reader (Turn Field Field)) := inferInstance
    exact (hstep.lands c hc (Nat.le_refl _) (kind_ne_eof_of_keyword? hk)).mono hn
  · exact .ok hc hn

instance : Stays s n columnDefinition := by unfold columnDefinition; infer_instance

/-! ### Tables -/

instance : Stays s n atTableConstraint := ⟨fun c hc hn => by rw [atTableConstraint_eq]; exact .ok hc hn⟩

instance (keys : KeyList) : Stays s n (keyColumn keys) := by
  refine stays_current fun start hstart => ?_
  have (column : String) : Stays s n (match keys.table.field? column, keys.table.modifyField? column Field.asPrimaryKey with
      | some field, some table => return { table, listed := keys.listed ++ [field.name] }
      | _, _ => fail (.unknownKeyColumn column) start.span : Reader KeyList) := by
    split
    · infer_instance
    · exact stays_fail (within_of_mem hstart) _
  infer_instance

instance (t : Table) : Stays s n (keyColumns t) := by unfold keyColumns; infer_instance

theorem staysBeforeEnd_tableConstraintTail (m : Nat) (t : Table) (k : Option Keyword) :
    StaysBeforeEnd s m (tableConstraintTail m t k) := by
  unfold tableConstraintTail
  split <;> infer_instance

instance (t : Table) : Stays s n (tableConstraint t) := by
  refine stays_mark fun m => ?_
  have : Stays s m (current >>= fun first => tableConstraintTail m t first.keyword?) := by
    refine stays_token (fun first _ => staysBeforeEnd_tableConstraintTail m t first.keyword?) fun first hfirst => ?_
    rw [show first.keyword? = none by rw [Token.keyword?, hfirst]; rfl]
    exact inferInstanceAs (Stays s m (unexpected .tableConstraint))
  infer_instance

instance (t : Table) : Stays s n (definition t) := by unfold definition; infer_instance

instance (withoutRowid : Bool) : Stays s n (tableOption withoutRowid) := by unfold tableOption; infer_instance

instance : Stays s n createTable := by
  have : Stays s n (do
      if (← atKeyword .temp) || (← atKeyword .temporary) then skip
      expectKeyword .table
      if ← atKeyword .if then
        skip
        expectKeyword .not
        expectKeyword .exists : Reader Unit) := stays_either (looks_atKeyword .temp) (looks_atKeyword .temporary)
  unfold createTable
  infer_instance

instance : Stays s n tableName := by
  have (name : String) : Stays s n (do if ← atKind .dot then skip; expectName else return name : Reader String) :=
    (looks_atKind (by decide)).stays
  unfold tableName
  infer_instance

instance : Stays s n endOfStatement := (looks_atKind (k := .semicolon) (by decide)).stays

theorem within_zero (cs : List Char) : (Span.mk 0 0).Within cs := by
  have hcovers : (Span.mk 0 0).Covers cs [] := ⟨[], cs, rfl, rfl⟩
  exact hcovers.within

/-- In front of the first token there is an empty span. -/
theorem stays_previousSpan {f : Span → Reader β} (hf : ∀ span : Span, span.Within s.toList → Stays s n (f span)) :
    Stays s n (previousSpan >>= f) := by
  refine ⟨fun c hc hn => (hf _ ?_).lands c hc hn⟩
  cases hread : c.read with
  | nil => exact within_zero s.toList
  | cons t ts => exact within_of_mem (hc.mem_of_read (by simp [hread]))

instance : Stays s n table := by
  have hnoColumns (f : Unit → Reader Table) : Stays s n (current >>= fun t => fail .noColumns t.span >>= f) :=
    stays_current fun t ht => stays_fail_bind (within_of_mem ht) .noColumns f
  have hnoKey (f : Unit → Reader Table) : Stays s n (previousSpan >>= fun span => fail .withoutRowidWithoutKey span >>= f) :=
    stays_previousSpan fun span h => stays_fail_bind h .withoutRowidWithoutKey f
  -- the statement as a whole is too large for the search
  refine stays_bind fun _ => stays_bind fun name => stays_bind fun select => ?_
  infer_instance

end Reader

end SchemaEditor
