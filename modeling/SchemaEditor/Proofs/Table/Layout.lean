import Mathlib.Data.List.Forall2
import SchemaEditor.Proofs.Table.Accepted
import SchemaEditor.Proofs.Table.Items

/-!
# Readings of the same tokens

Two texts with the same tokens are read in the same way, whatever stands between the tokens. The two readings are
compared step by step: from places between the same tokens a reader comes to the same result or to the same failure, and
stops between the same tokens again. Only the text of a type and that of a discarded clause show the gaps.
-/

namespace SchemaEditor

open Grammar (entry TypeName startsTableConstraint)

/-! ## Tables in two layouts -/

/-- The same text but for what stands between its tokens. -/
structure SameWords (s s' : String) : Prop where
  tokens : (tokenize s).map Token.bare = (tokenize s').map Token.bare
  /-- There is nothing between the tokens where there is but one, besides the end. -/
  single : (tokenize s).length ≤ 2 → s = s'

/-- The same column but for the layout of its type. -/
structure Field.SameLayout (f g : Field) : Prop where
  same : g = { f with sqlType := g.sqlType }
  sqlType : SameWords f.sqlType g.sqlType

/-- The same table but for the layout of the types of its columns. -/
structure Table.SameLayout (t u : Table) : Prop where
  same : u = { t with fields := u.fields }
  fields : List.Forall₂ Field.SameLayout t.fields u.fields

/-- What is kept of a clause in two layouts: the same stretch of the tokens, behind the same column. -/
def SameEntry (ts us : List Token) (s s' : String) : Prop :=
  ∃ column i n, i + n ≤ ts.length ∧ i + n ≤ us.length ∧
    s = entry column ((ts.drop i).take n) ∧ s' = entry column ((us.drop i).take n)

theorem SameEntry.append {ts us : List Token} {s s' : String} (h : SameEntry ts us s s') (vs ws : List Token) :
    SameEntry (ts ++ vs) (us ++ ws) s s' := by
  obtain ⟨column, i, n, hts, hus, rfl, rfl⟩ := h
  have hstretch {ts : List Token} (hts : i + n ≤ ts.length) (vs : List Token) : ((ts ++ vs).drop i).take n = (ts.drop i).take n := by
    rw [List.drop_append_of_le_length (by omega), List.take_append_of_le_length (by rw [List.length_drop]; omega)]
  exact ⟨column, i, n, by rw [List.length_append]; omega, by rw [List.length_append]; omega, by rw [hstretch hts], by rw [hstretch hus]⟩

/-! ## Places between the same tokens -/

namespace Cursor

/-- What was read and what remains are the same tokens, and the same clauses were discarded. -/
structure Parallel (c c' : Cursor) : Prop where
  read : c.read.map Token.bare = c'.read.map Token.bare
  rest : c.rest.map Token.bare = c'.rest.map Token.bare
  discarded : List.Forall₂ (SameEntry c.read.reverse c'.read.reverse) c.discarded c'.discarded
  inRow : InRow c.rest
  inRow' : InRow c'.rest

namespace Parallel

variable {c c' : Cursor}

theorem current (h : c.Parallel c') : c.current.bare = c'.current.bare := by
  have hrest := h.rest
  rw [Cursor.current, Cursor.current]
  cases hc : c.rest with
  | nil =>
    rw [hc] at hrest
    obtain hc' : c'.rest = [] := by simpa using hrest.symm
    rw [hc']
    rfl
  | cons t ts =>
    rw [hc] at hrest
    obtain ⟨u, us, hc', hu, -⟩ := List.map_eq_cons_iff.mp hrest.symm
    rw [hc']
    exact hu.symm

theorem length_read (h : c.Parallel c') : c.read.length = c'.read.length := by
  simpa using congrArg List.length h.read

/-- Clauses that were discarded stay where they are among the tokens. -/
theorem discarded_append (h : c.Parallel c') (ts us : List Token) :
    List.Forall₂ (SameEntry (ts.reverse ++ c.read).reverse (us.reverse ++ c'.read).reverse) c.discarded c'.discarded := by
  refine h.discarded.imp fun _ _ hentry => ?_
  rw [List.reverse_append, List.reverse_append, List.reverse_reverse, List.reverse_reverse]
  exact hentry.append ts us

theorem jump {ts us rest rest' : List Token} (h : c.Parallel c') (hc : c.rest = ts ++ rest) (hc' : c'.rest = us ++ rest')
    (hts : ts.map Token.bare = us.map Token.bare) : (c.jump ts rest).Parallel (c'.jump us rest') := by
  have hrest := h.rest
  rw [hc, hc', List.map_append, List.map_append, hts] at hrest
  have hrow := h.inRow
  have hrow' := h.inRow'
  rw [hc] at hrow
  rw [hc'] at hrow'
  refine ⟨?_, List.append_cancel_left hrest, h.discarded_append ts us, hrow.right, hrow'.right⟩
  simp only [Cursor.jump, List.map_append, List.map_reverse, hts, h.read]

theorem advance (h : c.Parallel c') : c.advance.Parallel c'.advance := by
  have htail {ts : List Token} (hts : InRow ts) : InRow ts.tail := by
    cases ts with
    | nil => exact hts
    | cons t ts => exact hts.tail
  refine ⟨?_, ?_, h.discarded_append [c.current] [c'.current], htail h.inRow, htail h.inRow'⟩
  · simp only [Cursor.advance, List.map_cons, h.current, h.read]
  · simp only [Cursor.advance, List.map_tail, h.rest]

theorem following (h : c.Parallel c') : c.following.bare = c'.following.bare := by
  rw [following_eq, following_eq]
  exact h.advance.current

end Parallel

theorem parallel_start {s s' : String} (h : (tokenize s).map Token.bare = (tokenize s').map Token.bare) :
    (start s).Parallel (start s') :=
  ⟨rfl, h, .nil, ⟨0, s.toList, [], (List.append_nil _).symm⟩, ⟨0, s'.toList, [], (List.append_nil _).symm⟩⟩

end Cursor

/-- Two readings come to results that `R` relates, or to the same failure, between the same tokens. -/
inductive SameOutcome {α β : Type} (R : α → β → Prop) :
    EStateM.Result ParseError Cursor α → EStateM.Result ParseError Cursor β → Prop where
  | ok {a : α} {b : β} {c c' : Cursor} (h : R a b) (hc : c.Parallel c') : SameOutcome R (.ok a c) (.ok b c')
  | error {e e' : ParseError} {c c' : Cursor} (h : e.failure = e'.failure) (hc : c.Parallel c') :
      SameOutcome R (.error e c) (.error e' c')

theorem SameOutcome.exists {α β : Type} {R : α → β → Prop} {x : EStateM.Result ParseError Cursor α}
    {y : EStateM.Result ParseError Cursor β} (h : SameOutcome R x y) :
    (∃ a b d d', x = .ok a d ∧ y = .ok b d' ∧ R a b ∧ d.Parallel d') ∨
      ∃ e e' d d', x = .error e d ∧ y = .error e' d' ∧ e.failure = e'.failure ∧ d.Parallel d' := by
  cases h with
  | ok h hc => exact .inl ⟨_, _, _, _, rfl, rfl, h, hc⟩
  | error h hc => exact .inr ⟨_, _, _, _, rfl, rfl, h, hc⟩

namespace Reader

variable {α α' β β' : Type} {R : α → α' → Prop} {S : β → β' → Prop} {c c' : Cursor}

/-- From places between the same tokens the readers come to the same. -/
def Agree (R : α → α' → Prop) (r : Reader α) (r' : Reader α') : Prop :=
  ∀ c c', c.Parallel c' → SameOutcome R (r c) (r' c')

section
variable {r : Reader α} {r' : Reader α'} {f : α → Reader β} {f' : α' → Reader β'}

theorem bind_eq_of_error {c d : Cursor} {e : ParseError} (h : r c = .error e d) : (r >>= f) c = .error e d := by
  change EStateM.bind r f c = _
  rw [EStateM.bind, h]

theorem Agree.bind (hr : Agree R r r') (hf : ∀ a b, R a b → Agree S (f a) (f' b)) : Agree S (r >>= f) (r' >>= f') := by
  intro c c' hc
  rcases (hr c c' hc).exists with ⟨a, b, d, d', hx, hy, hab, hd⟩ | ⟨e, e', d, d', hx, hy, he, hd⟩
  · rw [bind_eq_of_ok hx, bind_eq_of_ok hy]
    exact hf a b hab d d' hd
  · rw [bind_eq_of_error hx, bind_eq_of_error hy]
    exact .error he hd

theorem agree_pure {a : α} {b : α'} (h : R a b) : Agree R (pure a) (pure b) := fun _ _ hc => .ok h hc

/-- More is known of results that are also related by what the readers take. -/
theorem Agree.mono {Q : α → α' → Prop} (h : Agree R r r')
    (hQ : ∀ c c' d d' a b, c.Parallel c' → r c = .ok a d → r' c' = .ok b d' → d.Parallel d' → R a b → Q a b) :
    Agree Q r r' := by
  intro c c' hc
  rcases (h c c' hc).exists with ⟨a, b, d, d', hx, hy, hab, hd⟩ | ⟨e, e', d, d', hx, hy, he, hd⟩
  · rw [hx, hy]
    exact .ok (hQ c c' d d' a b hc hx hy hd hab) hd
  · rw [hx, hy]
    exact .error he hd

theorem agree_current : Agree (fun t u => t.bare = u.bare) current current := fun _ _ hc => .ok hc.current hc

theorem agree_following : Agree (fun t u => t.bare = u.bare) following following := fun _ _ hc => .ok hc.following hc

end

/-! ## Readers that ignore the gaps -/

/-- Between the same tokens the reader comes to the same result. -/
class IgnoresGaps (r : Reader α) : Prop where
  agree : Agree Eq r r

section
variable {r s : Reader α} {f : α → Reader β} {p : Prop} [Decidable p]

/-- A reader that ignores the gaps goes first, with the same result on both sides. -/
theorem agree_bind [hr : IgnoresGaps r] {f : α → Reader β} {f' : α → Reader β'} (hf : ∀ a, Agree S (f a) (f' a)) :
    Agree S (r >>= f) (r >>= f') :=
  hr.agree.bind fun a _ h => h ▸ hf a

instance (a : α) : IgnoresGaps (pure a : Reader α) := ⟨agree_pure rfl⟩

instance [IgnoresGaps r] [hf : ∀ a, IgnoresGaps (f a)] : IgnoresGaps (r >>= f) := ⟨agree_bind fun a => (hf a).agree⟩

instance [IgnoresGaps r] [IgnoresGaps s] : IgnoresGaps (if p then r else s) := by split <;> assumption

/-- Of a token that is looked at, only kind and text count. -/
theorem ignoresGaps_bind_token {look : Reader Token} (hlook : Agree (fun t u => t.bare = u.bare) look look)
    {f : Token → Reader β} (hcongr : ∀ t u, t.bare = u.bare → f t = f u) [hf : ∀ t, IgnoresGaps (f t)] :
    IgnoresGaps (look >>= f) :=
  ⟨hlook.bind fun t u h => hcongr t u h ▸ (hf t).agree⟩

end

instance : IgnoresGaps skip := ⟨fun _ _ hc => .ok rfl hc.advance⟩

instance : IgnoresGaps mark := ⟨fun _ _ hc => .ok hc.length_read hc⟩

instance (e : Expected) : IgnoresGaps (unexpected e : Reader α) :=
  ⟨fun _ _ hc => .error (by rw [kind_congr hc.current]) hc⟩

instance (k : TokenKind) : IgnoresGaps (atKind k) := ignoresGaps_bind_token agree_current fun _ _ h => by rw [kind_congr h]

instance (k : Keyword) : IgnoresGaps (atKeyword k) := ignoresGaps_bind_token agree_current fun _ _ h => by rw [keyword?_congr h]

instance (w : String) : IgnoresGaps (atWord w) := ignoresGaps_bind_token agree_current fun _ _ h => by rw [kind_congr h]

instance (k : TokenKind) : IgnoresGaps (expectKind k) := by unfold expectKind; infer_instance

instance (k : Keyword) : IgnoresGaps (expectKeyword k) := by unfold expectKeyword; infer_instance

instance (w : String) : IgnoresGaps (expectWord w) := by unfold expectWord; infer_instance

instance : IgnoresGaps expectName := by
  have (t : Token) : IgnoresGaps (match nameOf? t with
      | some name => do skip; return name
      | none => unexpected .name : Reader String) := by split <;> infer_instance
  exact ignoresGaps_bind_token agree_current fun _ _ h => by rw [nameOf?_congr h]

/-- The span of an error shows the gaps, the failure does not. -/
theorem agree_fail (failure : ParseFailure) (span span' : Span) :
    Agree R (fail failure span : Reader α) (fail failure span' : Reader α') := fun _ _ hc => .error rfl hc

/-! ## Balanced text -/

theorem takeBalanced_congr {ts us : List Token} (h : ts.map Token.bare = us.map Token.bare) (stop : TokenKind → Bool)
    (depth : Nat) : (takeBalanced stop depth ts).1.map Token.bare = (takeBalanced stop depth us).1.map Token.bare := by
  induction ts generalizing us depth with
  | nil =>
    obtain rfl : us = [] := by simpa using h.symm
    rfl
  | cons t ts ih =>
    obtain ⟨u, us, rfl, hu, hus⟩ := List.map_eq_cons_iff.mp h.symm
    rw [takeBalanced, takeBalanced, kind_congr hu]
    split
    · rfl
    · simp [ih hus.symm, hu]

/-- A reader that takes the tokens up to a place that only depends on their kinds. -/
theorem parallel_takeBalanced (h : c.Parallel c') (stop : TokenKind → Bool) (depth : Nat) :
    (c.jump (takeBalanced stop depth c.rest).1 (takeBalanced stop depth c.rest).2).Parallel
      (c'.jump (takeBalanced stop depth c'.rest).1 (takeBalanced stop depth c'.rest).2) :=
  h.jump (takeBalanced_append stop depth c.rest).symm (takeBalanced_append stop depth c'.rest).symm
    (takeBalanced_congr h.rest stop depth)

theorem agree_inside : Agree (fun ts us => ts.map Token.bare = us.map Token.bare) inside inside := by
  intro c c' hc
  have hd := parallel_takeBalanced hc (· == .rightParen) 0
  have hkind := kind_congr hd.current
  unfold inside
  simp only [hkind]
  split
  · exact .error rfl hd
  · exact .ok (takeBalanced_congr hc.rest _ _) hd

instance : IgnoresGaps toNextDefinition := by
  constructor
  intro c c' hc
  have hd := parallel_takeBalanced hc (fun k => k == .comma || k == .rightParen) 0
  have hkind := kind_congr hd.current
  unfold toNextDefinition
  simp only [hkind]
  split
  · exact .error rfl hd
  · exact .ok rfl hd

instance : IgnoresGaps parenthesized :=
  ⟨agree_bind fun _ => agree_inside.bind fun _ _ _ => IgnoresGaps.agree (r := skip)⟩

instance : IgnoresGaps compactExpression :=
  ⟨agree_inside.bind fun _ _ h => agree_pure (by rw [compact_congr h])⟩

/-! ## Loops -/

/-- Two turns come to the same. -/
inductive Turn.Agree (R : α → α' → Prop) (S : β → β' → Prop) : Turn α β → Turn α' β' → Prop where
  | again {a : α} {a' : α'} (h : R a a') : Agree R S (.again a) (.again a')
  | done {b : β} {b' : β'} (h : S b b') : Agree R S (.done b) (.done b')

theorem agree_loop {step : α → Reader (Turn α β)} {step' : α' → Reader (Turn α' β')} [∀ a, Progresses (step a)]
    [∀ a, Progresses (step' a)] (hstep : ∀ a a', R a a' → Agree (Turn.Agree R S) (step a) (step' a')) {a : α} {a' : α'}
    (h : R a a') : Agree S (loop step a) (loop step' a') := by
  intro c c' hc
  -- a loop ends because each turn but the last leaves fewer tokens
  induction hn : c.rest.length using Nat.strongRecOn generalizing a a' c c' with
  | ind n ih =>
    subst hn
    rcases (hstep a a' h c c' hc).exists with ⟨_, _, d, d', hx, hy, hturn, hd⟩ | ⟨e, e', d, d', hx, hy, he, hd⟩
    · cases hturn with
      | again hnext =>
        have hloop := ih _ (Progresses.progresses hx) hnext d d' hd rfl
        rw [loop, loop, hx, hy]
        exact hloop
      | done hlast =>
        rw [loop, loop, hx, hy]
        exact .ok hlast hd
    · rw [loop, loop, hx, hy]
      exact .error he hd

theorem Turn.Agree.eq {t t' : Turn α β} (h : Turn.Agree Eq Eq t t') : t = t' := by
  cases h with
  | again h => rw [h]
  | done h => rw [h]

theorem Turn.Agree.refl (t : Turn α β) : Turn.Agree Eq Eq t t := by
  cases t with
  | again a => exact .again rfl
  | done b => exact .done rfl

instance {step : α → Reader (Turn α β)} [∀ a, Progresses (step a)] [hs : ∀ a, IgnoresGaps (step a)] (a : α) :
    IgnoresGaps (loop step a) := by
  refine ⟨agree_loop (R := Eq) (fun a a' h => ?_) rfl⟩
  subst h
  exact (hs a).agree.mono fun _ _ _ _ t t' _ _ _ _ heq => heq ▸ .refl t

theorem agree_turnAtComma {a : α} {a' : α'} (h : R a a') : Agree (Turn.Agree R R) (turnAtComma a) (turnAtComma a') := by
  intro c c' hc
  unfold turnAtComma
  rw [kind_congr hc.current]
  split
  · exact .ok (.again h) hc.advance
  · exact .ok (.done h) hc

instance (a : α) : IgnoresGaps (turnAtComma a) :=
  ⟨(agree_turnAtComma rfl).mono fun _ _ _ _ _ _ _ _ _ _ h => h.eq⟩

/-! ## Clauses -/

instance : IgnoresGaps sortOrder := by unfold sortOrder; infer_instance

instance : IgnoresGaps conflictClause := by
  have hresolution : IgnoresGaps (current >>= fun t => if isResolution t.keyword? then skip else unexpected .resolution) :=
    ignoresGaps_bind_token agree_current fun _ _ h => by rw [keyword?_congr h]
  unfold conflictClause
  infer_instance

instance : IgnoresGaps closedExpression := by unfold closedExpression; infer_instance

instance : IgnoresGaps innerCheck := by unfold innerCheck; infer_instance

instance : IgnoresGaps generatedTail := by unfold generatedTail; infer_instance

instance (column : String) : IgnoresGaps (checkExpression column) := by
  have hsecond (first : Token) : IgnoresGaps (following >>= fun second =>
      if nameOf? first == some column && second.keyword? == some .check then innerCheck else closedExpression) :=
    ignoresGaps_bind_token agree_following fun _ _ h => by rw [keyword?_congr h]
  have hfirst : IgnoresGaps (current >>= fun first => following >>= fun second =>
      if nameOf? first == some column && second.keyword? == some .check then innerCheck else closedExpression) :=
    ignoresGaps_bind_token agree_current fun _ _ h => by rw [nameOf?_congr h]
  unfold checkExpression
  infer_instance

instance : IgnoresGaps defaultValue := by
  have hnumber (first : List Char) : IgnoresGaps (current >>= fun number => if number.kind == .number then (do
      skip
      return String.ofList (first ++ number.text)) else unexpected .number : Reader String) :=
    ignoresGaps_bind_token agree_current fun _ _ h => by rw [kind_congr h, text_congr h]
  have hfirst (first : Token) : IgnoresGaps (match defaultStart first.kind with
      | .group => do skip; return "(" ++ (← closedExpression) ++ ")"
      | .sign => do
        skip
        let number ← current
        if number.kind == .number then
          skip
          return String.ofList (first.text ++ number.text)
        else unexpected .number
      | .single => do skip; return String.ofList first.text
      | .none => unexpected .defaultValue : Reader String) := by split <;> infer_instance
  exact ignoresGaps_bind_token agree_current fun _ _ h => by rw [kind_congr h, text_congr h]

theorem head?_kind_congr {ts us : List Token} (h : ts.map Token.bare = us.map Token.bare) :
    us.head?.map Token.kind = ts.head?.map Token.kind := by
  have hhead := congrArg (fun l => l.head?.map Prod.fst) h.symm
  simpa [List.head?_map, Function.comp_def, Token.bare] using hhead

/-- How a foreign key clause is cut off depends on kinds only. -/
theorem takeForeignKey_kinds {ts us : List Token} (h : ts.map Token.bare = us.map Token.bare) (previous : TokenKind)
    (depth : Nat) :
    (takeForeignKey previous depth ts).taken.map Token.bare = (takeForeignKey previous depth us).taken.map Token.bare ∧
      (takeForeignKey previous depth ts).depth = (takeForeignKey previous depth us).depth := by
  induction ts generalizing us previous depth with
  | nil =>
    obtain rfl : us = [] := by simpa using h.symm
    exact ⟨rfl, rfl⟩
  | cons t ts ih =>
    obtain ⟨u, us, rfl, hu, hus⟩ := List.map_eq_cons_iff.mp h.symm
    have hnext := head?_kind_congr hus.symm
    have hkind : u.kind = t.kind := kind_congr hu
    obtain ⟨htaken, hdepth⟩ := ih hus.symm t.kind (depthAfter depth t.kind)
    cases depth with
    | zero =>
      simp only [takeForeignKey, hkind, hnext]
      split
      · exact ⟨rfl, rfl⟩
      · exact ⟨by simp [htaken, hu], hdepth⟩
    | succ n =>
      simp only [takeForeignKey, hkind]
      split
      · exact ⟨rfl, rfl⟩
      · exact ⟨by simp [htaken, hu], hdepth⟩

instance : IgnoresGaps foreignKeyTail := by
  refine ⟨fun c c' hc => ?_⟩
  have hprevious := head?_kind_congr hc.read
  obtain ⟨htaken, hdepth⟩ := takeForeignKey_kinds hc.rest ((c.read.head?.map Token.kind).getD .eof) 0
  have hd := hc.jump (takeForeignKey_append _ 0 c.rest).symm (takeForeignKey_append _ 0 c'.rest).symm htaken
  unfold foreignKeyTail
  simp only [hprevious, ← hdepth, ← kind_congr hd.current]
  split
  · exact .ok rfl hd
  · exact .error rfl hd

/-- What was read since a place is the same but for the gaps. -/
instance (m : Nat) (column : Option String) : IgnoresGaps (discardSince m column) := by
  refine ⟨fun c c' hc => ?_⟩
  have hsince (ts : List Token) : ((ts.reverse.drop (min m ts.length)).take (ts.length - m)) = (ts.take (ts.length - m)).reverse := by
    have hlength : ts.length - min m ts.length = ts.length - m := by omega
    rw [List.drop_reverse, hlength, List.take_of_length_le]
    rw [List.length_reverse]
    exact List.length_take_le ..
  have hlength := hc.length_read
  rw [discardSince_eq, discardSince_eq]
  refine .ok rfl ⟨hc.read, hc.rest, .cons ⟨column, min m c.read.length, c.read.length - m, ?_, ?_, ?_, ?_⟩ hc.discarded,
    hc.inRow, hc.inRow'⟩
  · rw [List.length_reverse]
    change _ ≤ c.read.length
    omega
  · rw [List.length_reverse]
    change _ ≤ c'.read.length
    omega
  · exact congrArg (entry column) (hsince c.read).symm
  · rw [hlength]
    exact congrArg (entry column) (hsince c'.read).symm

/-! ### Types -/

theorem source_of_typeName {s : String} {ts rest : List Token} (h : TypeName s ts rest) :
    s = String.ofList (Token.source ts) ∧ ∀ t ∈ ts, t.kind.isEnd = false := by
  cases h with
  | given hts => exact ⟨rfl, hts.proper⟩
  | none => exact ⟨rfl, by simp⟩

theorem takeWhile_isTypeWord {ts us : List Token} (h : ts.map Token.bare = us.map Token.bare) :
    (ts.takeWhile isTypeWord).map Token.bare = (us.takeWhile isTypeWord).map Token.bare := by
  induction ts generalizing us with
  | nil =>
    obtain rfl : us = [] := by simpa using h.symm
    rfl
  | cons t ts ih =>
    obtain ⟨u, us, rfl, hu, hus⟩ := List.map_eq_cons_iff.mp h.symm
    rw [List.takeWhile_cons, List.takeWhile_cons, isTypeWord_congr (kind_congr hu)]
    split
    · simp [ih hus.symm, hu]
    · rfl

instance : IgnoresGaps typeWords :=
  ⟨fun _ _ hc => .ok rfl (hc.jump List.takeWhile_append_dropWhile.symm List.takeWhile_append_dropWhile.symm
    (takeWhile_isTypeWord hc.rest))⟩

/-- Tokens that stand in a row are the tokens of their source. -/
theorem sameWords_source {ts us : List Token} (hts : InRow ts) (hus : InRow us) (hproper : ∀ t ∈ ts, t.kind.isEnd = false)
    (hproper' : ∀ t ∈ us, t.kind.isEnd = false) (h : ts.map Token.bare = us.map Token.bare) :
    SameWords (String.ofList (Token.source ts)) (String.ofList (Token.source us)) := by
  obtain ⟨vs, e, hvs, hbare, -, he, -, hetext⟩ := hts.alone hproper 0
  obtain ⟨vs', e', hvs', hbare', -, he', -, hetext'⟩ := hus.alone hproper' 0
  have hend : e.bare = e'.bare := by rw [Token.bare, Token.bare, he, he', hetext, hetext']
  constructor
  · rw [tokenize, tokenize, String.toList_ofList, String.toList_ofList, hvs, hvs', List.map_append, List.map_append, hbare,
      hbare', h, List.map_singleton, List.map_singleton, hend]
  · intro hlength
    rw [tokenize, String.toList_ofList, hvs, List.length_append, List.length_singleton] at hlength
    have hlengths : vs.length = ts.length := by simpa using congrArg List.length hbare
    cases ts with
    | nil =>
      obtain rfl : us = [] := by simpa using h.symm
      rfl
    | cons t ts =>
      obtain rfl : ts = [] := List.length_eq_zero_iff.mp (by rw [List.length_cons] at hlengths; omega)
      obtain ⟨u, rfl, hu⟩ := List.map_eq_singleton_iff.mp h.symm
      simp [Token.source, text_congr hu]

/-- Of a type only the gaps inside it differ. -/
theorem agree_typeName : Agree SameWords typeName typeName := by
  have hsteps : Agree (fun _ _ => True) typeName typeName := by
    have hsource (m : Nat) : Agree (fun _ _ => True) (sourceSince m) (sourceSince m) := fun _ _ hc => .ok trivial hc
    refine agree_bind fun m => agree_current.bind fun t u h => ?_
    rw [isTypeWord_congr (kind_congr h)]
    split
    · refine agree_bind fun _ => agree_bind fun b => ?_
      split
      · exact agree_bind fun _ => hsource m
      · exact hsource m
    · exact hsource m
  refine hsteps.mono fun c c' d d' s s' hc hs hs' hd _ => ?_
  obtain ⟨ts, rest, hts, htype, rfl⟩ := (takes_typeName c s d).mp hs
  obtain ⟨us, rest', hus, htype', rfl⟩ := (takes_typeName c' s' d').mp hs'
  have hread := hd.read
  simp only [Cursor.jump, List.map_append, hc.read, List.map_reverse] at hread
  have hbare : ts.map Token.bare = us.map Token.bare := List.reverse_injective (List.append_cancel_right hread)
  have hrow := hc.inRow
  have hrow' := hc.inRow'
  rw [hts] at hrow
  rw [hus] at hrow'
  obtain ⟨rfl, hproper⟩ := source_of_typeName htype
  obtain ⟨rfl, hproper'⟩ := source_of_typeName htype'
  exact sameWords_source hrow.left hrow'.left hproper hproper' hbare

/-! ## Columns -/

end Reader

namespace Field.SameLayout

variable {f g : Field}

theorem name (h : f.SameLayout g) : g.name = f.name := by rw [h.same]

/-- A change that leaves the type alone is the same in both layouts. -/
theorem map (h : f.SameLayout g) (change : Field → Field)
    (hchange : ∀ f s, change { f with sqlType := s } = { change f with sqlType := s }) : (change f).SameLayout (change g) := by
  have hself : (change f).sqlType = f.sqlType := by
    have hf := hchange f f.sqlType
    rw [hf]
  have hchanged : change g = { change f with sqlType := g.sqlType } := by
    conv_lhs => rw [h.same]
    exact hchange f g.sqlType
  constructor
  · rw [hchanged]
  · rw [hchanged, hself]
    exact h.sqlType

end Field.SameLayout

namespace Reader

variable {f g : Field}

/-- The constraints of a column do not look at its type. -/
theorem agree_constraintTail (h : f.SameLayout g) (m : Nat) (k : Keyword) :
    Option.Rel (Agree Field.SameLayout) (constraintTail m f k) (constraintTail m g k) := by
  have hname := h.name
  cases k with
  | constraint => exact .some (agree_bind fun _ => agree_pure h)
  | primary =>
    refine .some (agree_bind fun _ => agree_bind fun _ => agree_bind fun _ => agree_bind fun b => ?_)
    split
    · exact agree_bind fun _ => agree_pure (h.map (fun f => { f with primaryKey := true, autoIncrement := true }) fun _ _ => rfl)
    · exact agree_pure (h.map Field.asPrimaryKey fun _ _ => rfl)
  | not => exact .some (agree_bind fun _ => agree_bind fun _ => agree_pure (h.map Field.asNotNull fun _ _ => rfl))
  | null => exact .some (agree_bind fun _ => agree_pure h)
  | unique => exact .some (agree_bind fun _ => agree_pure (h.map Field.asUnique fun _ _ => rfl))
  | check =>
    have hcheck : Agree Eq (checkExpression f.name) (checkExpression g.name) := hname ▸ IgnoresGaps.agree
    exact .some (hcheck.bind fun check _ heq => agree_pure (heq ▸ h.map (fun f => { f with check }) fun _ _ => rfl))
  | default => exact .some (agree_bind fun defaultValue => agree_pure (h.map (fun f => { f with defaultValue }) fun _ _ => rfl))
  | collate =>
    simp only [constraintTail, hname]
    exact .some (agree_bind fun _ => agree_bind fun _ => agree_pure h)
  | references =>
    simp only [constraintTail, hname]
    exact .some (agree_bind fun _ => agree_bind fun _ => agree_bind fun _ => agree_pure h)
  | generated =>
    simp only [constraintTail, hname]
    exact .some (agree_bind fun _ => agree_bind fun _ => agree_bind fun _ => agree_bind fun _ => agree_pure h)
  | as =>
    simp only [constraintTail, hname]
    exact .some (agree_bind fun _ => agree_bind fun _ => agree_pure h)
  | _ => exact .none

theorem agree_columnConstraint (h : f.SameLayout g) :
    Agree (Turn.Agree Field.SameLayout Field.SameLayout) (columnConstraint f) (columnConstraint g) := by
  intro c c' hc
  unfold columnConstraint
  rw [← keyword?_congr hc.current, ← hc.length_read]
  cases hk : c.current.keyword? with
  | none => exact .ok (.done h) hc
  | some k =>
    have htail := agree_constraintTail h c.read.length k
    simp only [Option.bind_some]
    cases hf : constraintTail c.read.length f k with
    | none =>
      rw [hf] at htail
      cases hg : constraintTail c.read.length g k with
      | none => exact .ok (.done h) hc
      | some _ =>
        rw [hg] at htail
        cases htail
    | some r =>
      rw [hf] at htail
      cases hg : constraintTail c.read.length g k with
      | none =>
        rw [hg] at htail
        cases htail
      | some r' =>
        rw [hg] at htail
        cases htail with
        | some hr => exact agree_bind (fun _ => hr.bind fun _ _ h => agree_pure (.again h)) c c' hc

theorem agree_columnDefinition : Agree Field.SameLayout columnDefinition columnDefinition :=
  agree_bind fun _ => agree_typeName.bind fun _ _ h => agree_loop (fun _ _ => agree_columnConstraint) ⟨rfl, h⟩

end Reader

/-! ## Tables -/

section
variable {fs gs : List Field}

theorem map_name_of_sameLayout (h : List.Forall₂ Field.SameLayout fs gs) : gs.map Field.name = fs.map Field.name := by
  induction h with
  | nil => rfl
  | cons hfg _ ih => rw [List.map_cons, List.map_cons, ih, hfg.name]

theorem find?_sameLayout (h : List.Forall₂ Field.SameLayout fs gs) (name : String) :
    Option.Rel Field.SameLayout (fs.find? (·.isNamed name)) (gs.find? (·.isNamed name)) := by
  induction h with
  | nil => exact .none
  | @cons f g fs gs hfg _ ih =>
    have hnamed : g.isNamed name = f.isNamed name := by rw [Field.isNamed, Field.isNamed, hfg.name]
    rw [List.find?_cons, List.find?_cons, hnamed]
    split
    · exact .some hfg
    · exact ih

theorem modify_sameLayout (h : List.Forall₂ Field.SameLayout fs gs) (i : Nat) :
    List.Forall₂ Field.SameLayout (fs.modify i Field.asPrimaryKey) (gs.modify i Field.asPrimaryKey) := by
  induction h generalizing i with
  | nil => simp
  | cons hfg hrest ih =>
    cases i with
    | zero => exact .cons (hfg.map Field.asPrimaryKey fun _ _ => rfl) hrest
    | succ i => exact .cons hfg (ih i)

end

namespace Table.SameLayout

variable {t u : Table} (h : t.SameLayout u)
include h

theorem addField {f g : Field} (hfg : f.SameLayout g) : (t.addField f).SameLayout (u.addField g) := by
  refine ⟨?_, List.rel_append h.fields (.cons hfg .nil)⟩
  rw [Table.addField, h.same]
  rfl

theorem field? (name : String) : Option.Rel Field.SameLayout (t.field? name) (u.field? name) := find?_sameLayout h.fields name

theorem asPrimaryKey (name : String) :
    Option.Rel Table.SameLayout (t.modifyField? name Field.asPrimaryKey) (u.modifyField? name Field.asPrimaryKey) := by
  have hfind : u.find? name = t.find? name := Items.findIdx?_of_map_name (map_name_of_sameLayout h.fields) name
  rw [modifyField?, modifyField?, hfind]
  cases t.find? name with
  | none => exact .none
  | some i =>
    refine .some ⟨?_, modify_sameLayout h.fields i⟩
    rw [h.same]

theorem primaryKey : List.Forall₂ Field.SameLayout t.primaryKey u.primaryKey := by
  refine List.rel_filter (fun f g hfg => ?_) h.fields
  rw [hfg.same]

theorem setPrimaryKeyOrder (names : List String) : (t.setPrimaryKeyOrder names).SameLayout (u.setPrimaryKeyOrder names) := by
  refine ⟨?_, h.fields⟩
  rw [Table.setPrimaryKeyOrder, Table.setPrimaryKeyOrder, map_name_of_sameLayout h.primaryKey, h.same]

theorem isEmpty_primaryKey : u.primaryKey.isEmpty = t.primaryKey.isEmpty := by
  have hkey := h.primaryKey
  match t.primaryKey, u.primaryKey, hkey with
  | [], [], _ => rfl
  | _ :: _, _ :: _, _ => rfl

theorem setWithoutRowid : (t.setWithoutRowid true).SameLayout (u.setWithoutRowid true) := by
  refine ⟨?_, h.fields⟩
  have hcolumn : (u.setWithoutRowid true).rowidColumn = (t.setWithoutRowid true).rowidColumn := by
    have hkey := h.primaryKey
    unfold Table.setWithoutRowid
    match t.primaryKey, u.primaryKey, hkey with
    | [], [], _ => rfl
    | _ :: _, _ :: _, .cons hfg _ => exact hfg.name
  have heq (t : Table) : t.setWithoutRowid true =
      { t with withoutRowid := true, rowidColumn := (t.setWithoutRowid true).rowidColumn } := rfl
  rw [heq u, heq t, hcolumn, h.same]

end Table.SameLayout

namespace Reader

variable {t u : Table}

/-- A key that is being read, in two layouts of its table. -/
structure KeyList.SameLayout (keys keys' : KeyList) : Prop where
  table : keys.table.SameLayout keys'.table
  listed : keys.listed = keys'.listed

/-- What is done with a column of a key once it has been read. -/
theorem agree_addKeyColumn {keys keys' : KeyList} (h : keys.SameLayout keys') (start start' : Token) (column : String) :
    Agree KeyList.SameLayout
      (match keys.table.field? column, keys.table.modifyField? column Field.asPrimaryKey with
        | some field, some table => return { table, listed := keys.listed ++ [field.name] }
        | _, _ => fail (.unknownKeyColumn column) start.span : Reader KeyList)
      (match keys'.table.field? column, keys'.table.modifyField? column Field.asPrimaryKey with
        | some field, some table => return { table, listed := keys'.listed ++ [field.name] }
        | _, _ => fail (.unknownKeyColumn column) start'.span : Reader KeyList) := by
  have hfield := h.table.field? column
  have hmodify := h.table.asPrimaryKey column
  revert hfield hmodify
  generalize keys.table.field? column = x, keys'.table.field? column = x'
  generalize keys.table.modifyField? column Field.asPrimaryKey = y, keys'.table.modifyField? column Field.asPrimaryKey = y'
  rintro (hfg | _) (htu | _)
  · refine agree_pure ⟨htu, ?_⟩
    rw [h.listed, hfg.name]
  · exact agree_fail _ _ _
  · exact agree_fail _ _ _
  · exact agree_fail _ _ _

theorem agree_keyColumn {keys keys' : KeyList} (h : keys.SameLayout keys') :
    Agree KeyList.SameLayout (keyColumn keys) (keyColumn keys') := by
  have hsorted (start start' : Token) (column : String) :=
    agree_bind (r := sortOrder) fun _ => agree_addKeyColumn h start start' column
  refine agree_current.bind fun start start' _ => agree_bind fun column => agree_bind fun collated => ?_
  cases collated with
  | false => exact hsorted start start' column
  | true => exact agree_bind (r := skip) fun _ => agree_bind (r := expectName) fun _ => hsorted start start' column

theorem agree_keyColumns (h : t.SameLayout u) : Agree Table.SameLayout (keyColumns t) (keyColumns u) := by
  have hturn (keys keys' : KeyList) (hkeys : keys.SameLayout keys') :
      Agree (Turn.Agree KeyList.SameLayout KeyList.SameLayout) (keyColumn keys >>= turnAtComma)
        (keyColumn keys' >>= turnAtComma) := (agree_keyColumn hkeys).bind fun _ _ => agree_turnAtComma
  have hstart : KeyList.SameLayout ⟨t, []⟩ ⟨u, []⟩ := ⟨h, rfl⟩
  refine (agree_loop hturn hstart).bind fun keys keys' hkeys => agree_bind fun _ => agree_pure ?_
  rw [hkeys.listed]
  exact hkeys.table.setPrimaryKeyOrder _

theorem agree_tableConstraint (h : t.SameLayout u) : Agree Table.SameLayout (tableConstraint t) (tableConstraint u) := by
  have htail (m : Nat) (k : Option Keyword) :
      Agree Table.SameLayout (tableConstraintTail m t k) (tableConstraintTail m u k) := by
    unfold tableConstraintTail
    split
    · exact agree_bind fun _ => agree_bind fun _ => agree_bind fun _ => (agree_keyColumns h).bind fun _ _ h =>
        agree_bind fun _ => agree_pure h
    · exact agree_bind fun _ => agree_bind fun _ => agree_bind fun _ => agree_bind fun _ => agree_pure h
    · exact agree_bind fun _ => agree_bind fun _ => agree_bind fun _ => agree_pure h
    · exact agree_bind fun _ => agree_bind fun _ => agree_bind fun _ => agree_bind fun _ => agree_bind fun _ => agree_pure h
    · exact fun c c' hc => .error (by rw [kind_congr hc.current]) hc
  have hcurrent (m : Nat) : Agree Table.SameLayout (current >>= fun t' => tableConstraintTail m t t'.keyword?)
      (current >>= fun u' => tableConstraintTail m u u'.keyword?) :=
    agree_current.bind fun _ _ hbare => keyword?_congr hbare ▸ htail m _
  refine agree_bind fun m => agree_bind fun labelled => ?_
  split
  · exact agree_bind fun _ => agree_bind fun _ => hcurrent m
  · exact hcurrent m

instance : IgnoresGaps atTableConstraint := by
  refine ⟨fun c c' hc => ?_⟩
  rw [atTableConstraint_eq, atTableConstraint_eq]
  refine .ok ?_ hc
  have hfirst : kindOf c.rest = kindOf c'.rest := by
    rw [← Cursor.kind_current, ← Cursor.kind_current, kind_congr hc.current]
  have hsecond : kindOf c.rest.tail = kindOf c'.rest.tail := by
    have hadvanced := kind_congr hc.advance.current
    rwa [Cursor.kind_current, Cursor.kind_current] at hadvanced
  rw [startsTableConstraint, startsTableConstraint, hfirst, hsecond]

theorem agree_definition (h : t.SameLayout u) : Agree Table.SameLayout (definition t) (definition u) := by
  refine agree_bind fun constrains => ?_
  split
  · exact agree_tableConstraint h
  · exact agree_columnDefinition.bind fun _ _ hfg => agree_pure (h.addField hfg)

instance (withoutRowid : Bool) : IgnoresGaps (tableOption withoutRowid) := by unfold tableOption; infer_instance

instance : IgnoresGaps createTable := by
  have htable : IgnoresGaps (do
      expectKeyword .table
      if ← atKeyword .if then
        skip
        expectKeyword .not
        expectKeyword .exists : Reader Unit) := inferInstance
  refine ⟨agree_bind fun _ => agree_bind fun temp => agree_bind fun temporary => ?_⟩
  cases temp || temporary with
  | false => exact htable.agree
  | true => exact agree_bind (r := skip) fun _ => htable.agree

instance : IgnoresGaps tableName := by unfold tableName; infer_instance

instance : IgnoresGaps endOfStatement := by unfold endOfStatement; infer_instance

/-- The last part of a statement, which only looks at the key of the table. -/
theorem agree_finish (h : t.SameLayout u) (withoutRowid : Bool) : Agree Table.SameLayout
    (if withoutRowid = true then
        if t.primaryKey.isEmpty = true then
          previousSpan >>= fun span => (fail .withoutRowidWithoutKey span : Reader Unit) >>= fun _ =>
            pure (t.setWithoutRowid true)
        else pure (t.setWithoutRowid true)
      else pure t)
    (if withoutRowid = true then
        if u.primaryKey.isEmpty = true then
          previousSpan >>= fun span => (fail .withoutRowidWithoutKey span : Reader Unit) >>= fun _ =>
            pure (u.setWithoutRowid true)
        else pure (u.setWithoutRowid true)
      else pure u) := by
  rw [h.isEmpty_primaryKey]
  split
  · split
    · exact fun _ _ hc => .error rfl hc
    · exact agree_pure h.setWithoutRowid
  · exact agree_pure h

theorem agree_table : Agree Table.SameLayout table table := by
  have hturn (t u : Table) (h : t.SameLayout u) : Agree (Turn.Agree Table.SameLayout Table.SameLayout)
      (definition t >>= turnAtComma) (definition u >>= turnAtComma) := (agree_definition h).bind fun _ _ => agree_turnAtComma
  have hstart (name : String) : ({ name } : Table).SameLayout { name } := ⟨rfl, .nil⟩
  refine agree_bind fun _ => agree_bind fun name => agree_bind fun select => ?_
  cases select with
  | true => exact fun _ _ hc => .error rfl hc
  | false =>
    simp only [Bool.false_eq_true, if_false]
    exact agree_bind fun _ => (agree_loop hturn (hstart name)).bind fun _ _ h => agree_bind fun _ =>
      agree_bind fun withoutRowid => agree_bind fun _ => agree_finish h withoutRowid

end Reader

/-! ## Statements -/

namespace Table

variable {s s' : String}

/-- Statements with the same tokens are read in the same way. -/
theorem sameOutcome_readStatement (h : (tokenize s).map Token.bare = (tokenize s').map Token.bare) :
    SameOutcome Table.SameLayout (readStatement s) (readStatement s') :=
  Reader.agree_table _ _ (Cursor.parallel_start h)

theorem exists_parse_of_tokens {t : Table} (h : (tokenize s).map Token.bare = (tokenize s').map Token.bare)
    (ht : parse s = .ok t) : ∃ t', parse s' = .ok t' ∧ t.SameLayout t' := by
  have houtcome := sameOutcome_readStatement h
  unfold parse at ht ⊢
  revert ht houtcome
  generalize readStatement s = x, readStatement s' = y
  rintro ht (⟨hsame, -⟩ | -)
  · cases ht
    exact ⟨_, rfl, hsame⟩
  · cases ht

/-- What an accepted statement has read is the front of its tokens. -/
theorem tokenize_eq_read_append {t : Table} {c : Cursor} (h : readStatement s = .ok t c) :
    ∃ rest, tokenize s = c.read.reverse ++ rest := by
  obtain ⟨_, ts, rest, hs, -, rfl⟩ := (Reader.records_table ..).mp h
  refine ⟨rest, ?_⟩
  simpa [Cursor.record, Cursor.jump, Cursor.start] using hs

/-- The layout of a statement does not matter: either the same failure is met, or the tables are the same but for the
layout of types, and the same clauses are discarded in the same order. -/
theorem parse_of_sameTokens (h : (tokenize s).map Token.bare = (tokenize s').map Token.bare) :
    (∃ e e', parse s = .error e ∧ parse s' = .error e' ∧
      e.text = e'.text ∧ e.expected? = e'.expected? ∧ e.found? = e'.found?) ∨
    ∃ t t', parse s = .ok t ∧ parse s' = .ok t' ∧ t.SameLayout t' ∧
      List.Forall₂ (SameEntry (tokenize s) (tokenize s')) (discardedClauses s) (discardedClauses s') := by
  rcases (sameOutcome_readStatement h).exists with ⟨t, t', c, c', hs, hs', hsame, hc⟩ | ⟨e, e', c, c', hs, hs', hfailure, -⟩
  · right
    obtain ⟨rest, htokens⟩ := tokenize_eq_read_append hs
    obtain ⟨rest', htokens'⟩ := tokenize_eq_read_append hs'
    refine ⟨t, t', by rw [parse, hs], by rw [parse, hs'], hsame, ?_⟩
    rw [discardedClauses, discardedClauses, hs, hs', List.forall₂_reverse_iff, htokens, htokens']
    exact hc.discarded.imp fun _ _ hentry => hentry.append rest rest'
  · left
    refine ⟨e, e', by rw [parse, hs], by rw [parse, hs'], ?_, ?_, ?_⟩
    · rw [ParseError.text, ParseError.text, hfailure]
    · rw [ParseError.expected?, ParseError.expected?, hfailure]
    · rw [ParseError.found?, ParseError.found?, hfailure]

/-- A comment inside a type stays in the type, and a line break inside a clause in the clause. The wording of an error does
not show what stands between the tokens. -/
theorem parse_of_sameTokens_comments :
    (∃ t t', parse "CREATE TABLE t (a double precision, b text COLLATE nocase)" = .ok t ∧
      parse "CREATE TABLE t(a double/* eight bytes */precision,\n b text -- a name\n COLLATE\n nocase)" = .ok t' ∧
      t.SameLayout t' ∧ t.fields.map Field.sqlType = ["double precision", "text"] ∧
      t'.fields.map Field.sqlType = ["double/* eight bytes */precision", "text"] ∧
      discardedClauses "CREATE TABLE t(a double/* eight bytes */precision,\n b text -- a name\n COLLATE\n nocase)" =
        ["b COLLATE\n nocase"]) ∧
    ∃ e e', parse "CREATE TABLE t (a text" = .error e ∧ parse "CREATE TABLE\nt (a -- a name\ntext" = .error e' ∧
      e.text = e'.text ∧ e.span ≠ e'.span := by
  have hdoubles : parse "CREATE TABLE t (a double precision, b text COLLATE nocase)" =
      .ok { name := "t", fields := [{ name := "a", sqlType := "double precision" }, { name := "b", sqlType := "text" }] } := by
    decide +kernel
  have hcomments : parse "CREATE TABLE t(a double/* eight bytes */precision,\n b text -- a name\n COLLATE\n nocase)" =
      .ok { name := "t", fields := [{ name := "a", sqlType := "double/* eight bytes */precision" },
        { name := "b", sqlType := "text" }] } := by decide +kernel
  have hopen : parse "CREATE TABLE t (a text" = .error ⟨.unexpected (.kind .rightParen) .eof, ⟨22, 22⟩⟩ := by decide +kernel
  have hopen' : parse "CREATE TABLE\nt (a -- a name\ntext" = .error ⟨.unexpected (.kind .rightParen) .eof, ⟨32, 32⟩⟩ := by
    decide +kernel
  constructor
  · have htokens : (tokenize "CREATE TABLE t (a double precision, b text COLLATE nocase)").map Token.bare =
        (tokenize "CREATE TABLE t(a double/* eight bytes */precision,\n b text -- a name\n COLLATE\n nocase)").map Token.bare := by
      decide +kernel
    rcases parse_of_sameTokens htokens with ⟨_, _, he, -⟩ | ⟨t, t', ht, ht', hsame, -⟩
    · cases hdoubles.symm.trans he
    · cases hdoubles.symm.trans ht
      cases hcomments.symm.trans ht'
      exact ⟨_, _, hdoubles, hcomments, hsame, rfl, rfl, by decide +kernel⟩
  · have htokens : (tokenize "CREATE TABLE t (a text").map Token.bare =
        (tokenize "CREATE TABLE\nt (a -- a name\ntext").map Token.bare := by decide +kernel
    rcases parse_of_sameTokens htokens with ⟨e, e', he, he', htext, -⟩ | ⟨_, _, ht, -⟩
    · cases hopen.symm.trans he
      cases hopen'.symm.trans he'
      exact ⟨_, _, hopen, hopen', htext, by decide⟩
    · cases hopen.symm.trans ht

end Table

end SchemaEditor
