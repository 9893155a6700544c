import SchemaEditor.Proofs.Sql.Neighbours

/-!
# The places of tokens

The spans of the tokens of a text stand one after the other between its characters, and what stands between two of them is
blanks and comments. Cut out by its span, a token is a token of the same kind again.
-/

namespace SchemaEditor

/-! ## Spans between characters -/

namespace Span

/-- The span begins and ends between characters, and `inside` is the text between. -/
def Covers (sp : Span) (cs inside : List Char) : Prop :=
  ∃ before after, cs = before ++ inside ++ after ∧ sp = ⟨byteLength before, byteLength before + byteLength inside⟩

variable {sp : Span} {cs inside : List Char}

theorem Covers.slice_eq (h : sp.Covers cs inside) : sp.slice cs = inside := by
  obtain ⟨before, after, rfl, rfl⟩ := h
  exact slice_append before inside after

/-- The span begins and ends between characters of the text. -/
def Within (sp : Span) (cs : List Char) : Prop := sp.Covers cs (sp.slice cs)

theorem Covers.within (h : sp.Covers cs inside) : sp.Within cs := by
  rw [Within, h.slice_eq]
  exact h

theorem Within.start_le (h : sp.Within cs) : sp.start ≤ sp.stop := by
  obtain ⟨before, after, -, hsp⟩ := h
  rw [hsp]
  exact Nat.le_add_right ..

theorem Within.stop_le (h : sp.Within cs) : sp.stop ≤ byteLength cs := by
  obtain ⟨before, after, hcs, hsp⟩ := h
  have hlength := congrArg byteLength hcs
  simp only [byteLength_append] at hlength
  rw [hsp]
  simp only
  omega

end Span

theorem byteLength_pos {cs : List Char} (h : cs ≠ []) : 0 < byteLength cs := by
  obtain ⟨c, cs, rfl⟩ := List.exists_cons_of_ne_nil h
  have hc := c.utf8Size_pos
  rw [byteLength_cons]
  omega

/-! ## Blanks and comments -/

/-- Blanks and comments. A comment of a line reaches to the next line feed, any other to the next star with a slash behind it,
and the last comment may be left open. -/
inductive IsGap : List Char → Prop where
  | nil : IsGap []
  | blank {c : Char} {cs : List Char} (hc : Text.isBlank c = true) (h : IsGap cs) : IsGap (c :: cs)
  | line {body cs : List Char} (hbody : '\n' ∉ body) (h : IsGap cs) : IsGap ('-' :: '-' :: (body ++ '\n' :: cs))
  | openLine {body : List Char} (hbody : '\n' ∉ body) : IsGap ('-' :: '-' :: body)
  | block {body cs : List Char} (hbody : ¬['*', '/'] <:+: body) (h : IsGap cs) :
    IsGap ('/' :: '*' :: (body ++ '*' :: '/' :: cs))
  | openBlock {body : List Char} (hbody : ¬['*', '/'] <:+: body) : IsGap ('/' :: '*' :: body)

section
variable {body : List Char}

theorem splitGap_line (hbody : '\n' ∉ body) (cs : List Char) :
    (splitGap .line (body ++ '\n' :: cs)).2 = (splitGap .blank cs).2 := by
  induction body with
  | nil => simp [splitGap]
  | cons c body ih =>
    simp only [List.mem_cons, not_or] at hbody
    simp [splitGap, Ne.symm hbody.1, ih hbody.2]

theorem splitGap_openLine (hbody : '\n' ∉ body) : (splitGap .line body).2 = [] := by
  induction body with
  | nil => rfl
  | cons c body ih =>
    simp only [List.mem_cons, not_or] at hbody
    simp [splitGap, Ne.symm hbody.1, ih hbody.2]

/-- A character of a comment that does not begin its end. -/
theorem splitGap_block_cons {c : Char} {cs : List Char} (h : ¬['*', '/'] <+: c :: cs) :
    (splitGap .block (c :: cs)).2 = (splitGap .block cs).2 := by
  rw [splitGap.eq_6]
  rintro cs' rfl rfl
  exact h ⟨cs', rfl⟩

theorem splitGap_block (hbody : ¬['*', '/'] <:+: body) (cs : List Char) :
    (splitGap .block (body ++ '*' :: '/' :: cs)).2 = (splitGap .blank cs).2 := by
  induction body with
  | nil => simp [splitGap]
  | cons c body ih =>
    rw [List.infix_cons_iff, not_or] at hbody
    rw [List.cons_append, splitGap_block_cons, ih hbody.2]
    rintro ⟨rest, hrest⟩
    obtain ⟨rfl, htail⟩ := List.cons.inj hrest
    cases body with
    | nil => cases htail
    | cons d body =>
      obtain ⟨rfl, -⟩ := List.cons.inj htail
      exact hbody.1 ⟨body, rfl⟩

theorem splitGap_openBlock (hbody : ¬['*', '/'] <:+: body) : (splitGap .block body).2 = [] := by
  induction body with
  | nil => rfl
  | cons c body ih =>
    rw [List.infix_cons_iff, not_or] at hbody
    rw [splitGap_block_cons hbody.1, ih hbody.2]

end

/-- The first place where `*/` stands. -/
theorem exists_block_end {cs : List Char} (h : ['*', '/'] <:+: cs) :
    ∃ body rest, cs = body ++ '*' :: '/' :: rest ∧ ¬['*', '/'] <:+: body := by
  induction cs with
  | nil => simp at h
  | cons c cs ih =>
    by_cases hstart : ['*', '/'] <+: c :: cs
    · obtain ⟨rest, hrest⟩ := hstart
      exact ⟨[], rest, hrest.symm, by simp⟩
    obtain ⟨body, rest, rfl, hbody⟩ := ih ((List.infix_cons_iff.mp h).resolve_left hstart)
    refine ⟨c :: body, rest, rfl, fun hinfix => ?_⟩
    rcases List.infix_cons_iff.mp hinfix with hfront | hinfix
    · exact hstart (hfront.trans ⟨'*' :: '/' :: rest, rfl⟩)
    · exact hbody hinfix

theorem isGap_of_splitGap {cs : List Char} (h : (splitGap .blank cs).2 = []) : IsGap cs := by
  induction hn : cs.length using Nat.strongRecOn generalizing cs with
  | ind n ih =>
    subst hn
    unfold splitGap at h
    split at h
    · next cs _ =>
      by_cases hline : '\n' ∈ cs
      · obtain ⟨body, rest, rfl, hbody⟩ := List.eq_append_cons_of_mem hline
        rw [splitGap_line hbody] at h
        exact .line hbody (ih _ (by simp; omega) h rfl)
      · exact .openLine hline
    · next cs _ =>
      by_cases hblock : ['*', '/'] <:+: cs
      · obtain ⟨body, rest, rfl, hbody⟩ := exists_block_end hblock
        rw [splitGap_block hbody] at h
        exact .block hbody (ih _ (by simp; omega) h rfl)
      · exact .openBlock hblock
    · next c cs _ _ _ =>
      split at h
      · next hc => exact .blank hc (ih _ (by simp) h rfl)
      · cases h
    all_goals first | exact .nil | contradiction

/-- Blanks and comments are what goes into a gap as a whole. -/
theorem isGap_iff {cs : List Char} : IsGap cs ↔ (splitGap .blank cs).2 = [] := by
  refine ⟨fun h => ?_, isGap_of_splitGap⟩
  induction h with
  | nil => rfl
  | @blank c cs hc _ ih =>
    obtain ⟨hapo, hquote, htick, hminus, hstar, -⟩ := (stops_of_isBlank hc).ne
    have hslash : c ≠ '/' := by
      rintro rfl
      exact absurd hc (by decide)
    rw [splitGap.eq_3 _ _ (fun _ h _ => hminus h) (fun _ h _ => hslash h), if_pos hc]
    exact ih
  | line hbody _ ih => exact (splitGap_line hbody _).trans ih
  | openLine hbody => exact splitGap_openLine hbody
  | block hbody _ ih => exact (splitGap_block hbody _).trans ih
  | openBlock hbody => exact splitGap_openBlock hbody

/-! ## Tokens in place -/

/-- The spans follow from the gaps and texts, if the first gap begins at byte `pos`. -/
def Placed : Nat → List Token → Prop
  | _, [] => True
  | pos, t :: ts =>
    t.span = ⟨pos + byteLength t.gap, pos + byteLength t.gap + byteLength t.text⟩ ∧ Placed t.span.stop ts

theorem placed_tokensFrom (cs : List Char) (pos : Nat) : Placed pos (tokensFrom pos cs) := by
  induction cs using token_induction generalizing pos with
  | atEnd cs gap h =>
    rw [tokensFrom_end h]
    exact ⟨rfl, trivial⟩
  | cons cs gap c rest h ih =>
    rw [tokensFrom_cons h]
    exact ⟨rfl, ih _⟩

/-- Each token with the span of what stands in front of it. The first of them begins at byte `pos`. -/
def withGaps (pos : Nat) : List Token → List (Span × Token)
  | [] => []
  | t :: ts => (⟨pos, t.span.start⟩, t) :: withGaps t.span.stop ts

theorem map_snd_withGaps (pos : Nat) (ts : List Token) : (withGaps pos ts).map Prod.snd = ts := by
  induction ts generalizing pos with
  | nil => rfl
  | cons t ts ih => simp [withGaps, ih]

section
variable {pos : Nat} {ts us : List Token}

theorem Placed.le_start (h : Placed pos ts) : ∀ t ∈ ts, pos ≤ t.span.start := by
  induction ts generalizing pos with
  | nil => simp
  | cons t ts ih =>
    obtain ⟨hspan, hts⟩ := h
    intro u hu
    rcases List.mem_cons.mp hu with rfl | hu
    · rw [hspan]
      exact Nat.le_add_right ..
    · have hle := ih hts u hu
      rw [hspan] at hle
      simp only at hle
      omega

theorem Placed.ordered (h : Placed pos ts) : ts.Pairwise fun t u => t.span.stop ≤ u.span.start := by
  induction ts generalizing pos with
  | nil => exact .nil
  | cons t ts ih => exact .cons h.2.le_start (ih h.2)

theorem Placed.right (h : Placed pos (ts ++ us)) : Placed (pos + byteLength (Token.spelled ts)) us := by
  induction ts generalizing pos with
  | nil => exact h
  | cons t ts ih =>
    obtain ⟨hspan, hts⟩ := h
    have hus := ih hts
    rw [hspan] at hus
    simpa [Token.spelled, Nat.add_assoc] using hus

/-- Gaps and texts are where the spans are. -/
theorem Placed.covers {before : List Char} (h : Placed (byteLength before) ts) :
    ∀ p ∈ withGaps (byteLength before) ts,
      p.1.Covers (before ++ Token.spelled ts) p.2.gap ∧ p.2.span.Covers (before ++ Token.spelled ts) p.2.text := by
  induction ts generalizing before with
  | nil => simp [withGaps]
  | cons t ts ih =>
    obtain ⟨hspan, hts⟩ := h
    have hstop : t.span.stop = byteLength (before ++ (t.gap ++ t.text)) := by
      rw [hspan]
      simp [Nat.add_assoc]
    have hwhole : before ++ Token.spelled (t :: ts) = before ++ (t.gap ++ t.text) ++ Token.spelled ts := by
      simp [Token.spelled]
    rw [hstop] at hts
    rw [hwhole, withGaps, hstop]
    intro p hp
    rcases List.mem_cons.mp hp with rfl | hp
    · refine ⟨⟨before, t.text ++ Token.spelled ts, by simp, ?_⟩, ⟨before ++ t.gap, Token.spelled ts, by simp, ?_⟩⟩
      · rw [hspan]
      · rw [hspan]
        simp
    · exact ih hts p hp

end

theorem covers_tokenize (s : String) :
    ∀ p ∈ withGaps 0 (tokenize s), p.1.Covers s.toList p.2.gap ∧ p.2.span.Covers s.toList p.2.text := by
  have hplaced : Placed (byteLength []) (tokenize s) := placed_tokensFrom s.toList 0
  have hspelled : Token.spelled (tokenize s) = s.toList := flatMap_tokensFrom s.toList 0
  have hcovers := hplaced.covers
  rwa [List.nil_append, hspelled] at hcovers

theorem exists_withGaps {pos : Nat} {t : Token} {ts : List Token} (h : t ∈ ts) : ∃ sp, (sp, t) ∈ withGaps pos ts := by
  rw [← map_snd_withGaps pos ts] at h
  obtain ⟨⟨sp, u⟩, hp, rfl⟩ := List.mem_map.mp h
  exact ⟨sp, hp⟩

theorem mem_of_withGaps {pos : Nat} {p : Span × Token} {ts : List Token} (h : p ∈ withGaps pos ts) : p.2 ∈ ts := by
  rw [← map_snd_withGaps pos ts]
  exact List.mem_map_of_mem h

theorem covers_of_mem {s : String} {t : Token} (h : t ∈ tokenize s) : t.span.Covers s.toList t.text := by
  obtain ⟨sp, hp⟩ : ∃ sp, (sp, t) ∈ withGaps 0 (tokenize s) := exists_withGaps h
  exact (covers_tokenize s _ hp).2

/-! ## Texts in tokens -/

/-- The text of a span. -/
def Span.textIn (sp : Span) (s : String) : String := String.ofList (sp.slice s.toList)

/-- The spans of the tokens cover the text one after the other, with nothing but blanks and comments between them. -/
structure Tiles (s : String) (ts : List Token) : Prop where
  /-- The end is one token, the last one, and the only one that takes no text. -/
  ends : ∃ us e, ts = us ++ [e] ∧ e.kind = .eof ∧ e.span = ⟨byteLength s.toList, byteLength s.toList⟩ ∧
    ∀ t ∈ us, t.kind ≠ .eof ∧ t.span.start < t.span.stop
  within : ∀ t ∈ ts, t.span.Within s.toList
  ordered : ts.Pairwise fun t u => t.span.stop ≤ u.span.start
  gaps : ∀ p ∈ withGaps 0 ts, p.1.Within s.toList ∧ IsGap (p.1.slice s.toList) ∧
    (tokenize (p.1.textIn s)).map Token.kind = [.eof]
  /-- What stands between the tokens and the tokens themselves make up the text. -/
  whole : (withGaps 0 ts).flatMap (fun p => p.1.slice s.toList ++ p.2.span.slice s.toList) = s.toList

/-- What stands in front of a token of a text is a gap by itself. -/
theorem splitGap_gap_of_mem {cs : List Char} {pos : Nat} {t : Token} (h : t ∈ tokensFrom pos cs) :
    splitGap .blank t.gap = (t.gap, []) := by
  obtain ⟨ts, post, hts⟩ := List.append_of_mem h
  obtain ⟨pos', rest, -, hrest⟩ := tokensFrom_split hts (by simp)
  exact splitGap_gap hrest

/-- Where a token begins and ends, by the gaps and texts in front of it. -/
theorem span_of_split {s : String} {pre post : List Token} {t : Token} (h : tokenize s = pre ++ t :: post) :
    t.span = ⟨byteLength (Token.spelled pre ++ t.gap), byteLength (Token.spelled (pre ++ [t]))⟩ := by
  have hplaced := placed_tokensFrom s.toList 0
  rw [← tokenize, h] at hplaced
  rw [hplaced.right.1]
  simp [Token.spelled, Nat.add_assoc]

/-- The last token stands at the end of the text. -/
theorem span_end {s : String} {us : List Token} {e : Token} (h : tokenize s = us ++ [e]) (htext : e.text = []) :
    e.span = ⟨byteLength s.toList, byteLength s.toList⟩ := by
  have hspelled : Token.spelled (tokenize s) = s.toList := flatMap_tokensFrom s.toList 0
  rw [span_of_split h, ← hspelled, h]
  simp [Token.spelled, htext]

/-- The tokens of a text tile it. -/
theorem tokenize_tiles (s : String) : Tiles s (tokenize s) := by
  constructor
  case ends =>
    obtain ⟨us, e, hus, he, htext, hne⟩ := tokensFrom_eq_append_end s.toList 0
    refine ⟨us, e, hus, he, span_end hus htext, fun t ht => ⟨(hne t ht).1, ?_⟩⟩
    obtain ⟨before, after, -, hspan⟩ := covers_of_mem (s := s) (t := t) (by rw [tokenize, hus]; simp [ht])
    rw [hspan]
    exact Nat.lt_add_of_pos_right (byteLength_pos (hne t ht).2)
  case within => exact fun t ht => (covers_of_mem ht).within
  case ordered => exact (placed_tokensFrom s.toList 0).ordered
  case gaps =>
    intro p hp
    have hcovers := (covers_tokenize s p hp).1
    have hgap := splitGap_gap_of_mem (mem_of_withGaps hp)
    rw [Span.textIn, hcovers.slice_eq, tokenize, String.toList_ofList, tokensFrom_end hgap]
    exact ⟨hcovers.within, isGap_iff.mpr (by rw [hgap]), rfl⟩
  case whole =>
    have hpieces : (withGaps 0 (tokenize s)).flatMap (fun p => p.1.slice s.toList ++ p.2.span.slice s.toList) =
        ((withGaps 0 (tokenize s)).map Prod.snd).flatMap fun t => t.gap ++ t.text := by
      rw [List.flatMap_map]
      refine List.flatMap_congr fun p hp => ?_
      obtain ⟨hgap, htext⟩ := covers_tokenize s p hp
      rw [hgap.slice_eq, htext.slice_eq]
    rw [hpieces, map_snd_withGaps]
    exact flatMap_tokensFrom s.toList 0

/-- A token that is cut out of its text is one token of the same kind. -/
theorem tokenize_textIn {s : String} {t : Token} (ht : t ∈ tokenize s) (hk : t.kind.isEnd = false) :
    (tokenize (t.span.textIn s)).map (fun u => (u.kind, u.span)) =
      [(t.kind, ⟨0, byteLength (t.span.slice s.toList)⟩),
       (.eof, ⟨byteLength (t.span.slice s.toList), byteLength (t.span.slice s.toList)⟩)] := by
  obtain ⟨ts, post, hts⟩ := List.append_of_mem ht
  have halone : InRow [t] := by
    have hrow : InRow (ts ++ ([t] ++ post)) := ⟨0, s.toList, [], by rw [List.append_nil]; exact hts⟩
    exact hrow.right.left
  have htoken : IsToken t.text t.kind [] := halone.isToken (by simpa using hk) t (by simp)
  have htokens := htoken.tokensFrom 0
  rw [List.append_nil, tokensFrom_end (show splitGap .blank [] = ([], []) from rfl)] at htokens
  rw [Span.textIn, tokenize, String.toList_ofList, (covers_of_mem ht).slice_eq, htokens]
  simp

/-- A name with a quote and the mark of a comment inside its quotes, right in front of a blob. -/
theorem tokenize_textIn_quoted :
    let s := "SELECT \"a\"\"-- b\"x'4A'"
    let t : Token := ⟨.identifier "a\"-- b", ⟨7, 16⟩, [' '], "\"a\"\"-- b\"".toList⟩
    t ∈ tokenize s ∧ t.kind.isEnd = false ∧
      (tokenize (t.span.textIn s)).map (fun u => (u.kind, u.span)) = [(.identifier "a\"-- b", ⟨0, 9⟩), (.eof, ⟨9, 9⟩)] := by
  intro s t
  have ht : t ∈ tokenize s := by decide +kernel
  have hlength : byteLength (t.span.slice s.toList) = 9 := by decide +kernel
  refine ⟨ht, rfl, ?_⟩
  rw [tokenize_textIn ht rfl, hlength]

end SchemaEditor
