import SchemaEditor.Database.Ledger
import SchemaEditor.Proofs.Sql.Tiling

/-!
# Names in quotes

A name in quotes is one token, whatever the name is, and what follows it has the tokens that it has by itself. So a name
changes nothing in the statement that it is written into but itself.
-/

namespace SchemaEditor

/-! ## Texts behind texts -/

/-- The token `n` bytes further on. -/
def Token.shift (n : Nat) (t : Token) : Token := { t with span := ⟨n + t.span.start, n + t.span.stop⟩ }

/-- The tokens of a text move along with it. -/
theorem tokensFrom_add (n : Nat) (cs : List Char) (pos : Nat) :
    tokensFrom (n + pos) cs = (tokensFrom pos cs).map (Token.shift n) := by
  induction cs using token_induction generalizing pos with
  | atEnd cs gap h =>
    rw [tokensFrom_end h, tokensFrom_end h]
    simp [Token.shift, Nat.add_assoc]
  | cons cs gap c rest h ih =>
    have hstop (k : Nat) : n + pos + byteLength gap + k = n + (pos + byteLength gap + k) := by omega
    rw [tokensFrom_cons h, tokensFrom_cons h, hstop, ih]
    simp [Token.shift, Nat.add_assoc]

theorem map_form_shift (n : Nat) (ts : List Token) : (ts.map (Token.shift n)).map Token.form = ts.map Token.form := by
  rw [List.map_map]
  rfl

/-- A text has one part of a given length in front. -/
theorem eq_of_byteLength_eq {as bs as' bs' : List Char} (h : as ++ bs = as' ++ bs') (hlength : byteLength as = byteLength as') :
    as = as' := by
  have hcut := cutAtByte_append as bs
  rw [hlength, h, cutAtByte_append] at hcut
  exact (Prod.mk.inj (Option.some.inj hcut)).1.symm

/-! ## Names -/

/-- Behind `a` the quote begins a token of its own. So `a` ends neither inside of a comment, a literal or a name in quotes nor
with the quote. -/
def Opens (q : Char) (a : String) : Prop :=
  ∃ t ∈ tokenize (a ++ String.singleton q), t.kind ≠ .eof ∧ t.span.start = byteLength a.toList

instance (q : Char) (a : String) : Decidable (Opens q a) := by unfold Opens; infer_instance

/-- `quote` writes a name as one token, and nothing that follows it is part of that token unless it begins with `q`. -/
structure QuotesExactly (q : Char) (quote : String → String) : Prop where
  alone : ∀ name r : String, r.toList.head? ≠ some q →
    tokenize (quote name ++ r) =
      ⟨.identifier name, ⟨0, byteLength (quote name).toList⟩, [], (quote name).toList⟩ ::
        (tokenize r).map (Token.shift (byteLength (quote name).toList))
  /-- The tokens in front of the name and the gap before it are the same for every name. -/
  inside : ∀ a : String, Opens q a → ∃ ts gap, ∀ name r : String, r.toList.head? ≠ some q →
    tokenize (a ++ quote name ++ r) =
      ts ++ ⟨.identifier name, ⟨byteLength a.toList, byteLength (a ++ quote name).toList⟩, gap, (quote name).toList⟩ ::
        (tokenize r).map (Token.shift (byteLength (a ++ quote name).toList))

section
variable {q : Char} (hq : q = '"' ∨ q = '\x60')
include hq

/-- Where the quote begins a token, the tokens in front of it and the gap before it do not depend on what it is the beginning
of. -/
theorem Opens.exists_tokens {a : String} (h : Opens q a) : ∃ ts gap pos, pos + byteLength gap = byteLength a.toList ∧
    ∀ es, tokensFrom 0 (a.toList ++ q :: es) = ts ++ tokensFrom pos (gap ++ q :: es) ∧
      splitGap .blank (gap ++ q :: es) = (gap, q :: es) := by
  obtain ⟨t, ht, hk, hstart⟩ := h
  obtain ⟨ts, post, hts⟩ := List.append_of_mem ht
  obtain ⟨pos, rest, hrest, hpost, hextends⟩ := tokensFrom_extend hts hk
  have hspan := span_of_split hts
  rw [String.toList_append, String.toList_singleton] at hrest hextends
  have hsplit := splitGap_append .blank rest
  cases hgap : splitGap .blank rest with
  | mk gap left =>
    rw [hgap] at hsplit
    cases left with
    | nil =>
      rw [tokensFrom_end hgap] at hpost
      rw [← (List.cons.inj hpost).1] at hk
      exact absurd rfl hk
    | cons c left =>
      rw [tokensFrom_cons hgap] at hpost
      obtain ⟨rfl, -⟩ := List.cons.inj hpost
      -- the gap ends where `a` does, so the quote is the first character of the token
      have hlength : byteLength a.toList = byteLength (Token.spelled ts ++ gap) := by
        rw [← hstart, hspan]
      have hwhole : a.toList ++ [q] = (Token.spelled ts ++ gap) ++ c :: left := by
        rw [hrest, ← hsplit, List.append_assoc]
      have ha := eq_of_byteLength_eq hwhole hlength
      rw [ha] at hwhole
      obtain ⟨rfl, rfl⟩ := List.cons.inj (List.append_cancel_left hwhole)
      refine ⟨ts, gap, pos, hstart, fun es => ⟨?_, ?_⟩⟩
      · have htokens := hextends es
        rwa [← hsplit, List.append_assoc, List.append_assoc, List.singleton_append] at htokens
      · have hextended := splitGap_extend .blank rest es
        rw [hgap, ← hsplit, List.append_assoc, List.singleton_append] at hextended
        rcases hq with rfl | rfl <;> exact hextended (by simp) (by simp) (by simp)

theorem quotesExactly_quoteWith : QuotesExactly q (quoteWith q) := by
  constructor
  case alone =>
    intro name r hr
    have htoken := (isToken_quoteWith hq name hr).tokensFrom 0
    rw [tokenize, String.toList_append, htoken, tokenize, ← tokensFrom_add, Nat.zero_add, Nat.add_zero]
  case inside =>
    intro a ha
    obtain ⟨ts, gap, pos, hpos, htokens⟩ := ha.exists_tokens hq
    refine ⟨ts, gap, fun name r hr => ?_⟩
    obtain ⟨c, cs, hcs, hlexeme⟩ := (isToken_quoteWith hq name hr).lexeme
    have hq : (quoteWith q name).toList = q :: (doubled q name.toList ++ [q]) := by simp [quoteWith]
    obtain ⟨rfl, rfl⟩ := List.cons.inj (hcs.symm.trans hq)
    obtain ⟨hfront, hgap⟩ := htokens (doubled c name.toList ++ [c] ++ r.toList)
    have hplace : byteLength a.toList + byteLength (quoteWith c name).toList = byteLength (a ++ quoteWith c name).toList := by
      rw [String.toList_append, byteLength_append]
    have hwhole : (a ++ quoteWith c name ++ r).toList = a.toList ++ c :: (doubled c name.toList ++ [c] ++ r.toList) := by
      simp [hcs]
    rw [tokenize, hwhole, hfront, tokensFrom_cons hgap, hlexeme, hpos, hplace, tokenize, ← tokensFrom_add, Nat.add_zero]

end

/-! ## Lists of names -/

/-- The tokens of names in quotes with commas between them. -/
def nameTokens (names : List String) : List (TokenKind × List Char × List Char) :=
  (names.map fun name => (.identifier name, [], (quoteIdentifier name).toList)).intersperse (.comma, [], [','])

theorem tokenize_empty : tokenize "" = [⟨.eof, ⟨0, 0⟩, [], []⟩] := by
  rw [tokenize, String.toList_empty, tokensFrom_end (show splitGap .blank [] = ([], []) from rfl)]
  rfl

theorem map_form_quoteIdentifierList (names : List String) :
    (tokenize (quoteIdentifierList names)).map Token.form = nameTokens names ++ [(.eof, [], [])] := by
  have hquotes : QuotesExactly '\x60' quoteIdentifier := quotesExactly_quoteWith (.inr rfl)
  induction names with
  | nil =>
    rw [quoteIdentifierList, List.map_nil, String.intercalate_nil, tokenize_empty]
    rfl
  | cons name names ih =>
    cases names with
    | nil =>
      have halone := hquotes.alone name "" (by simp)
      rw [String.append_empty, tokenize_empty] at halone
      rw [quoteIdentifierList, List.map_singleton, String.intercalate_singleton, halone]
      rfl
    | cons next names =>
      have hlist : quoteIdentifierList (name :: next :: names) =
          quoteIdentifier name ++ ("," ++ quoteIdentifierList (next :: names)) := by
        simp [quoteIdentifierList, String.intercalate_cons_cons, String.append_assoc]
      have hcomma : (tokenize ("," ++ quoteIdentifierList (next :: names))).map Token.form =
          (.comma, [], [',']) :: (nameTokens (next :: names) ++ [(.eof, [], [])]) := by
        have htoken := (isToken_comma (quoteIdentifierList (next :: names)).toList).tokensFrom 0
        rw [tokenize, String.toList_append, show ",".toList = [','] from rfl, htoken, List.map_cons,
          map_form_tokensFrom _ _ 0, ← ih]
        rfl
      rw [hlist, hquotes.alone name _ (by simp), List.map_cons, map_form_shift, hcomma]
      rfl

/-! ## Statements -/

/-- A name of a table, a column or a savepoint is one token in its quotes, whatever it is made of, and the tokens around it are
the same for every name. A list of names is such tokens with commas between them. -/
theorem quoting_isExact :
    QuotesExactly '\x60' quoteIdentifier ∧ QuotesExactly '"' quoteSavepoint ∧
      ∀ names, (tokenize (quoteIdentifierList names)).map Token.form = nameTokens names ++ [(.eof, [], [])] :=
  ⟨quotesExactly_quoteWith (.inr rfl), quotesExactly_quoteWith (.inl rfl), map_form_quoteIdentifierList⟩

/-- A name that closes a quote, ends a statement and begins a comment stands where a plain name does. -/
theorem quoting_isExact_hostile :
    let name := "a\x60; DROP TABLE b --\n\x60"
    Opens '\x60' "DROP TABLE " ∧ ∃ before after,
      (tokenize ("DROP TABLE " ++ quoteIdentifier "a" ++ ";")).map Token.kind = before ++ .identifier "a" :: after ∧
      (tokenize ("DROP TABLE " ++ quoteIdentifier name ++ ";")).map Token.kind = before ++ .identifier name :: after := by
  intro name
  have hopens : Opens '\x60' "DROP TABLE " := by decide +kernel
  obtain ⟨ts, gap, htokens⟩ := quoting_isExact.1.inside "DROP TABLE " hopens
  have hkinds (n : String) : (tokenize ("DROP TABLE " ++ quoteIdentifier n ++ ";")).map Token.kind =
      ts.map Token.kind ++ .identifier n :: (tokenize ";").map Token.kind := by
    rw [htokens n ";" (by decide), List.map_append, List.map_cons, List.map_map]
    rfl
  exact ⟨hopens, ts.map Token.kind, (tokenize ";").map Token.kind, hkinds "a", hkinds name⟩

end SchemaEditor
