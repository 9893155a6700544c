import Mathlib.Data.List.Forall2
import SchemaEditor.Proofs.Table.Closing
import SchemaEditor.Proofs.Table.Statements

/-!
# The items of a table definition

Between the parentheses of a CREATE TABLE statement there are items with commas between them. The readers of types,
checks, defaults, references and constraints count parentheses each in its own way; that they all stop at the same
commas means that the items are the columns and the constraints of the table, none more and none less.
-/

namespace SchemaEditor.Items

open Grammar
open Reader (depthAfter nameOf? isTypeWord isResolution takeForeignKey takeBalanced IsType IsDefault KeyList)

/-! ## Cutting at commas -/

/-- The tokens in front of the first closing parenthesis that has no opening one. -/
def inside : Nat → List Token → List Token
  | _, [] => []
  | depth, t :: ts => if depth = 0 ∧ t.kind = .rightParen then [] else t :: inside (depthAfter depth t.kind) ts

/-- Cuts tokens at the commas outside parentheses. `item` is what the current item has so far. -/
def cutAtCommas : Nat → List Token → List Token → List (List Token)
  | _, item, [] => [item]
  | depth, item, t :: ts =>
    if depth = 0 ∧ t.kind = .comma then item :: cutAtCommas 0 [] ts
    else cutAtCommas (depthAfter depth t.kind) (item ++ [t]) ts

/-- The items of the first list in parentheses. -/
def itemsOf (ts : List Token) : List (List Token) :=
  cutAtCommas 0 [] (inside 0 (ts.dropWhile fun t => t.kind != .leftParen).tail)

/-- How many parentheses are open behind the tokens, unless one that stops is outside of them. -/
def through (stops : TokenKind → Bool) : Nat → List Token → Option Nat
  | depth, [] => some depth
  | depth, t :: ts => if depth = 0 ∧ stops t.kind = true then none else through stops (depthAfter depth t.kind) ts

def closes (k : TokenKind) : Bool := k == .rightParen

def separates (k : TokenKind) : Bool := k == .comma || k == .rightParen

/-- What stands between two parentheses that belong together. -/
def Matched (ts : List Token) : Prop := through closes 0 ts = some 0

/-- Every parenthesis is matched, and every comma is inside of some. -/
def Level (ts : List Token) : Prop := through separates 0 ts = some 0

section
variable {stops : TokenKind → Bool} {d e : Nat} {t : Token} {ts us rest item : List Token}

theorem through_cons (h : through stops d (t :: ts) = some e) :
    ¬(d = 0 ∧ stops t.kind = true) ∧ through stops (depthAfter d t.kind) ts = some e := by
  rw [through] at h
  split at h
  · cases h
  · next hno => exact ⟨hno, h⟩

theorem through_append (h : through stops d ts = some e) : through stops d (ts ++ us) = through stops e us := by
  induction ts generalizing d with
  | nil =>
    cases h
    rfl
  | cons t ts ih =>
    obtain ⟨hno, hrest⟩ := through_cons h
    rw [List.cons_append, through, if_neg hno]
    exact ih hrest

theorem through_closes (h : through separates d ts = some e) : through closes d ts = some e := by
  induction ts generalizing d with
  | nil => exact h
  | cons t ts ih =>
    obtain ⟨hno, hrest⟩ := through_cons h
    have hclose : ¬(d = 0 ∧ closes t.kind = true) := by
      intro hclose
      apply hno
      simp_all [separates, closes]
    rw [through, if_neg hclose]
    exact ih hrest

/-- Under one more parenthesis nothing stops. -/
theorem through_succ (h : through closes d ts = some e) : through stops (d + 1) ts = some (e + 1) := by
  induction ts generalizing d with
  | nil =>
    cases h
    rfl
  | cons t ts ih =>
    obtain ⟨hno, hrest⟩ := through_cons h
    have hdepth : depthAfter (d + 1) t.kind = depthAfter d t.kind + 1 := by
      unfold depthAfter
      split
      · rfl
      · next hk =>
        have hd : d ≠ 0 := fun hd => hno ⟨hd, by simp [closes, hk]⟩
        omega
      · rfl
    rw [through, if_neg (by simp), hdepth]
    exact ih hrest

theorem through_of_depthThrough (h : depthThrough d ts = some e) : through closes d ts = some e := by
  induction ts generalizing d with
  | nil => exact h
  | cons t ts ih =>
    obtain ⟨-, hno, hrest⟩ := Reader.depthThrough_cons h
    rw [through, if_neg (by simpa [closes] using hno)]
    exact ih hrest

theorem inside_eq {r : Token} (h : through closes d ts = some 0) (hr : r.kind = .rightParen) :
    inside d (ts ++ r :: rest) = ts := by
  induction ts generalizing d with
  | nil =>
    cases h
    simp [inside, hr]
  | cons t ts ih =>
    obtain ⟨hno, hrest⟩ := through_cons h
    rw [List.cons_append, inside, if_neg (by simpa [closes] using hno), ih hrest]

theorem cutAtCommas_append (h : through separates d ts = some e) :
    cutAtCommas d item (ts ++ rest) = cutAtCommas e (item ++ ts) rest := by
  induction ts generalizing d item with
  | nil =>
    cases h
    simp
  | cons t ts ih =>
    obtain ⟨hno, hrest⟩ := through_cons h
    have hcomma : ¬(d = 0 ∧ t.kind = .comma) := by
      intro hcomma
      apply hno
      simp [separates, hcomma]
    rw [List.cons_append, cutAtCommas, if_neg hcomma, ih hrest]
    simp

end

/-! ## Parts that are level -/

section
variable {t l r : Token} {ts us rest : List Token}

theorem Level.append (hts : Level ts) (hus : Level us) : Level (ts ++ us) := by
  unfold Level
  rw [through_append hts]
  exact hus

theorem level_nil : Level [] := rfl

theorem level_single (hl : t.kind ≠ .leftParen) (hr : t.kind ≠ .rightParen) (hc : t.kind ≠ .comma) : Level [t] := by
  unfold Level through
  have hno : ¬((0 : Nat) = 0 ∧ separates t.kind = true) := by simp [separates, hr, hc]
  have hdepth : depthAfter 0 t.kind = 0 := by
    unfold depthAfter
    split <;> simp_all
  rw [if_neg hno, hdepth]
  rfl

theorem Level.cons (ht : Level [t]) (hts : Level ts) : Level (t :: ts) := ht.append hts

/-- Literals, names and keywords are neither parentheses nor commas. -/
theorem ne_leftParen (h : t.isWordLike = true) : t.kind ≠ .leftParen := by
  intro hkind
  rw [Token.isWordLike, hkind] at h
  cases h

theorem level_wordLike (h : t.isWordLike = true) : Level [t] := by
  apply level_single (ne_leftParen h)
  · intro hkind
    rw [Token.isWordLike, hkind] at h
    cases h
  · intro hkind
    rw [Token.isWordLike, hkind] at h
    cases h

theorem isWordLike_of_keyword? {k : Keyword} (h : t.keyword? = some k) : t.isWordLike = true := by
  unfold Token.keyword? TokenKind.keyword? at h
  split at h
  · next hkind => rw [Token.isWordLike, hkind]; rfl
  · cases h

theorem isWordLike_of_nameOf? {name : String} (h : nameOf? t = some name) : t.isWordLike = true := by
  unfold nameOf? at h
  split at h
  · next hkind => rw [Token.isWordLike, hkind]; rfl
  · next hkind => rw [Token.isWordLike, hkind]; rfl
  · next hkind => rw [Token.isWordLike, hkind]; rfl
  · cases h

theorem level_keyword {k : Keyword} (h : t.keyword? = some k) : Level [t] := level_wordLike (isWordLike_of_keyword? h)

theorem level_name {name : String} (h : nameOf? t = some name) : Level [t] := level_wordLike (isWordLike_of_nameOf? h)

theorem level_word {w : String} (h : t.kind.isWord w = true) : Level [t] := by
  apply level_wordLike
  unfold TokenKind.isWord at h
  split at h
  · next hkind => rw [Token.isWordLike, hkind]; rfl
  · cases h

theorem level_typeWords (h : ∀ t ∈ ts, isTypeWord t = true) : Level ts := by
  induction ts with
  | nil => exact level_nil
  | cons t ts ih =>
    refine Level.cons (level_wordLike ?_) (ih fun u hu => h u (List.mem_cons_of_mem t hu))
    have ht := h t List.mem_cons_self
    unfold isTypeWord at ht
    split at ht
    · next hkind => rw [Token.isWordLike, hkind]; rfl
    · next hkind => rw [Token.isWordLike, hkind]; rfl
    · cases ht

theorem Matched.level (h : Matched ts) (hl : l.kind = .leftParen) (hr : r.kind = .rightParen) : Level (l :: (ts ++ [r])) := by
  have hopen : through separates 0 (l :: (ts ++ [r])) = through separates 1 (ts ++ [r]) := by
    rw [through, if_neg (by simp [separates, hl]), hl]
    rfl
  unfold Level
  rw [hopen, through_append (through_succ h), through, if_neg (by simp), hr]
  rfl

theorem level_enclosed (h : Enclosed ts) (hl : l.kind = .leftParen) (hr : r.kind = .rightParen) : Level (l :: (ts ++ [r])) :=
  Matched.level (through_of_depthThrough h) hl hr

theorem level_group (h : Group ts) : Level ts := by
  obtain ⟨hl, hts, hr⟩ := h
  exact level_enclosed hts hl hr

theorem level_sortOrder (h : SortOrder ts rest) : Level ts := by
  cases h with
  | given ht =>
    rcases ht with ht | ht
    · exact level_keyword ht
    · exact level_keyword ht
  | none => exact level_nil

theorem level_conflict (h : Conflict ts rest) : Level ts := by
  cases h with
  | @given o c r _ ho hc hr =>
    obtain ⟨k, hk⟩ : ∃ k, r.keyword? = some k := by
      cases hkey : r.keyword? with
      | none => simp [hkey, isResolution] at hr
      | some k => exact ⟨k, rfl⟩
    exact (level_keyword ho).cons ((level_keyword hc).cons (level_keyword hk))
  | none => exact level_nil

theorem level_type (h : IsType ts) : Level ts := by
  cases h with
  | words _ hwords => exact level_typeWords hwords
  | sized _ hwords hl hinside hr => exact (level_typeWords hwords).append (level_enclosed hinside hl hr)

theorem level_default {value : String} (h : IsDefault ts value) : Level ts := by
  cases h with
  | @group us l r hl hts hr =>
    refine level_enclosed hts ?_ hr
    unfold Reader.defaultStart at hl
    split at hl
    · assumption
    all_goals first | cases hl | (split at hl <;> cases hl)
  | @sign a n ha hn =>
    refine Level.cons (level_single ?_ ?_ ?_) (level_single ?_ ?_ ?_) <;> intro hk <;>
      simp_all [Reader.defaultStart]
  | @single a ha =>
    apply level_single <;> intro hk <;> simp_all [Reader.defaultStart]

theorem level_check {column expression : String} (h : Check column expression ts) : Level ts := by
  cases h with
  | plain hl hts hr _ => exact level_enclosed hts hl hr
  | @wrapped l n k l' r' r us hl hn hk hl' hts hr' hr =>
    have hinner : Level (n :: k :: l' :: (us ++ [r'])) :=
      (level_name hn).cons ((level_keyword hk).cons (level_enclosed hts hl' hr'))
    have houter := Matched.level (through_closes hinner) hl hr
    simpa using houter

theorem level_generated (h : Generated ts rest) : Level ts := by
  cases h with
  | stored hg ht =>
    refine (level_group hg).append ?_
    rcases ht with ht | ht
    · exact level_word ht
    · exact level_word ht
  | bare hg => exact level_group hg

/-- A reference to another table goes on up to a comma or parenthesis outside of its own. -/
theorem through_of_takeForeignKey {previous : TokenKind} {d : Nat}
    (h : takeForeignKey previous d (ts ++ rest) = ⟨ts, rest, 0⟩) : through separates d ts = some 0 := by
  induction ts generalizing previous d with
  | nil =>
    rw [List.nil_append] at h
    cases rest with
    | nil =>
      cases h
      rfl
    | cons t rest =>
      cases d with
      | zero => rfl
      | succ d =>
        rw [takeForeignKey] at h
        dsimp only at h
        split at h
        · cases h
        · cases h
  | cons t ts ih =>
    have htail {tail : Reader.ForeignKeyTail}
        (h : ({ tail with taken := t :: tail.taken } : Reader.ForeignKeyTail) = ⟨t :: ts, rest, 0⟩) : tail = ⟨ts, rest, 0⟩ := by
      cases tail
      cases h
      rfl
    rw [List.cons_append] at h
    cases d with
    | zero =>
      rw [takeForeignKey] at h
      dsimp only at h
      split at h
      · cases h
      · next hends =>
        have hno : ¬((0 : Nat) = 0 ∧ separates t.kind = true) := by
          intro hsep
          apply hends
          have hkind : t.kind = .comma ∨ t.kind = .rightParen := by simpa [separates] using hsep.2
          rcases hkind with hkind | hkind
          · rw [hkind]
            rfl
          · rw [hkind]
            rfl
        rw [through, if_neg hno]
        exact ih (htail h)
    | succ d =>
      rw [takeForeignKey] at h
      dsimp only at h
      split at h
      · cases h
      · rw [through, if_neg (by simp)]
        exact ih (htail h)

theorem through_of_takeBalanced {d : Nat}
    (h : takeBalanced (fun k => k == .comma || k == .rightParen) d (ts ++ rest) = (ts, rest))
    (hend : (kindOf rest).isEnd = false) : through separates d ts = some 0 := by
  induction ts generalizing d with
  | nil =>
    cases rest with
    | nil => cases hend
    | cons t rest =>
      rw [List.nil_append, takeBalanced] at h
      split at h
      · next hstop =>
        have ht : t.kind.isEnd = false := hend
        have hd : d = 0 := by
          simp only [ht, Bool.false_or, Bool.and_eq_true, beq_iff_eq] at hstop
          exact hstop.1
        rw [hd]
        rfl
      · cases h
  | cons t ts ih =>
    rw [List.cons_append, takeBalanced] at h
    split at h
    · cases h
    · next hstop =>
      obtain ⟨htaken, hrest⟩ := Prod.mk.inj h
      have hno : ¬(d = 0 ∧ separates t.kind = true) := by
        intro hsep
        apply hstop
        have hsep' : (t.kind == .comma || t.kind == .rightParen) = true := hsep.2
        simp [hsep.1, hsep']
      rw [through, if_neg hno]
      exact ih (Prod.ext (List.cons.inj htaken).2 hrest)

end

theorem level_tail {column : String} {k : Keyword} {part : ColumnPart} {ts rest : List Token}
    (h : part.Tail column k ts rest) : Level ts := by
  cases h with
  | named ht => exact level_name ht
  | primaryKey hk horder hconflict =>
    exact (level_keyword hk).cons ((level_sortOrder horder).append (level_conflict hconflict))
  | autoIncrement hk horder hconflict ha =>
    exact (level_keyword hk).cons ((level_sortOrder horder).append ((level_conflict hconflict).append (level_keyword ha)))
  | notNull hn hconflict => exact (level_keyword hn).cons (level_conflict hconflict)
  | null hconflict => exact level_conflict hconflict
  | unique hconflict => exact level_conflict hconflict
  | check h => exact level_check h
  | default h => exact level_default h
  | collate ht => exact level_name ht
  | references ht hts => exact (level_name ht).cons (through_of_takeForeignKey hts)
  | generated ha hk hts => exact (level_word ha).cons ((level_keyword hk).cons (level_generated hts))
  | as hts => exact level_generated hts

theorem level_clauses {column : String} {clauses : List ColumnClause} {ts rest : List Token}
    (h : ColumnClause.All column clauses ts rest) : Level ts := by
  induction h with
  | nil => exact level_nil
  | cons hc _ ih =>
    obtain ⟨-, t, k, us, rfl, hk, htail⟩ := hc
    exact ((level_keyword hk).cons (level_tail htail)).append ih

/-! ## Lists -/

/-- An item in front of a comma, or of what follows the list. -/
def ItemOf {α : Type} (P : α → List Token → List Token → Prop) (rest : List Token) (a : α) (item : List Token) : Prop :=
  ∃ after, P a item after ∧ (kindOf after = .comma ∨ after = rest)

/-- A list is cut into its items. -/
theorem cut_commaList {α : Type} {P : α → List Token → List Token → Prop} {as : List α} {ts rest : List Token}
    (hlevel : ∀ {a ts rest}, P a ts rest → Level ts) (h : CommaList P as ts rest) :
    List.Forall₂ (ItemOf P rest) as (cutAtCommas 0 [] ts) ∧ Matched ts := by
  induction h with
  | @last a ts rest ha hrest =>
    have hcut : cutAtCommas 0 [] ts = [ts] := by
      have happ : cutAtCommas 0 [] (ts ++ []) = cutAtCommas 0 ([] ++ ts) [] := cutAtCommas_append (hlevel ha)
      rwa [List.append_nil] at happ
    rw [hcut]
    exact ⟨.cons ⟨rest, ha, .inr rfl⟩ .nil, through_closes (hlevel ha)⟩
  | @cons a as ts us rest comma ha hcomma _ ih =>
    have hcut : cutAtCommas 0 [] (ts ++ comma :: us) = ts :: cutAtCommas 0 [] us := by
      rw [cutAtCommas_append (hlevel ha), cutAtCommas, if_pos ⟨rfl, hcomma⟩]
      rfl
    have hmatched : Matched (ts ++ comma :: us) := by
      have hno : ¬((0 : Nat) = 0 ∧ closes comma.kind = true) := by simp [closes, hcomma]
      unfold Matched
      rw [through_append (through_closes (hlevel ha)), through, if_neg hno, hcomma]
      exact ih.2
    rw [hcut]
    exact ⟨.cons ⟨_, ha, .inl hcomma⟩ ih.1, hmatched⟩

theorem level_keyPart {k : KeyPart} {ts rest : List Token} (h : k.Spells ts rest) : Level ts := by
  cases h with
  | plain ht _ horder => exact (level_name ht).cons (level_sortOrder horder)
  | collated ht hc hu horder =>
    exact (level_name ht).cons ((level_keyword hc).cons ((level_name hu).cons (level_sortOrder horder)))

theorem level_label {ts : List Token} (h : Label ts) : Level ts := by
  cases h with
  | given hc ht => exact (level_keyword hc).cons (level_name ht)
  | none => exact level_nil

theorem level_constraint {label ts rest : List Token} {d : Definition} (h : Definition.Constraint label d ts rest) : Level ts := by
  cases h with
  | @key us conflict rest p k l r parts hp hk hl hparts hr hconflict =>
    have hgroup := (cut_commaList level_keyPart hparts).2.level hl hr
    have hall := (level_keyword hp).cons ((level_keyword hk).cons (hgroup.append (level_conflict hconflict)))
    simpa using hall
  | unique hu hg hconflict => exact (level_keyword hu).cons ((level_group hg).append (level_conflict hconflict))
  | check hc hg => exact (level_keyword hc).cons (level_group hg)
  | foreignKey hf hk hg hts hrest =>
    exact (level_keyword hf).cons ((level_keyword hk).cons ((level_group hg).append (through_of_takeBalanced hts hrest)))

theorem level_definition {d : Definition} {ts rest : List Token} (h : d.Spells ts rest) : Level ts := by
  cases h with
  | @column t name sqlType clauses us vs rest hstart ht htype hclauses =>
    have hus : Level us := by
      cases htype with
      | given hts => exact level_type hts
      | none => exact level_nil
    exact (level_name ht).cons (hus.append (level_clauses hclauses))
  | constraint hlabel hd => exact (level_label hlabel).append (level_constraint hd)

/-! ## What an item says -/

/-- The keyword of a table constraint, behind the name of the constraint if it has one. -/
def constraintKeyword? (item : List Token) : Option Keyword :=
  (kindOf (if (kindOf item).keyword? = some .constraint then item.drop 2 else item)).keyword?

/-- The name that the first token spells. -/
def firstName? (item : List Token) : Option String := item.head?.bind nameOf?

/-- The columns that a key lists. -/
def keyNames (item : List Token) : List String := (itemsOf item).filterMap firstName?

/-- The place of the first column with one of the names. -/
def isListed (fs : List Field) (names : List String) (i : Nat) : Bool :=
  names.any fun name => fs.findIdx? (·.isNamed name) == some i

def markKeys (fs : List Field) (names : List String) : List Field :=
  fs.mapIdx fun i f => if isListed fs names i then f.asPrimaryKey else f

/-- What the items make of the columns before them, and the clauses that are discarded. -/
inductive Builds : List (List Token) → List Field → List Field → List String → Prop where
  | nil {fs : List Field} : Builds [] fs fs []
  | column {item : List Token} {items : List (List Token)} {fs fs' : List Field} {f : Field} {own clauses : List String}
      (hstart : startsTableConstraint item = false) (hname : firstName? item = some f.name)
      (hown : ∀ clause ∈ own, ∃ text, clause = f.name ++ " " ++ text) (hitems : Builds items (fs ++ [f]) fs' clauses) :
      Builds (item :: items) fs fs' (own ++ clauses)
  | discarded {item : List Token} {items : List (List Token)} {fs fs' : List Field} {k : Keyword} {clauses : List String}
      (hstart : startsTableConstraint item = true) (hkeyword : constraintKeyword? item = some k)
      (hk : k = .unique ∨ k = .check ∨ k = .foreign) (hitems : Builds items fs fs' clauses) :
      Builds (item :: items) fs fs' (String.ofList (Token.source item) :: clauses)
  | key {item : List Token} {items : List (List Token)} {fs fs' : List Field} {clauses : List String}
      (hstart : startsTableConstraint item = true) (hkeyword : constraintKeyword? item = some .primary)
      (hnames : keyNames item ≠ []) (hfound : ∀ name ∈ keyNames item, ∃ f ∈ fs, f.isNamed name = true)
      (hitems : Builds items (markKeys fs (keyNames item)) fs' clauses) : Builds (item :: items) fs fs' clauses

theorem startsTableConstraint_append {item after : List Token} (hitem : item ≠ [])
    (hafter : kindOf after = .comma ∨ kindOf after = .rightParen) :
    startsTableConstraint (item ++ after) = startsTableConstraint item := by
  cases item with
  | nil => exact absurd rfl hitem
  | cons t ts =>
    cases ts with
    | nil =>
      have hkey : ((kindOf after).keyword? == some .key) = false := by
        rcases hafter with hafter | hafter <;> rw [hafter] <;> rfl
      have hparen : (kindOf after == .leftParen) = false := by
        rcases hafter with hafter | hafter <;> rw [hafter] <;> rfl
      unfold startsTableConstraint
      rw [List.singleton_append, List.tail_cons, List.tail_cons, hkey, hparen]
      rfl
    | cons u us => rfl

/-! ## Keys -/

section
variable {fs : List Field} {name : String} {names : List String}

theorem map_name_markKeys (fs : List Field) (names : List String) : (markKeys fs names).map Field.name = fs.map Field.name := by
  apply List.ext_getElem?
  intro i
  simp only [markKeys, List.getElem?_map, List.getElem?_mapIdx]
  cases fs[i]? with
  | none => rfl
  | some f => by_cases hlisted : isListed fs names i = true <;> simp [hlisted, Field.asPrimaryKey]

theorem findIdx?_of_map_name {fs' : List Field} (h : fs'.map Field.name = fs.map Field.name) (name : String) :
    fs'.findIdx? (·.isNamed name) = fs.findIdx? (·.isNamed name) := by
  have hnames (fs : List Field) : fs.findIdx? (·.isNamed name) = (fs.map Field.name).findIdx? (sameName · name) := by
    rw [List.findIdx?_map]
    rfl
  rw [hnames, hnames, h]

theorem isListed_markKeys (fs : List Field) (marked names : List String) (i : Nat) :
    isListed (markKeys fs marked) names i = isListed fs names i := by
  unfold isListed
  simp only [findIdx?_of_map_name (map_name_markKeys fs marked)]

theorem markKeys_nil (fs : List Field) : markKeys fs [] = fs := by
  apply List.ext_getElem?
  intro i
  simp [markKeys, isListed]

theorem markKeys_cons (fs : List Field) (name : String) (names : List String) :
    markKeys fs (name :: names) = markKeys (markKeys fs [name]) names := by
  apply List.ext_getElem?
  intro i
  have hlisted : isListed fs (name :: names) i = (isListed fs [name] i || isListed fs names i) := by simp [isListed]
  rw [markKeys, markKeys, List.getElem?_mapIdx, List.getElem?_mapIdx, markKeys, List.getElem?_mapIdx]
  cases fs[i]? with
  | none => rfl
  | some f =>
    have hrest : isListed (fs.mapIdx fun j g => if isListed fs [name] j then g.asPrimaryKey else g) names i = isListed fs names i :=
      isListed_markKeys fs [name] names i
    simp only [Option.map_some, hrest, hlisted]
    cases isListed fs [name] i <;> cases isListed fs names i <;> rfl

theorem markKeys_single {i : Nat} (h : fs.findIdx? (·.isNamed name) = some i) :
    markKeys fs [name] = fs.modify i Field.asPrimaryKey := by
  apply List.ext_getElem?
  intro j
  rw [markKeys, List.getElem?_mapIdx, List.getElem?_modify]
  cases fs[j]? with
  | none => rfl
  | some f => by_cases hij : i = j <;> simp [isListed, h, hij]

/-- A column of a key marks the first column with its name. -/
theorem fields_addTo? {keys keys' : KeyList} {k : KeyPart} (h : k.addTo? keys = some keys') :
    keys'.table.fields = markKeys keys.table.fields [k.column] ∧ ∃ f ∈ keys.table.fields, f.isNamed k.column = true := by
  unfold KeyPart.addTo? at h
  split at h
  · next f t hfound hmodify =>
    cases h
    obtain ⟨i, hi, rfl⟩ := Option.map_eq_some_iff.mp hmodify
    refine ⟨(markKeys_single hi).symm, f, List.mem_of_find?_eq_some hfound, ?_⟩
    exact List.find?_some (p := fun f : Field => f.isNamed k.column) hfound
  · cases h

theorem exists_isNamed_markKeys {marked : List String} (h : ∃ f ∈ markKeys fs marked, f.isNamed name = true) :
    ∃ f ∈ fs, f.isNamed name = true := by
  obtain ⟨f, hf, hnamed⟩ := h
  have hname : f.name ∈ fs.map Field.name := by
    rw [← map_name_markKeys fs marked]
    exact List.mem_map_of_mem hf
  obtain ⟨f', hf', hsame⟩ := List.mem_map.mp hname
  refine ⟨f', hf', ?_⟩
  rw [Field.isNamed, hsame]
  exact hnamed

theorem fields_foldlM_addTo? {keys keys' : KeyList} {parts : List KeyPart} (h : parts.foldlM KeyPart.addTo? keys = some keys') :
    keys'.table.fields = markKeys keys.table.fields (parts.map KeyPart.column) ∧
      ∀ name ∈ parts.map KeyPart.column, ∃ f ∈ keys.table.fields, f.isNamed name = true := by
  induction parts generalizing keys with
  | nil =>
    cases h
    exact ⟨(markKeys_nil _).symm, by simp⟩
  | cons k parts ih =>
    rw [List.foldlM_cons] at h
    obtain ⟨keys₁, hk, hparts⟩ := Option.bind_eq_some_iff.mp h
    obtain ⟨hfields, hnames⟩ := ih hparts
    obtain ⟨hfirst, hfound⟩ := fields_addTo? hk
    rw [hfirst] at hfields hnames
    constructor
    · exact hfields.trans (markKeys_cons keys.table.fields k.column (parts.map KeyPart.column)).symm
    · intro name hname
      rcases List.mem_cons.mp hname with rfl | hname
      · exact hfound
      · exact exists_isNamed_markKeys (hnames name hname)

end

theorem firstName?_keyPart {k : KeyPart} {ts rest : List Token} (h : k.Spells ts rest) : firstName? ts = some k.column := by
  cases h with
  | plain ht => exact ht
  | collated ht => exact ht

theorem filterMap_firstName? {parts : List KeyPart} {items : List (List Token)} {rest : List Token}
    (h : List.Forall₂ (ItemOf KeyPart.Spells rest) parts items) : items.filterMap firstName? = parts.map KeyPart.column := by
  induction h with
  | nil => rfl
  | cons hitem _ ih =>
    obtain ⟨after, hspells, -⟩ := hitem
    rw [List.filterMap_cons_some (firstName?_keyPart hspells), ih, List.map_cons]

theorem keyNames_eq {us rest : List Token} {l r : Token} {before behind : List Token} {parts : List KeyPart}
    (hbefore : ∀ t ∈ before, t.kind ≠ .leftParen) (hl : l.kind = .leftParen) (hparts : CommaList KeyPart.Spells parts us rest)
    (hr : r.kind = .rightParen) : keyNames (before ++ l :: (us ++ r :: behind)) = parts.map KeyPart.column := by
  obtain ⟨hcut, hmatched⟩ := cut_commaList level_keyPart hparts
  have hdrop : (before ++ l :: (us ++ r :: behind)).dropWhile (fun t => t.kind != .leftParen) = l :: (us ++ r :: behind) := by
    rw [List.dropWhile_append_of_pos (by simpa using hbefore), List.dropWhile_cons, if_neg (by simp [hl])]
  have hitems : itemsOf (before ++ l :: (us ++ r :: behind)) = cutAtCommas 0 [] us := by
    rw [itemsOf, hdrop, List.tail_cons, inside_eq hmatched hr]
  rw [keyNames, hitems]
  exact filterMap_firstName? hcut

/-! ## Definitions -/

section
variable {ts rest after item : List Token} {d : Definition}

theorem own_entries {column : String} {clauses : List ColumnClause} {clause : String}
    (h : clause ∈ clauses.flatMap (·.entries column)) : ∃ text, clause = column ++ " " ++ text := by
  obtain ⟨c, -, hclause⟩ := List.mem_flatMap.mp h
  unfold ColumnClause.entries at hclause
  split at hclause
  · exact ⟨String.ofList (Token.source c.tokens), List.mem_singleton.mp hclause⟩
  · cases hclause

/-- A constraint starts as one, and its keyword stands behind its label. -/
theorem constraint_start {label : List Token} {u : Token} {k : Keyword} (hlabel : Label label) (hu : u.keyword? = some k)
    (hk : k ≠ .constraint) (hstart : startsTableConstraint (u :: ts) = true) :
    startsTableConstraint (label ++ u :: ts) = true ∧ constraintKeyword? (label ++ u :: ts) = some k := by
  cases hlabel with
  | @given c t _ hc =>
    have hkind : (kindOf ([c, t] ++ u :: ts)).keyword? = some .constraint := hc
    constructor
    · rw [startsTableConstraint, hkind]
    · rw [constraintKeyword?, if_pos hkind]
      exact hu
  | none =>
    have hkind : (kindOf (u :: ts)).keyword? = some k := hu
    have hno : (kindOf (u :: ts)).keyword? ≠ some .constraint := by
      rw [hkind]
      simpa using hk
    refine ⟨hstart, ?_⟩
    rw [List.nil_append, constraintKeyword?, if_neg hno, hkind]

theorem starts_key {p k : Token} (hp : p.keyword? = some .primary ∨ p.keyword? = some .foreign) (hk : k.keyword? = some .key) :
    startsTableConstraint (p :: k :: ts) = true := by
  have hkey : ((kindOf (k :: ts)).keyword? == some .key) = true := by simpa [Token.keyword?] using hk
  rcases hp with hp | hp
  · have hkind : (kindOf (p :: k :: ts)).keyword? = some .primary := hp
    rw [startsTableConstraint, hkind]
    exact hkey
  · have hkind : (kindOf (p :: k :: ts)).keyword? = some .foreign := hp
    rw [startsTableConstraint, hkind]
    exact hkey

theorem starts_group {u : Token} {g : List Token} (hu : u.keyword? = some .unique ∨ u.keyword? = some .check) (hg : Group g) :
    startsTableConstraint (u :: (g ++ ts)) = true := by
  have hparen : (kindOf (g ++ ts) == .leftParen) = true := by
    obtain ⟨hl, -, -⟩ := hg
    simpa using hl
  rcases hu with hu | hu
  · have hkind : (kindOf (u :: (g ++ ts))).keyword? = some .unique := hu
    rw [startsTableConstraint, hkind]
    exact hparen
  · have hkind : (kindOf (u :: (g ++ ts))).keyword? = some .check := hu
    rw [startsTableConstraint, hkind]
    exact hparen

theorem label_no_leftParen {label : List Token} (h : Label label) : ∀ t ∈ label, t.kind ≠ .leftParen := by
  cases h with
  | @given c t name hc ht =>
    intro u hu
    rcases List.mem_pair.mp hu with rfl | rfl
    · exact ne_leftParen (isWordLike_of_keyword? hc)
    · exact ne_leftParen (isWordLike_of_nameOf? ht)
  | none => simp

theorem fields_withKey? {t t' : Table} {parts : List KeyPart} (h : withKey? t parts = some t') :
    t'.fields = markKeys t.fields (parts.map KeyPart.column) ∧
      ∀ name ∈ parts.map KeyPart.column, ∃ f ∈ t.fields, f.isNamed name = true := by
  obtain ⟨keys, hkeys, rfl⟩ := Option.map_eq_some_iff.mp h
  exact fields_foldlM_addTo? hkeys

theorem ne_nil_of_commaList {α : Type} {P : α → List Token → List Token → Prop} {as : List α} (h : CommaList P as ts rest) :
    as ≠ [] := by
  cases h with
  | last => simp
  | cons => simp

/-- An item makes what its definition says. -/
theorem builds_item {t t' : Table} {items : List (List Token)} {fs : List Field} {clauses : List String}
    (hitem : d.Spells item after) (hafter : kindOf after = .comma ∨ kindOf after = .rightParen)
    (hadd : d.addTo? t = some t') (hitems : Builds items t'.fields fs clauses) :
    Builds (item :: items) t.fields fs (d.entries ++ clauses) := by
  cases hitem with
  | @column c name sqlType parts us vs _ hstart hc htype hparts =>
    cases hadd
    have hsplit : c :: (us ++ (vs ++ after)) = (c :: (us ++ vs)) ++ after := by simp
    rw [hsplit, startsTableConstraint_append (by simp) hafter] at hstart
    have hname := Reader.name_field name sqlType parts
    refine .column hstart (f := Definition.field name sqlType parts) ?_ ?_ hitems
    · rw [hname]
      exact hc
    · rw [hname]
      intro clause hclause
      exact own_entries hclause
  | @constraint label ts _ _ hlabel hd =>
    cases hd with
    | @key us conflict _ p k l r parts hp hk hl hparts hr hconflict =>
      obtain ⟨hstart, hkeyword⟩ := constraint_start hlabel hp (by simp) (starts_key (.inl hp) hk)
      have hsplit : label ++ p :: k :: l :: (us ++ r :: conflict) = (label ++ [p, k]) ++ l :: (us ++ r :: conflict) := by simp
      have hbefore : ∀ t ∈ label ++ [p, k], t.kind ≠ .leftParen := by
        intro t ht
        rcases List.mem_append.mp ht with ht | ht
        · exact label_no_leftParen hlabel t ht
        · rcases List.mem_pair.mp ht with rfl | rfl
          · exact ne_leftParen (isWordLike_of_keyword? hp)
          · exact ne_leftParen (isWordLike_of_keyword? hk)
      have hnames : keyNames (label ++ p :: k :: l :: (us ++ r :: conflict)) = parts.map KeyPart.column := by
        rw [hsplit]
        exact keyNames_eq hbefore hl hparts hr
      obtain ⟨hfields, hfound⟩ := fields_withKey? hadd
      rw [← hnames] at hfields hfound
      refine .key hstart hkeyword ?_ hfound (hfields ▸ hitems)
      rw [hnames]
      simpa using ne_nil_of_commaList hparts
    | unique hu hg hconflict =>
      cases hadd
      obtain ⟨hstart, hkeyword⟩ := constraint_start hlabel hu (by simp) (starts_group (.inl hu) hg)
      exact .discarded hstart hkeyword (.inl rfl) hitems
    | @check g _ c hc hg =>
      cases hadd
      have hstarts : startsTableConstraint (c :: (g ++ [])) = true := starts_group (.inr hc) hg
      rw [List.append_nil] at hstarts
      obtain ⟨hstart, hkeyword⟩ := constraint_start hlabel hc (by simp) hstarts
      exact .discarded hstart hkeyword (.inr (.inl rfl)) hitems
    | foreignKey hf hk hg hts hrest =>
      cases hadd
      obtain ⟨hstart, hkeyword⟩ := constraint_start hlabel hf (by simp) (starts_key (.inr hf) hk)
      exact .discarded hstart hkeyword (.inr (.inr rfl)) hitems

theorem builds_definitions {t t' : Table} {r : Token} {ds : List Definition} {items : List (List Token)}
    (hr : r.kind = .rightParen) (hitems : List.Forall₂ (ItemOf Definition.Spells (r :: rest)) ds items)
    (hfold : ds.foldlM Definition.addTo? t = some t') : Builds items t.fields t'.fields (ds.flatMap Definition.entries) := by
  induction hitems generalizing t with
  | nil =>
    cases hfold
    exact .nil
  | cons hitem _ ih =>
    rw [List.foldlM_cons] at hfold
    obtain ⟨t₁, hadd, hfold⟩ := Option.bind_eq_some_iff.mp hfold
    obtain ⟨after, hspells, hafter⟩ := hitem
    have hkind : kindOf after = .comma ∨ kindOf after = .rightParen := by
      rcases hafter with hcomma | rfl
      · exact .inl hcomma
      · exact .inr hr
    exact builds_item hspells hkind hadd (ih hfold)

/-- The items that start no constraint are the columns, in their order. -/
theorem Builds.names {items : List (List Token)} {fs fs' : List Field} {clauses : List String}
    (h : Builds items fs fs' clauses) :
    fs'.map (fun f => some f.name) =
      fs.map (fun f => some f.name) ++ (items.filter fun item => !startsTableConstraint item).map firstName? := by
  induction h with
  | nil => simp
  | column hstart hname _ _ ih => simp [ih, hstart, hname]
  | discarded hstart _ _ _ ih => simp [ih, hstart]
  | @key item items fs fs' clauses hstart _ _ _ _ ih =>
    have hmarked : (markKeys fs (keyNames item)).map (fun f => some f.name) = fs.map (fun f => some f.name) := by
      have hnames := congrArg (List.map some) (map_name_markKeys fs (keyNames item))
      simpa [Function.comp_def] using hnames
    simp [ih, hstart, hmarked]

end

/-! ## Statements -/

/-- The tokens between the first parenthesis and the one that closes it. -/
inductive ColumnList : List Token → List Token → Prop where
  | mk {before inner behind : List Token} {l r : Token} (hbefore : ∀ t ∈ before, t.kind ≠ .leftParen)
      (hl : l.kind = .leftParen) (hinner : Matched inner) (hr : r.kind = .rightParen) :
      ColumnList (before ++ l :: (inner ++ r :: behind)) inner

theorem tableName_no_leftParen {name : String} {ts : List Token} (h : TableName name ts) : ∀ t ∈ ts, t.kind ≠ .leftParen := by
  cases h with
  | bare ht => simpa using ne_leftParen (isWordLike_of_nameOf? ht)
  | qualified hs hd ht => simp [ne_leftParen (isWordLike_of_nameOf? hs), hd, ne_leftParen (isWordLike_of_nameOf? ht)]

theorem temporary_no_leftParen {ts : List Token} (h : Temporary ts) : ∀ t ∈ ts, t.kind ≠ .leftParen := by
  cases h with
  | given ht =>
    rcases ht with ht | ht
    · simpa using ne_leftParen (isWordLike_of_keyword? ht)
    · simpa using ne_leftParen (isWordLike_of_keyword? ht)
  | none => simp

theorem ifNotExists_no_leftParen {ts rest : List Token} (h : IfNotExists ts rest) : ∀ t ∈ ts, t.kind ≠ .leftParen := by
  cases h with
  | given hi hn he => simp [ne_leftParen (isWordLike_of_keyword? hi), ne_leftParen (isWordLike_of_keyword? hn), ne_leftParen (isWordLike_of_keyword? he)]
  | none => simp

end SchemaEditor.Items

namespace SchemaEditor.Table

open Grammar Items

end SchemaEditor.Table
