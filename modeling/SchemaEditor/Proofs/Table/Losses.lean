import SchemaEditor.Proofs.Table.Statements
import Mathlib.Data.List.Perm.Subperm

/-!
# Clauses that are lost

A clause that the model has no place for is listed, so that a table that is made anew does not lose it unnoticed.
Three kinds of clauses are neither held by the table nor listed: a check that another check of its column replaces,
the collation of a key column, and STRICT. A statement loses nothing exactly if it has none of them.
-/

namespace SchemaEditor

namespace Grammar

/-! ## Clauses -/

/-- The clauses that a table may fail to hold, each with what it is said of. -/
inductive Clause where
  /-- A check of the column at `place`. -/
  | check (place : Nat) (column expression : String) (tokens : List Token)
  | ofColumn (column : String) (tokens : List Token)
  | ofTable (tokens : List Token)
  | keyCollation (column collation : String)
  | strict
deriving DecidableEq, Repr

namespace Clause

/-- The table holds a check if it is that of its column. -/
def heldBy (t : Table) : Clause → Bool
  | check place _ expression _ => t.fields[place]?.any fun f => f.check == expression
  | _ => false

/-- How the clause reads in a list. -/
def entry : Clause → String
  | check _ column _ tokens | ofColumn column tokens => Grammar.entry (some column) tokens
  | ofTable tokens => Grammar.entry none tokens
  | keyCollation column collation => column ++ " COLLATE " ++ collation
  | strict => "STRICT"

/-- Whether the reader lists such clauses. -/
def isListed : Clause → Bool
  | ofColumn _ _ | ofTable _ => true
  | _ => false

end Clause

def ColumnPart.check? : ColumnPart → Option String
  | check expression => some expression
  | _ => none

/-- The checks of a column. -/
def checks (clauses : List ColumnClause) : List String := clauses.filterMap fun c => c.part.check?

def ColumnClause.clause? (place : Nat) (column : String) (c : ColumnClause) : Option Clause :=
  match c.part.check? with
  | some expression => some (.check place column expression c.tokens)
  | none => if c.part.isDiscarded then some (.ofColumn column c.tokens) else none

def KeyPart.clause? (k : KeyPart) : Option Clause := k.collation.map (.keyCollation k.column)

def TableOption.clause? : TableOption → Option Clause
  | withoutRowid => none
  | strict => some .strict

/-- The clauses of a definition; `place` is where its column comes to stand. -/
def Definition.clauses (place : Nat) : Definition → List Clause
  | column name _ clauses => clauses.filterMap (·.clause? place name)
  | key parts => parts.filterMap KeyPart.clause?
  | unique tokens | check tokens | foreignKey tokens => [.ofTable tokens]

def clausesFrom : Nat → List Definition → List Clause
  | _, [] => []
  | place, d :: ds => d.clauses place ++ clausesFrom (place + d.field?.toList.length) ds

namespace Statement

def clauses (x : Statement) : List Clause := clausesFrom 0 x.definitions ++ x.options.filterMap TableOption.clause?

/-- Every clause is held by the table or has an entry of its own. -/
def KeepsClauses (x : Statement) (t : Table) (entries : List String) : Prop :=
  ((x.clauses.filter fun c => !c.heldBy t).map Clause.entry).Subperm entries

end Statement

/-- No check replaces a different one, and no key column has a collation. -/
def Definition.LosesNothing : Definition → Prop
  | column _ _ cs => ∀ e ∈ checks cs, ∀ e' ∈ checks cs, e = e'
  | key parts => ∀ k ∈ parts, k.collation = none
  | unique _ | check _ | foreignKey _ => True

structure Statement.LosesNothing (x : Statement) : Prop where
  definitions : ∀ d ∈ x.definitions, d.LosesNothing
  notStrict : .strict ∉ x.options

/-! ## The list -/

theorem entries_columnClause (place : Nat) (column : String) (c : ColumnClause) :
    c.entries column = ((c.clause? place column).toList.filter Clause.isListed).map Clause.entry := by
  obtain ⟨part, tokens⟩ := c
  cases part <;> rfl

theorem entries_columnClauses (place : Nat) (column : String) (cs : List ColumnClause) :
    cs.flatMap (·.entries column) = ((cs.filterMap (·.clause? place column)).filter Clause.isListed).map Clause.entry := by
  induction cs with
  | nil => rfl
  | cons c cs ih =>
    rw [List.flatMap_cons, ih, entries_columnClause place]
    cases hc : c.clause? place column <;> simp [hc, List.filter_cons]
    split <;> simp

theorem not_isListed_of_key {k : KeyPart} {c : Clause} (h : k.clause? = some c) : c.isListed = false := by
  obtain ⟨collation, -, rfl⟩ := Option.map_eq_some_iff.mp h
  rfl

theorem entries_definition (place : Nat) (d : Definition) :
    d.entries = ((d.clauses place).filter Clause.isListed).map Clause.entry := by
  cases d with
  | column name sqlType cs => exact entries_columnClauses place name cs
  | key parts =>
    have hnone : (parts.filterMap KeyPart.clause?).filter Clause.isListed = [] := by
      rw [List.filter_eq_nil_iff]
      intro c hc
      obtain ⟨k, -, hk⟩ := List.mem_filterMap.mp hc
      simp [not_isListed_of_key hk]
    rw [Definition.clauses, hnone]
    rfl
  | unique _ | check _ | foreignKey _ => rfl

theorem entries_definitions (place : Nat) (ds : List Definition) :
    ds.flatMap Definition.entries = ((clausesFrom place ds).filter Clause.isListed).map Clause.entry := by
  induction ds generalizing place with
  | nil => rfl
  | cons d ds ih =>
    rw [List.flatMap_cons, clausesFrom, List.filter_append, List.map_append, ← entries_definition, ← ih]

theorem Statement.entries_eq (x : Statement) : x.entries = (x.clauses.filter Clause.isListed).map Clause.entry := by
  have hoptions : (x.options.filterMap TableOption.clause?).filter Clause.isListed = [] := by
    rw [List.filter_eq_nil_iff]
    intro c hc
    obtain ⟨o, -, ho⟩ := List.mem_filterMap.mp hc
    cases o with
    | withoutRowid => cases ho
    | strict => cases ho; simp [Clause.isListed]
  rw [Statement.clauses, List.filter_append, hoptions, List.append_nil]
  exact entries_definitions 0 x.definitions

/-! ## What is lost -/

section
variable {t : Table}

theorem not_heldBy_of_isListed {c : Clause} (h : c.isListed = true) : c.heldBy t = false := by
  cases c with
  | ofColumn _ _ | ofTable _ => rfl
  | _ => cases h

/-- Listed clauses are as many as entries, so none of the others finds an entry. -/
theorem Statement.keepsClauses_iff {x : Statement} :
    x.KeepsClauses t x.entries ↔ ∀ c ∈ x.clauses, c.isListed = true ∨ c.heldBy t = true := by
  unfold KeepsClauses
  rw [entries_eq]
  constructor
  · intro h c hc
    by_contra hlost
    rw [not_or, Bool.not_eq_true, Bool.not_eq_true] at hlost
    -- The lost clause is one of those that need an entry, and all the entries are taken.
    have hlt : (x.clauses.filter Clause.isListed).length < (x.clauses.filter fun c => !c.heldBy t).length := by
      have hsub : (x.clauses.filter fun c => !c.heldBy t).filter Clause.isListed = x.clauses.filter Clause.isListed := by
        rw [List.filter_filter]
        refine List.filter_congr fun d _ => ?_
        cases hd : d.isListed with
        | true => simp [not_heldBy_of_isListed hd]
        | false => rfl
      rw [← hsub, ← List.countP_eq_length_filter]
      refine lt_of_le_of_ne List.countP_le_length fun hall => ?_
      have := List.countP_eq_length.mp hall c (List.mem_filter.mpr ⟨hc, by simp [hlost.2]⟩)
      rw [hlost.1] at this
      cases this
    have hle := h.length_le
    rw [List.length_map, List.length_map] at hle
    exact absurd hlt (Nat.not_lt.mpr hle)
  · intro h
    have hsame : (x.clauses.filter fun c => !c.heldBy t) = x.clauses.filter Clause.isListed := by
      refine List.filter_congr fun c hc => ?_
      cases hlisted : c.isListed with
      | true => simp [not_heldBy_of_isListed hlisted]
      | false =>
        have hheld : c.heldBy t = true := (h c hc).resolve_left (by simp [hlisted])
        simp [hheld]
    rw [hsame]

theorem checks_cons (c : ColumnClause) (cs : List ColumnClause) : checks (c :: cs) = c.part.check?.toList ++ checks cs := by
  unfold checks
  rw [List.filterMap_cons]
  cases c.part.check? <;> rfl

/-- The check of a column is the last one that it has. -/
theorem check_field (name sqlType : String) (cs : List ColumnClause) :
    (Definition.field name sqlType cs).check = (checks cs).getLast?.getD "" := by
  have hfold (f : Field) : (cs.foldl (fun f c => c.part.apply f) f).check = (checks cs).getLast?.getD f.check := by
    induction cs generalizing f with
    | nil => rfl
    | cons c cs ih =>
      rw [List.foldl_cons, ih, checks_cons]
      cases c.part with
      | check e => simp [ColumnPart.check?, ColumnPart.apply, List.getLast?_cons]
      | primaryKey autoIncrement => cases autoIncrement <;> rfl
      | _ => rfl
  exact hfold _

/-- All the checks of a column are held if and only if none differs from another one. -/
theorem held_checks_iff {cs : List ColumnClause} (name sqlType : String) :
    (∀ e ∈ checks cs, (Definition.field name sqlType cs).check = e) ↔ ∀ e ∈ checks cs, ∀ e' ∈ checks cs, e = e' := by
  rw [check_field]
  constructor
  · intro h e he e' he'
    rw [← h e he, ← h e' he']
  · intro h e he
    obtain ⟨last, hlast⟩ := Option.isSome_iff_exists.mp (List.getLast?_isSome.mpr (List.ne_nil_of_mem he))
    rw [hlast]
    exact h last (List.mem_of_getLast? hlast) e he

theorem forall_clauses_column {place : Nat} {name sqlType : String} {cs : List ColumnClause} :
    (∀ c ∈ (Definition.column name sqlType cs).clauses place, c.isListed = true ∨ c.heldBy t = true) ↔
      ∀ e ∈ checks cs, t.fields[place]?.any (·.check == e) = true := by
  induction cs with
  | nil => simp [Definition.clauses, checks]
  | cons c cs ih =>
    rw [Definition.clauses] at ih ⊢
    rw [checks_cons, List.filterMap_cons]
    obtain ⟨part, tokens⟩ := c
    cases part with
    | check e => simpa [ColumnClause.clause?, ColumnPart.check?, Clause.isListed, Clause.heldBy] using fun _ => ih
    | collate | references | generated =>
      simpa [ColumnClause.clause?, ColumnPart.check?, ColumnPart.isDiscarded, Clause.isListed] using ih
    | _ => exact ih

/-- What becomes of the clauses of a definition whose column, if it has one, has come to stand at `place`. -/
theorem kept_definition {d : Definition} {place : Nat}
    (hfield : ∀ f, d.field? = some f → t.fields[place]?.map Field.check = some f.check) :
    (∀ c ∈ d.clauses place, c.isListed = true ∨ c.heldBy t = true) ↔ d.LosesNothing := by
  cases d with
  | column name sqlType cs =>
    obtain ⟨f, hf, hcheck⟩ := Option.map_eq_some_iff.mp (hfield _ rfl)
    rw [forall_clauses_column, hf, Definition.LosesNothing, ← held_checks_iff name sqlType, ← hcheck]
    simp
  | key parts =>
    have hlost {k : KeyPart} {c : Clause} (hk : k.clause? = some c) : ¬(c.isListed = true ∨ c.heldBy t = true) := by
      obtain ⟨collation, -, rfl⟩ := Option.map_eq_some_iff.mp hk
      simp [Clause.isListed, Clause.heldBy]
    constructor
    · intro h k hk
      cases hcollation : k.collation with
      | none => rfl
      | some collation =>
        have hc : k.clause? = some _ := congrArg (Option.map _) hcollation
        exact absurd (h _ (List.mem_filterMap.mpr ⟨k, hk, hc⟩)) (hlost hc)
    · intro h c hc
      obtain ⟨k, hk, hclause⟩ := List.mem_filterMap.mp hc
      simp [KeyPart.clause?, h k hk] at hclause
  | unique _ | check _ | foreignKey _ => simp [Definition.clauses, Definition.LosesNothing, Clause.isListed]

theorem kept_definitions {ds : List Definition} {place : Nat}
    (hfields : (t.fields.map Field.check).drop place = (ds.filterMap Definition.field?).map Field.check) :
    (∀ c ∈ clausesFrom place ds, c.isListed = true ∨ c.heldBy t = true) ↔ ∀ d ∈ ds, d.LosesNothing := by
  induction ds generalizing place with
  | nil => simp [clausesFrom]
  | cons d ds ih =>
    have hd : ∀ f, d.field? = some f → t.fields[place]?.map Field.check = some f.check := by
      intro f hf
      have hat := congrArg List.head? hfields
      simpa [hf, List.head?_drop] using hat
    -- Only a column moves the place of the next definition on.
    have hds : (t.fields.map Field.check).drop (place + d.field?.toList.length) =
        (ds.filterMap Definition.field?).map Field.check := by
      cases hf : d.field? with
      | none => simpa [hf] using hfields
      | some f =>
        rw [Option.toList_some, List.length_singleton, ← List.drop_drop, hfields]
        simp [hf]
    simp only [clausesFrom, List.forall_mem_append, List.forall_mem_cons]
    exact and_congr (kept_definition hd) (ih hds)

theorem Statement.losesNothing_iff {x : Statement} (ht : x.table? = some t) : x.KeepsClauses t x.entries ↔ x.LosesNothing := by
  have hfields : (t.fields.map Field.check).drop 0 = (x.definitions.filterMap Definition.field?).map Field.check :=
    x.map_fields (fun _ => rfl) ht
  have hoptions : (∀ c ∈ x.options.filterMap TableOption.clause?, c.isListed = true ∨ c.heldBy t = true) ↔
      .strict ∉ x.options := by
    constructor
    · intro h hstrict
      have := h .strict (List.mem_filterMap.mpr ⟨_, hstrict, rfl⟩)
      simp [Clause.isListed, Clause.heldBy] at this
    · intro h c hc
      obtain ⟨o, ho, hclause⟩ := List.mem_filterMap.mp hc
      cases o with
      | withoutRowid => cases hclause
      | strict => exact absurd ho h
  rw [keepsClauses_iff, Statement.clauses, List.forall_mem_append, kept_definitions hfields, hoptions]
  exact ⟨fun ⟨hds, hstrict⟩ => ⟨hds, hstrict⟩, fun ⟨hds, hstrict⟩ => ⟨hds, hstrict⟩⟩

end

end Grammar

namespace Table

open Grammar

/-- Of the clauses of a statement that is read, those of the table and of its columns that are no checks are listed, and
no others. So each clause is held by the table or listed if and only if the statement loses nothing. -/
theorem keepsClauses_iff_losesNothing {s : String} {t : Table} (h : parse s = .ok t) :
    (∃ x : Statement, x.SpellsText s ∧ x.table? = some t) ∧ ∀ x : Statement, x.SpellsText s → x.table? = some t →
      discardedClauses s = (x.clauses.filter Clause.isListed).map Clause.entry ∧
        (x.KeepsClauses t (discardedClauses s) ↔ x.LosesNothing) := by
  refine ⟨parse_eq_ok_iff.mp h, fun x hx ht => ?_⟩
  have hlist : discardedClauses s = x.entries := discardedClauses_eq hx ht
  rw [hlist]
  exact ⟨x.entries_eq, Statement.losesNothing_iff ht⟩

/-- Of two checks the first one is lost, and nothing is listed. -/
theorem keepsClauses_iff_losesNothing_twoChecks : ∃ (x : Statement) (t : Table),
    parse "CREATE TABLE t(a CHECK(1)CHECK(2))" = .ok t ∧ x.SpellsText "CREATE TABLE t(a CHECK(1)CHECK(2))" ∧ x.table? = some t ∧
      discardedClauses "CREATE TABLE t(a CHECK(1)CHECK(2))" = [] ∧ ¬x.KeepsClauses t [] := by
  have hcheck {k l n r : Token} {s : List Char} (rest : List Token) (hk : k.kind = .keyword .check) (hl : l.kind = .leftParen)
      (hn : n.kind = .number) (hs : n.text = s) (hr : r.kind = .rightParen) :
      ColumnClause.Spells "a" ⟨.check (String.ofList s), [k, l, n, r]⟩ [k, l, n, r] rest := by
    have henclosed : Enclosed [n] := by simp [Enclosed, depthThrough, hn, TokenKind.isEnd, Reader.depthAfter]
    subst hs
    refine ⟨rfl, k, .check, [l, n, r], rfl, congrArg TokenKind.keyword? hk, .check (.plain hl henclosed hr ?_)⟩
    rintro ⟨_, _, _, h, -⟩
    cases h
  have hbare : (tokenize "CREATE TABLE t(a CHECK(1)CHECK(2))").map Token.bare = [(.keyword .create, "CREATE".toList),
      (.keyword .table, "TABLE".toList), (.identifier "t", ['t']), (.leftParen, ['(']), (.identifier "a", ['a']),
      (.keyword .check, "CHECK".toList), (.leftParen, ['(']), (.number, ['1']), (.rightParen, [')']),
      (.keyword .check, "CHECK".toList), (.leftParen, ['(']), (.number, ['2']), (.rightParen, [')']),
      (.rightParen, [')']), (.eof, [])] := by
    decide +kernel
  simp only [List.map_eq_cons_iff, List.map_eq_nil_iff, Token.bare, Prod.mk.injEq] at hbare
  obtain ⟨c, _, htokens, hc, b, _, rfl, hb, n, _, rfl, hn, l, _, rfl, hl, a, _, rfl, ha, k₁, _, rfl, hk₁, l₁, _, rfl, hl₁,
    n₁, _, rfl, hn₁, r₁, _, rfl, hr₁, k₂, _, rfl, hk₂, l₂, _, rfl, hl₂, n₂, _, rfl, hn₂, r₂, _, rfl, hr₂, r, _, rfl, hr,
    e, _, rfl, he, rfl⟩ := hbare
  have hend : ∀ k ∈ (kindOf [r, e]).keyword?, Reader.startsConstraint k = false := by simp [hr.1, TokenKind.keyword?]
  have hlast : ColumnClause.All "a" _ [k₂, l₂, n₂, r₂] [r, e] := .cons (hcheck [r, e] hk₂.1 hl₂.1 hn₂.1 hn₂.2 hr₂.1) (.nil hend)
  have hclauses := hlast.cons (hcheck ([k₂, l₂, n₂, r₂] ++ [r, e]) hk₁.1 hl₁.1 hn₁.1 hn₁.2 hr₁.1)
  have hstart : startsTableConstraint (a :: ([] ++ (([k₁, l₁, n₁, r₁] ++ [k₂, l₂, n₂, r₂]) ++ [r, e]))) = false := by
    simp [startsTableConstraint, ha.1, TokenKind.keyword?]
  have htype : TypeName "" [] (([k₁, l₁, n₁, r₁] ++ [k₂, l₂, n₂, r₂]) ++ [r, e]) :=
    .none fun t ht => by
      obtain rfl : k₁ = t := Option.some.inj ht
      simp [Reader.isTypeWord, hk₁.1, Reader.startsConstraint]
  have hname : Reader.nameOf? a = some "a" := by simp [Reader.nameOf?, ha.1]
  have hcolumn := Definition.Spells.column hstart hname htype hclauses
  have hx : Statement.SpellsText ⟨"t", [.column "a" "" [⟨.check "1", [k₁, l₁, n₁, r₁]⟩, ⟨.check "2", [k₂, l₂, n₂, r₂]⟩]], []⟩
      "CREATE TABLE t(a CHECK(1)CHECK(2))" := by
    have htable : Reader.nameOf? n = some "t" := by simp [Reader.nameOf?, hn.1]
    refine ⟨_, [e], ?_, .mk (congrArg TokenKind.keyword? hc.1) .none (congrArg TokenKind.keyword? hb.1) (.none ?_)
      (.bare htable) hl.1
      (.last hcolumn ?_) hr.1 (.nil ?_ ?_) .none he.1⟩
    · simpa using htokens
    · simp [hn.1, TokenKind.keyword?]
    · simp [hr.1]
    · simp [he.1, TokenKind.keyword?]
    · simp [he.1, TokenKind.isWord]
  have hparse : parse "CREATE TABLE t(a CHECK(1)CHECK(2))" = .ok { name := "t", fields := [{ name := "a", check := "2" }] } := by
    decide +kernel
  have hlist : discardedClauses "CREATE TABLE t(a CHECK(1)CHECK(2))" = [] := by decide +kernel
  obtain ⟨-, hkeeps⟩ := (keepsClauses_iff_losesNothing hparse).2 _ hx rfl
  rw [hlist] at hkeeps
  refine ⟨_, _, hparse, hx, rfl, hlist, fun h => ?_⟩
  have hsame : ("1" : String) = "2" :=
    (hkeeps.mp h).definitions _ (List.mem_singleton_self _) _ (by simp [checks, ColumnPart.check?]) _
      (by simp [checks, ColumnPart.check?])
  exact absurd hsame (by decide)

end Table

end SchemaEditor
