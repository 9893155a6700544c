import SchemaEditor.Proofs.Table.Takes

/-!
# The grammar of table definitions

What a CREATE TABLE statement says, part by part, and how each part is spelled: by the tokens `ts`, in front of
`rest`. What follows counts where a part is taken as far as it goes. A statement says more than its table holds;
`Statement.table?` is the table, and `Statement.entries` are the clauses that are discarded.
-/

namespace SchemaEditor.Grammar

open Reader (isResolution isTypeWord startsConstraint nameOf? takeForeignKey takeBalanced IsType IsDefault compact KeyList)

/-! ## Parts of clauses -/

/-- A text in parentheses. -/
inductive Group : List Token → Prop where
  | mk {l r : Token} {ts : List Token} (hl : l.kind = .leftParen) (hts : Enclosed ts) (hr : r.kind = .rightParen) :
      Group (l :: (ts ++ [r]))

inductive SortOrder : List Token → List Token → Prop where
  | given {t : Token} {rest : List Token} (ht : t.keyword? = some .asc ∨ t.keyword? = some .desc) : SortOrder [t] rest
  | none {rest : List Token} (hasc : (kindOf rest).keyword? ≠ some .asc) (hdesc : (kindOf rest).keyword? ≠ some .desc) :
      SortOrder [] rest

inductive Conflict : List Token → List Token → Prop where
  | given {o c r : Token} {rest : List Token} (ho : o.keyword? = some .on) (hc : c.keyword? = some .conflict)
      (hr : isResolution r.keyword? = true) : Conflict [o, c, r] rest
  | none {rest : List Token} (h : (kindOf rest).keyword? ≠ some .on) : Conflict [] rest

/-- Words, perhaps with a size behind them, or nothing. -/
inductive TypeName : String → List Token → List Token → Prop where
  | given {ts rest : List Token} (hts : IsType ts)
      (hend : (∀ t ∈ ts, isTypeWord t = true) → (∀ t ∈ rest.head?, isTypeWord t = false) ∧ kindOf rest ≠ .leftParen) :
      TypeName (String.ofList (Token.source ts)) ts rest
  | none {rest : List Token} (h : ∀ t ∈ rest.head?, isTypeWord t = false) : TypeName "" [] rest

/-- A check that consists of the name of its column and one more check. -/
def WrapsCheck (column : String) (ts : List Token) : Prop :=
  ∃ n k us, ts = n :: k :: us ∧ nameOf? n = some column ∧ k.keyword? = some .check

inductive Check (column : String) : String → List Token → Prop where
  | plain {l r : Token} {ts : List Token} (hl : l.kind = .leftParen) (hts : Enclosed ts) (hr : r.kind = .rightParen)
      (hown : ¬WrapsCheck column ts) : Check column (String.ofList (compact ts)) (l :: (ts ++ [r]))
  | wrapped {l n k l' r' r : Token} {ts : List Token} (hl : l.kind = .leftParen) (hn : nameOf? n = some column)
      (hk : k.keyword? = some .check) (hl' : l'.kind = .leftParen) (hts : Enclosed ts) (hr' : r'.kind = .rightParen)
      (hr : r.kind = .rightParen) : Check column (String.ofList (compact ts)) (l :: n :: k :: l' :: (ts ++ [r', r]))

/-- The part of a generated column after AS. -/
inductive Generated : List Token → List Token → Prop where
  | stored {g rest : List Token} {t : Token} (hg : Group g)
      (ht : t.kind.isWord "STORED" = true ∨ t.kind.isWord "VIRTUAL" = true) : Generated (g ++ [t]) rest
  | bare {g rest : List Token} (hg : Group g) (hstored : (kindOf rest).isWord "STORED" = false)
      (hvirtual : (kindOf rest).isWord "VIRTUAL" = false) : Generated g rest

/-! ## Columns -/

inductive ColumnPart where
  | named (name : String)
  | primaryKey (autoIncrement : Bool)
  | notNull
  | null
  | unique
  | check (expression : String)
  | default (value : String)
  | collate
  | references
  | generated
deriving DecidableEq, Repr

namespace ColumnPart

/-- What the part makes of its column. -/
def apply (f : Field) : ColumnPart → Field
  | primaryKey true => { f with primaryKey := true, autoIncrement := true }
  | primaryKey false => { f with primaryKey := true }
  | notNull => { f with notNull := true }
  | unique => { f with unique := true }
  | check expression => { f with check := expression }
  | default value => { f with defaultValue := value }
  | named _ | null | collate | references | generated => f

/-- Whether the model has no place for the part. -/
def isDiscarded : ColumnPart → Bool
  | collate | references | generated => true
  | _ => false

/-- The part in the column `column`, by the keyword that it begins with and the tokens after that. -/
inductive Tail (column : String) : Keyword → ColumnPart → List Token → List Token → Prop where
  | named {t : Token} {name : String} {rest : List Token} (ht : nameOf? t = some name) :
      Tail column .constraint (.named name) [t] rest
  | primaryKey {k : Token} {order conflict rest : List Token} (hk : k.keyword? = some .key)
      (horder : SortOrder order (conflict ++ rest)) (hconflict : Conflict conflict rest)
      (hrest : (kindOf rest).keyword? ≠ some .autoincrement) :
      Tail column .primary (.primaryKey false) (k :: (order ++ conflict)) rest
  | autoIncrement {k a : Token} {order conflict rest : List Token} (hk : k.keyword? = some .key)
      (horder : SortOrder order (conflict ++ a :: rest)) (hconflict : Conflict conflict (a :: rest))
      (ha : a.keyword? = some .autoincrement) :
      Tail column .primary (.primaryKey true) (k :: (order ++ (conflict ++ [a]))) rest
  | notNull {n : Token} {conflict rest : List Token} (hn : n.keyword? = some .null) (hconflict : Conflict conflict rest) :
      Tail column .not .notNull (n :: conflict) rest
  | null {conflict rest : List Token} (hconflict : Conflict conflict rest) : Tail column .null .null conflict rest
  | unique {conflict rest : List Token} (hconflict : Conflict conflict rest) : Tail column .unique .unique conflict rest
  | check {expression : String} {ts rest : List Token} (h : Check column expression ts) :
      Tail column .check (.check expression) ts rest
  | default {value : String} {ts rest : List Token} (h : IsDefault ts value) : Tail column .default (.default value) ts rest
  | collate {t : Token} {name : String} {rest : List Token} (ht : nameOf? t = some name) :
      Tail column .collate .collate [t] rest
  | references {t : Token} {name : String} {ts rest : List Token} (ht : nameOf? t = some name)
      (hts : takeForeignKey t.kind 0 (ts ++ rest) = ⟨ts, rest, 0⟩) : Tail column .references .references (t :: ts) rest
  | generated {a k : Token} {ts rest : List Token} (ha : a.kind.isWord "ALWAYS" = true) (hk : k.keyword? = some .as)
      (hts : Generated ts rest) : Tail column .generated .generated (a :: k :: ts) rest
  | as {ts rest : List Token} (hts : Generated ts rest) : Tail column .as .generated ts rest

end ColumnPart

/-- A part of a column with its tokens. -/
structure ColumnClause where
  part : ColumnPart
  tokens : List Token
deriving DecidableEq, Repr

/-- What is kept of a discarded clause: its source, behind the name of its column if it belongs to one. -/
def entry (column : Option String) (ts : List Token) : String :=
  match column with
  | some name => name ++ " " ++ String.ofList (Token.source ts)
  | none => String.ofList (Token.source ts)

namespace ColumnClause

def entries (column : String) (c : ColumnClause) : List String :=
  if c.part.isDiscarded then [entry (some column) c.tokens] else []

def Spells (column : String) (c : ColumnClause) (ts rest : List Token) : Prop :=
  c.tokens = ts ∧ ∃ t k us, ts = t :: us ∧ t.keyword? = some k ∧ c.part.Tail column k us rest

/-- The clauses of a column, up to what begins none. -/
inductive All (column : String) : List ColumnClause → List Token → List Token → Prop where
  | nil {rest : List Token} (h : ∀ k ∈ (kindOf rest).keyword?, startsConstraint k = false) : All column [] [] rest
  | cons {c : ColumnClause} {cs : List ColumnClause} {ts us rest : List Token} (hc : c.Spells column ts (us ++ rest))
      (hcs : All column cs us rest) : All column (c :: cs) (ts ++ us) rest

end ColumnClause

/-! ## Table constraints -/

/-- Items with commas between them. -/
inductive CommaList {α : Type} (P : α → List Token → List Token → Prop) : List α → List Token → List Token → Prop where
  | last {a : α} {ts rest : List Token} (ha : P a ts rest) (hrest : kindOf rest ≠ .comma) : CommaList P [a] ts rest
  | cons {a : α} {as : List α} {ts us rest : List Token} {comma : Token} (ha : P a ts (comma :: (us ++ rest)))
      (hcomma : comma.kind = .comma) (has : CommaList P as us rest) : CommaList P (a :: as) (ts ++ comma :: us) rest

/-- A column of a key. -/
structure KeyPart where
  column : String
  collation : Option String
deriving DecidableEq, Repr

namespace KeyPart

inductive Spells : KeyPart → List Token → List Token → Prop where
  | plain {t : Token} {name : String} {order rest : List Token} (ht : nameOf? t = some name)
      (hcollate : (kindOf (order ++ rest)).keyword? ≠ some .collate) (horder : SortOrder order rest) :
      Spells ⟨name, none⟩ (t :: order) rest
  | collated {t c u : Token} {name collation : String} {order rest : List Token} (ht : nameOf? t = some name)
      (hc : c.keyword? = some .collate) (hu : nameOf? u = some collation) (horder : SortOrder order rest) :
      Spells ⟨name, some collation⟩ (t :: c :: u :: order) rest

/-- Marks the column in the table and lists it, if the table has it. -/
def addTo? (keys : KeyList) (k : KeyPart) : Option KeyList :=
  match keys.table.field? k.column, keys.table.modifyField? k.column Field.asPrimaryKey with
  | some f, some t => some ⟨t, keys.listed ++ [f.name]⟩
  | _, _ => none

end KeyPart

/-- The table with a key of these columns. -/
def withKey? (t : Table) (parts : List KeyPart) : Option Table :=
  (parts.foldlM KeyPart.addTo? ⟨t, []⟩).map fun keys => keys.table.setPrimaryKeyOrder keys.listed

/-- The name of a constraint, if it has one. -/
inductive Label : List Token → Prop where
  | given {c t : Token} {name : String} (hc : c.keyword? = some .constraint) (ht : nameOf? t = some name) : Label [c, t]
  | none : Label []

/-! ## Definitions -/

inductive Definition where
  | column (name sqlType : String) (clauses : List ColumnClause)
  | key (parts : List KeyPart)
  | unique (tokens : List Token)
  | check (tokens : List Token)
  | foreignKey (tokens : List Token)
deriving DecidableEq, Repr

/-- Whether a table constraint begins here and not a column. -/
def startsTableConstraint (ts : List Token) : Bool :=
  match (kindOf ts).keyword? with
  | some .constraint => true
  | some .primary | some .foreign => (kindOf ts.tail).keyword? == some .key
  | some .unique | some .check => kindOf ts.tail == .leftParen
  | _ => false

namespace Definition

/-- A table constraint behind its label. -/
inductive Constraint (label : List Token) : Definition → List Token → List Token → Prop where
  | key {us conflict rest : List Token} {p k l r : Token} {parts : List KeyPart} (hp : p.keyword? = some .primary)
      (hk : k.keyword? = some .key) (hl : l.kind = .leftParen)
      (hparts : CommaList KeyPart.Spells parts us (r :: (conflict ++ rest))) (hr : r.kind = .rightParen)
      (hconflict : Conflict conflict rest) : Constraint label (.key parts) (p :: k :: l :: (us ++ r :: conflict)) rest
  | unique {g conflict rest : List Token} {u : Token} (hu : u.keyword? = some .unique) (hg : Group g)
      (hconflict : Conflict conflict rest) :
      Constraint label (.unique (label ++ u :: (g ++ conflict))) (u :: (g ++ conflict)) rest
  | check {g rest : List Token} {c : Token} (hc : c.keyword? = some .check) (hg : Group g) :
      Constraint label (.check (label ++ c :: g)) (c :: g) rest
  | foreignKey {g ts rest : List Token} {f k : Token} (hf : f.keyword? = some .foreign) (hk : k.keyword? = some .key)
      (hg : Group g) (hts : takeBalanced (fun k => k == .comma || k == .rightParen) 0 (ts ++ rest) = (ts, rest))
      (hrest : (kindOf rest).isEnd = false) :
      Constraint label (.foreignKey (label ++ f :: k :: (g ++ ts))) (f :: k :: (g ++ ts)) rest

inductive Spells : Definition → List Token → List Token → Prop where
  | column {t : Token} {name sqlType : String} {clauses : List ColumnClause} {us vs rest : List Token}
      (hstart : startsTableConstraint (t :: (us ++ (vs ++ rest))) = false) (ht : nameOf? t = some name)
      (htype : TypeName sqlType us (vs ++ rest)) (hclauses : ColumnClause.All name clauses vs rest) :
      Spells (.column name sqlType clauses) (t :: (us ++ vs)) rest
  | constraint {label ts rest : List Token} {d : Definition} (hlabel : Label label) (hd : Constraint label d ts rest) :
      Spells d (label ++ ts) rest

/-- The column as a definition of the model. -/
def field (name sqlType : String) (clauses : List ColumnClause) : Field :=
  clauses.foldl (fun f c => c.part.apply f) { name, sqlType }

/-- The table with what the definition adds to it. -/
def addTo? (t : Table) : Definition → Option Table
  | column name sqlType clauses => some (t.addField (field name sqlType clauses))
  | key parts => withKey? t parts
  | unique _ | check _ | foreignKey _ => some t

/-- What is kept of the clauses that the model has no place for. -/
def entries : Definition → List String
  | column name _ clauses => clauses.flatMap (·.entries name)
  | key _ => []
  | unique ts | check ts | foreignKey ts => [entry none ts]

end Definition

/-! ## Statements -/

inductive TableOption where
  | withoutRowid
  | strict
deriving DecidableEq, Repr

namespace TableOption

inductive Spells : TableOption → List Token → Prop where
  | withoutRowid {w t : Token} (hw : w.keyword? = some .without) (ht : t.kind.isWord "ROWID" = true) : Spells .withoutRowid [w, t]
  | strict {t : Token} (ht : t.kind.isWord "STRICT" = true) : Spells .strict [t]

/-- Options with commas between them; a comma may follow the last one. -/
inductive All : List TableOption → List Token → List Token → Prop where
  | nil {rest : List Token} (hwithout : (kindOf rest).keyword? ≠ some .without)
      (hstrict : (kindOf rest).isWord "STRICT" = false) : All [] [] rest
  | last {o : TableOption} {ts rest : List Token} (ho : o.Spells ts) (hrest : kindOf rest ≠ .comma) : All [o] ts rest
  | cons {o : TableOption} {os : List TableOption} {ts us rest : List Token} {comma : Token} (ho : o.Spells ts)
      (hcomma : comma.kind = .comma) (hos : All os us rest) : All (o :: os) (ts ++ comma :: us) rest

end TableOption

structure Statement where
  name : String
  definitions : List Definition
  options : List TableOption
deriving DecidableEq, Repr

inductive Temporary : List Token → Prop where
  | given {t : Token} (ht : t.keyword? = some .temp ∨ t.keyword? = some .temporary) : Temporary [t]
  | none : Temporary []

inductive IfNotExists : List Token → List Token → Prop where
  | given {i n e : Token} {rest : List Token} (hi : i.keyword? = some .if) (hn : n.keyword? = some .not)
      (he : e.keyword? = some .exists) : IfNotExists [i, n, e] rest
  | none {rest : List Token} (h : (kindOf rest).keyword? ≠ some .if) : IfNotExists [] rest

/-- The name of a table, perhaps behind the name of a schema. -/
inductive TableName : String → List Token → Prop where
  | bare {t : Token} {name : String} (ht : nameOf? t = some name) : TableName name [t]
  | qualified {s d t : Token} {schema name : String} (hs : nameOf? s = some schema) (hd : d.kind = .dot)
      (ht : nameOf? t = some name) : TableName name [s, d, t]

inductive Semicolon : List Token → Prop where
  | given {t : Token} (ht : t.kind = .semicolon) : Semicolon [t]
  | none : Semicolon []

namespace Statement

/-- The statement is spelled by these tokens, up to the end. -/
inductive Spells : Statement → List Token → List Token → Prop where
  | mk {c b l r : Token} {temporary exists? tableName us vs semicolon rest : List Token} {name : String}
      {definitions : List Definition} {options : List TableOption} (hc : c.keyword? = some .create)
      (htemporary : Temporary temporary) (hb : b.keyword? = some .table)
      (hexists : IfNotExists exists? (tableName ++ l :: (us ++ r :: (vs ++ (semicolon ++ rest)))))
      (hname : TableName name tableName) (hl : l.kind = .leftParen)
      (hdefinitions : CommaList Definition.Spells definitions us (r :: (vs ++ (semicolon ++ rest)))) (hr : r.kind = .rightParen)
      (hoptions : TableOption.All options vs (semicolon ++ rest)) (hsemicolon : Semicolon semicolon) (hend : kindOf rest = .eof) :
      Spells ⟨name, definitions, options⟩
        (c :: (temporary ++ b :: (exists? ++ (tableName ++ l :: (us ++ r :: (vs ++ semicolon)))))) rest

/-- The table that the statement makes, if its keys are columns and it has a key where it needs one. -/
def table? (x : Statement) : Option Table := do
  let t ← x.definitions.foldlM Definition.addTo? { name := x.name }
  if x.options.contains .withoutRowid then
    if t.primaryKey.isEmpty then none else some (t.setWithoutRowid true)
  else some t

/-- What is kept of the clauses that the model has no place for, in their order. -/
def entries (x : Statement) : List String := x.definitions.flatMap Definition.entries

end Statement

end SchemaEditor.Grammar
