import SchemaEditor.Proofs.Table.Expressions
import SchemaEditor.Table.Printer

/-!
# Columns in print

A printed column is its name, its type and the constraints it has, each of them there or not. Every one of
them is followed by the next, or by the comma or parenthesis behind the column, and no reader of a part takes
that for more of its own.
-/

namespace SchemaEditor

/-- What may stand behind a part of a column: a delimiter, and the token of another part or of the end. -/
structure Follows (cs : List Char) : Prop where
  delimited : Delimited cs
  starts : ∃ k, Starts cs k ∧ Reader.endsPart k = true

/-- What stands behind a whole column. -/
structure EndsColumn (cs : List Char) : Prop where
  delimited : Delimited cs
  starts : Starts cs .comma ∨ Starts cs .rightParen

theorem EndsColumn.follows {cs : List Char} (h : EndsColumn cs) : Follows cs :=
  ⟨h.delimited, h.starts.elim (fun hk => ⟨.comma, hk, rfl⟩) fun hk => ⟨.rightParen, hk, rfl⟩⟩

theorem Starts.space {cs : List Char} {k : TokenKind} (h : Starts cs k) : Starts (' ' :: cs) k :=
  Starts.blank isBlank_space h

theorem delimited_space (cs : List Char) : Delimited (' ' :: cs) := ⟨' ', cs, rfl, rfl⟩

theorem follows_keyword {k : Keyword} (hk : Reader.endsPart (.keyword k) = true) {cs : List Char} (hcs : Delimited cs) :
    Follows (' ' :: (k.word.toList ++ cs)) :=
  ⟨delimited_space _, .keyword k, (isToken_keyword k hcs).starts.space, hk⟩

theorem Follows.ite {p : Prop} [Decidable p] {cs rest : List Char} (h : p → Follows (cs ++ rest)) (hrest : Follows rest) :
    Follows ((if p then cs else []) ++ rest) := by
  by_cases hp : p
  · rw [if_pos hp]
    exact h hp
  · rw [if_neg hp]
    exact hrest

namespace Reader

variable {α β : Type} {step : α → Reader (Turn α β)} [∀ a, Progresses (step a)]

/-! ## Loops -/

theorem reads_loop_again {a a' : α} {b : β} {cs ds rest : List Char} (hstep : Reads (step a) cs (.again a') (ds ++ rest))
    (hloop : Reads (loop step a') ds b rest) : Reads (loop step a) (cs ++ ds) b rest := by
  intro c hc
  rw [List.append_assoc] at hc
  obtain ⟨c₁, h₁, hb₁, hd₁⟩ := hstep c hc
  obtain ⟨c₂, h₂, hb₂, hd₂⟩ := hloop c₁ hb₁
  refine ⟨c₂, ?_, hb₂, hd₂.trans hd₁⟩
  rw [loop]
  split
  · next h => rw [h₁] at h; cases h; exact h₂
  · next h => rw [h₁] at h; cases h
  · next h => rw [h₁] at h; cases h

theorem reads_loop_done {a : α} {b : β} {cs rest : List Char} (hstep : Reads (step a) cs (.done b) rest) :
    Reads (loop step a) cs b rest := by
  intro c hc
  obtain ⟨c₁, h₁, hb₁, hd₁⟩ := hstep c hc
  refine ⟨c₁, ?_, hb₁, hd₁⟩
  rw [loop]
  split
  · next h => rw [h₁] at h; cases h
  · next h => rw [h₁] at h; cases h; rfl
  · next h => rw [h₁] at h; cases h

/-- A turn for a part that may be missing, and then leaves nothing to do. -/
theorem reads_loop_ite {p : Prop} [Decidable p] {a a' : α} {b : β} {cs ds rest : List Char}
    (hstep : p → Reads (step a) cs (.again a') (ds ++ rest)) (hsame : ¬p → a = a')
    (hloop : Reads (loop step a') ds b rest) : Reads (loop step a) ((if p then cs else []) ++ ds) b rest := by
  by_cases hp : p
  · rw [if_pos hp]
    exact reads_loop_again (hstep hp) hloop
  · rw [if_neg hp, hsame hp]
    exact hloop

/-! ## Constraints -/

/-- The keywords of clauses that may stand behind a key or a constraint, and are never printed. -/
def startsClause : TokenKind → Bool
  | .keyword .asc | .keyword .desc | .keyword .on => true
  | _ => false

theorem startsClause_of_endsPart {k : TokenKind} (h : endsPart k = true) : startsClause k = false := by
  unfold endsPart at h
  split at h <;> first | rfl | cases h

theorem reads_sortOrder {rest : List Char} {k : TokenKind} (hk : Starts rest k) (hc : startsClause k = false) :
    Reads sortOrder [] () rest := by
  have hasc : (k.keyword? == some .asc) = false := by
    cases k <;> simp [TokenKind.keyword?]
    rintro rfl; cases hc
  have hdesc : (k.keyword? == some .desc) = false := by
    cases k <;> simp [TokenKind.keyword?]
    rintro rfl; cases hc
  refine .look (reads_atKeyword hk .asc) (.look (reads_atKeyword hk .desc) ?_)
  rw [hasc, hdesc]
  exact Reads.pure () rest

theorem reads_conflictClause {rest : List Char} {k : TokenKind} (hk : Starts rest k) (hc : startsClause k = false) :
    Reads conflictClause [] () rest := by
  have hon : (k.keyword? == some .on) = false := by
    cases k <;> simp [TokenKind.keyword?]
    rintro rfl; cases hc
  refine .look (reads_atKeyword hk .on) ?_
  rw [hon]
  exact Reads.pure () rest

/-- A constraint is its keyword and a tail. -/
theorem reads_columnConstraint {f f' : Field} {k : Keyword} {cs rest : List Char} (hcs : Delimited (cs ++ rest))
    (htail : ∀ m, ∃ r, constraintTail m f k = some r ∧ Reads r cs f' rest) :
    Reads (columnConstraint f) (' ' :: (k.word.toList ++ cs)) (.again f') rest := by
  suffices h : Reads (columnConstraint f) (k.word.toList ++ cs) (.again f') rest from h.blank isBlank_space
  intro c hc
  rw [List.append_assoc] at hc
  have hw := isToken_keyword k hcs
  obtain ⟨hkind, -, hadv⟩ := hc.token hw
  obtain ⟨r, hr, hreads⟩ := htail c.read.length
  obtain ⟨c', hc', hb, hd⟩ := hreads c.advance hadv
  refine ⟨c', ?_, hb, hd⟩
  have hsome : c.current.keyword?.bind (constraintTail c.read.length f) = some r := by
    rw [Token.keyword?, hkind]
    exact hr
  unfold columnConstraint
  rw [hsome]
  show (skip >>= fun _ => r >>= fun f' => pure (Turn.again f')) c = _
  rw [bind_eq_of_ok (show skip c = .ok () c.advance from rfl), bind_eq_of_ok hc']
  rfl

theorem reads_columnConstraint_end {f : Field} {rest : List Char} (h : EndsColumn rest) :
    Reads (columnConstraint f) [] (.done f) rest := by
  intro c hc
  refine ⟨c, ?_, hc, rfl⟩
  have hnone : c.current.keyword? = none := by
    rcases h.starts with hk | hk <;> rw [Token.keyword?, hk c hc] <;> rfl
  unfold columnConstraint
  rw [hnone]
  rfl

theorem reads_keyword_space {k : Keyword} {cs : List Char} (hcs : Delimited cs) :
    Reads (expectKeyword k) (' ' :: k.word.toList) () cs :=
  .blank isBlank_space (reads_expectKeyword (isToken_keyword k hcs))

section
variable (f : Field) {rest : List Char} (h : Follows rest)
include h

theorem reads_notNull : Reads (columnConstraint f) " NOT NULL".toList (.again { f with notNull := true }) rest := by
  obtain ⟨k, hk, hend⟩ := h.starts
  refine reads_columnConstraint (k := .not) (delimited_space _) fun m => ⟨_, rfl, ?_⟩
  have hnull : Reads (expectKeyword .null) " NULL".toList () rest := reads_keyword_space h.delimited
  refine hnull.andThen ?_
  exact (reads_conflictClause hk (startsClause_of_endsPart hend)).andThen (Reads.pure _ rest)

theorem reads_unique : Reads (columnConstraint f) " UNIQUE".toList (.again { f with unique := true }) rest := by
  obtain ⟨k, hk, hend⟩ := h.starts
  refine reads_columnConstraint (k := .unique) h.delimited fun m => ⟨_, rfl, ?_⟩
  exact (reads_conflictClause hk (startsClause_of_endsPart hend)).andThen (Reads.pure _ rest)

theorem reads_primaryKey :
    Reads (columnConstraint f) " PRIMARY KEY".toList (.again { f with primaryKey := true }) rest := by
  obtain ⟨k, hk, hend⟩ := h.starts
  have hclause := startsClause_of_endsPart hend
  have hauto : (k.keyword? == some .autoincrement) = false := by
    cases k <;> simp [TokenKind.keyword?]
    rintro rfl; cases hend
  refine reads_columnConstraint (k := .primary) (delimited_space _) fun m => ⟨_, rfl, ?_⟩
  have hkey : Reads (expectKeyword .key) " KEY".toList () rest := reads_keyword_space h.delimited
  refine hkey.andThen ((reads_sortOrder hk hclause).andThen ((reads_conflictClause hk hclause).andThen ?_))
  refine (reads_atKeyword hk .autoincrement).andThen ?_
  rw [hauto]
  exact Reads.pure _ rest

theorem reads_autoIncrement :
    Reads (columnConstraint f) " PRIMARY KEY AUTOINCREMENT".toList
      (.again { f with primaryKey := true, autoIncrement := true }) rest := by
  refine reads_columnConstraint (k := .primary) (delimited_space _) fun m => ⟨_, rfl, ?_⟩
  have hauto := isToken_keyword .autoincrement h.delimited
  have hstarts : Starts (" AUTOINCREMENT".toList ++ rest) (.keyword .autoincrement) := hauto.starts.space
  have hkey : Reads (expectKeyword .key) " KEY".toList () (" AUTOINCREMENT".toList ++ rest) :=
    reads_keyword_space (delimited_space _)
  refine hkey.bind ?_
  refine .look (reads_sortOrder hstarts rfl) (.look (reads_conflictClause hstarts rfl) ?_)
  refine .look (reads_atKeyword hstarts .autoincrement) ?_
  exact (Reads.blank isBlank_space (reads_skip hauto)).andThen (Reads.pure _ rest)

theorem reads_default {s : String} (hs : readsBack defaultValue s "" = true) :
    Reads (columnConstraint f) (" DEFAULT ".toList ++ s.toList) (.again { f with defaultValue := s }) rest := by
  refine reads_columnConstraint (k := .default) (delimited_space _) fun m => ⟨_, rfl, ?_⟩
  exact (Reads.blank isBlank_space (reads_defaultValue hs h.delimited)).andThen (Reads.pure _ rest)

theorem reads_check {s : String} (hs : readsBack compactExpression s ")" = true) (hne : s ≠ "")
    (hown : wrapsCheck f.name (Cursor.start (s ++ ")")) = false) :
    Reads (columnConstraint f) (" CHECK(".toList ++ (s.toList ++ [')'])) (.again { f with check := s }) rest := by
  refine reads_columnConstraint (k := .check) ⟨'(', _, rfl, rfl⟩ fun m => ⟨_, rfl, ?_⟩
  exact (reads_checkExpression hs hne hown h.delimited).andThen (Reads.pure _ rest)

end

end Reader

/-! ## Whole columns -/

/-- The texts that a column keeps are read back as they are. -/
structure Field.Canonical (f : Field) : Prop where
  sqlType : f.sqlType = "" ∨ Reader.readsBack Reader.typeName f.sqlType "" = true
  defaultValue : f.defaultValue = "" ∨ Reader.readsBack Reader.defaultValue f.defaultValue "" = true
  /-- A check that wraps another one is read as the other one. -/
  check : f.check = "" ∨ Reader.readsBack Reader.compactExpression f.check ")" = true ∧
    Reader.wrapsCheck f.name (Cursor.start (f.check ++ ")")) = false

instance (f : Field) : Decidable f.Canonical :=
  decidable_of_iff (_ ∧ _ ∧ _) ⟨fun ⟨ht, hd, hc⟩ => ⟨ht, hd, hc⟩, fun ⟨ht, hd, hc⟩ => ⟨ht, hd, hc⟩⟩

/-- The key in a column definition. -/
def inlineKeyText (autoIncrement : Bool) : List Char :=
  if autoIncrement then " PRIMARY KEY AUTOINCREMENT".toList else " PRIMARY KEY".toList

def Field.notNullText (f : Field) : List Char := if f.notNull = true then " NOT NULL".toList else []

def Field.uniqueText (f : Field) : List Char := if f.unique = true then " UNIQUE".toList else []

def Field.defaultText (f : Field) : List Char :=
  if ¬f.defaultValue = "" then " DEFAULT ".toList ++ f.defaultValue.toList else []

def Field.checkText (f : Field) : List Char :=
  if ¬f.check = "" then " CHECK(".toList ++ (f.check.toList ++ [')']) else []

/-- The constraints of a column as they are printed. -/
def Field.constraintText (f : Field) (inlineKey : Bool) : List Char :=
  (if inlineKey = true then inlineKeyText f.autoIncrement else [])
    ++ (f.notNullText ++ (f.uniqueText ++ (f.defaultText ++ f.checkText)))

theorem toList_render (f : Field) (separator : String) (inlineKey : Bool) :
    (f.render separator inlineKey).toList =
      (quoteIdentifier f.name).toList ++ (separator.toList ++ (f.sqlType.toList ++ f.constraintText inlineKey)) := by
  have htoList (p : Prop) [Decidable p] (s t : String) : (if p then s else t).toList = if p then s.toList else t.toList :=
    apply_ite String.toList p s t
  have hnot (p : Prop) [Decidable p] (cs ds : List Char) : (if ¬p then cs else ds) = if p then ds else cs := ite_not ..
  simp only [Field.render, Field.constraintText, inlineKeyText, Field.notNullText, Field.uniqueText, Field.defaultText,
    Field.checkText, String.toList_append, List.append_assoc, htoList, hnot]
  by_cases hauto : f.autoIncrement = true
  · simp only [if_pos hauto]
    rfl
  · simp only [if_neg hauto]
    rfl

/-- A column as a definition gives it: the key is there only if the definition carries it. -/
def Field.withInlineKey (f : Field) (inlineKey : Bool) : Field :=
  { f with primaryKey := inlineKey, autoIncrement := inlineKey && f.autoIncrement }

namespace Reader

theorem reads_inlineKey {f : Field} (hf : f.autoIncrement = false) (autoIncrement : Bool) {rest : List Char} (h : Follows rest) :
    Reads (columnConstraint f) (inlineKeyText autoIncrement)
      (.again { f with primaryKey := true, autoIncrement := autoIncrement }) rest := by
  cases autoIncrement with
  | true => exact reads_autoIncrement f h
  | false =>
    have hsame : ({ f with primaryKey := true, autoIncrement := false } : Field) = { f with primaryKey := true } := by
      rw [← hf]
    rw [hsame]
    exact reads_primaryKey f h

theorem follows_inlineKeyText (autoIncrement : Bool) (rest : List Char) :
    Follows (inlineKeyText autoIncrement ++ rest) := by
  cases autoIncrement with
  | true => exact follows_keyword (k := .primary) rfl (delimited_space _)
  | false => exact follows_keyword (k := .primary) rfl (delimited_space _)

/-- What reading the constraints in `cs` comes to, with what has to follow the parts before them. -/
def ReadsConstraints (f : Field) (cs : List Char) (g : Field) (rest : List Char) : Prop :=
  Follows (cs ++ rest) ∧ Reads (loop columnConstraint f) cs g rest

/-- A part that is there or not, in front of parts that are read already. -/
theorem reads_part {p : Prop} [Decidable p] {f g : Field} {cs ds rest : List Char} (f' : Field)
    (h : ReadsConstraints f' ds g rest)
    (hfollows : Follows (ds ++ rest) → Follows (cs ++ (ds ++ rest)))
    (hstep : p → Follows (ds ++ rest) → Reads (columnConstraint f) cs (.again f') (ds ++ rest)) (hsame : ¬p → f = f') :
    ReadsConstraints f ((if p then cs else []) ++ ds) g rest := by
  refine ⟨?_, reads_loop_ite (fun hp => hstep hp h.1) hsame h.2⟩
  rw [List.append_assoc]
  exact h.1.ite fun _ => hfollows h.1

/-- The constraints of a column, each of which is there or not, are read one after the other. -/
theorem reads_constraints (f : Field) (hf : f.Canonical) (inlineKey : Bool) {rest : List Char} (h : EndsColumn rest) :
    ReadsConstraints { name := f.name, sqlType := f.sqlType } (f.constraintText inlineKey)
      (f.withInlineKey inlineKey) rest := by
  let f₅ := f.withInlineKey inlineKey
  let f₄ : Field := { f₅ with check := "" }
  let f₃ : Field := { f₄ with defaultValue := "" }
  let f₂ : Field := { f₃ with unique := false }
  let f₁ : Field := { f₂ with notNull := false }
  have hend : ReadsConstraints f₅ [] f₅ rest := ⟨h.follows, reads_loop_done (reads_columnConstraint_end h)⟩
  have hcheck : ReadsConstraints f₄ (f.checkText ++ []) f₅ rest := by
    refine reads_part f₅ hend (fun _ => ?_) (fun hp hrest => ?_) fun hp => ?_
    · exact follows_keyword (k := .check) rfl ⟨'(', _, rfl, rfl⟩
    · exact reads_check f₄ hrest (hf.check.resolve_left hp).1 hp (hf.check.resolve_left hp).2
    · simp [f₄, f₅, Field.withInlineKey, Classical.not_not.mp hp]
  rw [List.append_nil] at hcheck
  have hdefault : ReadsConstraints f₃ (f.defaultText ++ f.checkText) f₅ rest := by
    refine reads_part f₄ hcheck (fun _ => ?_) (fun hp hrest => ?_) fun hp => ?_
    · exact follows_keyword (k := .default) rfl (delimited_space _)
    · exact reads_default f₃ hrest (hf.defaultValue.resolve_left hp)
    · simp [f₃, f₄, f₅, Field.withInlineKey, Classical.not_not.mp hp]
  have hunique : ReadsConstraints f₂ (f.uniqueText ++ (f.defaultText ++ f.checkText)) f₅ rest := by
    refine reads_part f₃ hdefault (fun hrest => ?_) (fun hp hrest => ?_) fun hp => ?_
    · exact follows_keyword (k := .unique) rfl hrest.delimited
    · have hstep := reads_unique f₂ hrest
      rwa [← hp] at hstep
    · simp_all [f₂, f₃, f₄, f₅, Field.withInlineKey]
  have hnotNull : ReadsConstraints f₁ (f.notNullText ++ (f.uniqueText ++ (f.defaultText ++ f.checkText))) f₅ rest := by
    refine reads_part f₂ hunique (fun _ => ?_) (fun hp hrest => ?_) fun hp => ?_
    · exact follows_keyword (k := .not) rfl (delimited_space _)
    · have hstep := reads_notNull f₁ hrest
      rwa [← hp] at hstep
    · simp_all [f₁, f₂, f₃, f₄, f₅, Field.withInlineKey]
  refine reads_part f₁ hnotNull (fun _ => ?_) (fun hp hrest => ?_) fun hp => ?_
  · exact follows_inlineKeyText f.autoIncrement _
  · subst hp
    exact reads_inlineKey rfl f.autoIncrement hrest
  · simp_all [f₁, f₂, f₃, f₄, f₅, Field.withInlineKey]

theorem reads_columnDefinition (f : Field) (hf : f.Canonical) (inlineKey : Bool) {rest : List Char} (h : EndsColumn rest) :
    Reads columnDefinition (f.render "\t" inlineKey).toList (f.withInlineKey inlineKey) rest := by
  obtain ⟨hfollows, hconstraints⟩ := reads_constraints f hf inlineKey h
  obtain ⟨k, hk, hend⟩ := hfollows.starts
  rw [toList_render]
  refine (reads_expectName f.name (by simp)).bind ?_
  rw [← List.append_assoc]
  exact Reads.bind (.blank isBlank_tab (reads_typeName hf.sqlType hfollows.delimited hk hend)) hconstraints

end Reader

end SchemaEditor
