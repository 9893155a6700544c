import SchemaEditor.Proofs.Table.Accepted
import SchemaEditor.Proofs.Table.Closing
import SchemaEditor.Proofs.Table.Definitions

/-!
# What print can be read as

An expression in print may be read as another one, or not at all. `Gives r cs P rest` says what is known all the same:
if the reader gives anything in front of `cs` and `rest`, it satisfies `P`, and the reader stops before `rest`. So one
expression that changes is no harm to the parts behind it.
-/

namespace SchemaEditor

namespace Reader

variable {α β : Type}

def Gives (r : Reader α) (cs : List Char) (P : α → Prop) (rest : List Char) : Prop :=
  ∀ c a c', c.Before (cs ++ rest) → r c = .ok a c' → c'.Before rest ∧ P a

variable {r : Reader α} {f : α → Reader β} {cs ds rest : List Char} {P : α → Prop} {Q : β → Prop}

theorem Reads.gives {a : α} (h : Reads r cs a rest) : Gives r cs (· = a) rest := by
  intro c b c' hc hb
  obtain ⟨c₁, ha, hbefore, -⟩ := h c hc
  rw [ha] at hb
  cases hb
  exact ⟨hbefore, rfl⟩

theorem Gives.mono {P' : α → Prop} (h : Gives r cs P rest) (hP : ∀ a, P a → P' a) : Gives r cs P' rest := by
  intro c a c' hc ha
  obtain ⟨hbefore, hPa⟩ := h c a c' hc ha
  exact ⟨hbefore, hP a hPa⟩

theorem gives_pure {a : α} (h : P a) (rest : List Char) : Gives (pure a) [] P rest :=
  (Reads.pure a rest).gives.mono fun _ hb => hb ▸ h

theorem Gives.bind (hr : Gives r cs P (ds ++ rest)) (hf : ∀ a, P a → Gives (f a) ds Q rest) :
    Gives (r >>= f) (cs ++ ds) Q rest := by
  intro c b c' hc hb
  rw [List.append_assoc] at hc
  obtain ⟨a, c₁, ha, hb⟩ := bind_eq_ok.mp hb
  obtain ⟨hbefore, hP⟩ := hr c a c₁ hc ha
  exact hf a hP c₁ b c' hbefore hb

/-- What is read in one way only leaves one reader to go on with. -/
theorem Reads.bind_gives {a : α} (hr : Reads r cs a (ds ++ rest)) (hf : Gives (f a) ds Q rest) :
    Gives (r >>= f) (cs ++ ds) Q rest :=
  hr.gives.bind fun _ hb => hb ▸ hf

theorem Reads.look_gives {a : α} (hr : Reads r [] a (cs ++ rest)) (hf : Gives (f a) cs Q rest) : Gives (r >>= f) cs Q rest :=
  hr.bind_gives hf

theorem Gives.andThen (hr : Gives r cs P rest) (hf : ∀ a, P a → Gives (f a) [] Q rest) : Gives (r >>= f) cs Q rest := by
  have h : Gives (r >>= f) (cs ++ []) Q rest := Gives.bind hr hf
  rwa [List.append_nil] at h

theorem Gives.blank {g : List Char} (hg : ∀ x ∈ g, Text.isBlank x = true) (h : Gives r cs P rest) :
    Gives r (g ++ cs) P rest := by
  intro c a c' hc ha
  rw [List.append_assoc] at hc
  exact h c a c' (hc.of_blank hg) ha

theorem Gives.blank_rest {g : List Char} (hg : ∀ x ∈ g, Text.isBlank x = true) (h : Gives r cs P (g ++ rest)) :
    Gives r (cs ++ g) P rest := by
  intro c a c' hc ha
  rw [List.append_assoc] at hc
  obtain ⟨hbefore, hP⟩ := h c a c' hc ha
  exact ⟨hbefore.of_blank hg, hP⟩

/-! ## Loops -/

section
variable {step : α → Reader (Turn α β)} [∀ a, Progresses (step a)] {a : α}

theorem gives_loop_again (hstep : Gives (step a) cs (fun turn => ∃ a', turn = .again a' ∧ P a') (ds ++ rest))
    (hloop : ∀ a', P a' → Gives (loop step a') ds Q rest) : Gives (loop step a) (cs ++ ds) Q rest := by
  intro c b c' hc hb
  rw [List.append_assoc] at hc
  rcases loop_eq_ok.mp hb with hdone | ⟨a₁, c₁, hagain, hb⟩
  · obtain ⟨-, a', hturn, -⟩ := hstep c _ c' hc hdone
    cases hturn
  · obtain ⟨hbefore, a', hturn, hP⟩ := hstep c _ c₁ hc hagain
    cases hturn
    exact hloop a₁ hP c₁ b c' hbefore hb

theorem gives_loop_done (hstep : Gives (step a) cs (fun turn => ∃ b, turn = .done b ∧ Q b) rest) :
    Gives (loop step a) cs Q rest := by
  intro c b c' hc hb
  rcases loop_eq_ok.mp hb with hdone | ⟨a₁, c₁, hagain, -⟩
  · obtain ⟨hbefore, b', hturn, hQ⟩ := hstep c _ c' hc hdone
    cases hturn
    exact ⟨hbefore, hQ⟩
  · obtain ⟨-, b', hturn, -⟩ := hstep c _ c₁ hc hagain
    cases hturn

end

end Reader

/-! ## Columns -/

/-- The expressions that a column keeps are read back as they are. -/
structure Field.KeepsExpressions (f : Field) : Prop where
  defaultValue : f.defaultValue = "" ∨ Reader.readsBack Reader.defaultValue f.defaultValue "" = true
  /-- A check that wraps another one is read as the other one. -/
  check : f.check = "" ∨ Reader.readsBack Reader.compactExpression f.check ")" = true ∧
    Reader.wrapsCheck f.name (Cursor.start (f.check ++ ")")) = false

instance (f : Field) : Decidable f.KeepsExpressions :=
  decidable_of_iff (_ ∧ _) ⟨fun ⟨hd, hc⟩ => ⟨hd, hc⟩, fun ⟨hd, hc⟩ => ⟨hd, hc⟩⟩

/-- A column read from the print of `f`. Where its expressions are those of `f`, they are read back anywhere. -/
structure Field.Resembles (f : Field) (inlineKey : Bool) (g : Field) : Prop where
  same : g = { f.withInlineKey inlineKey with defaultValue := g.defaultValue, check := g.check }
  keeps : g.defaultValue = f.defaultValue → g.check = f.check → f.KeepsExpressions

namespace Field.Spelled

variable {f : Field} (h : f.Spelled)
include h

theorem sqlType_readsBack : f.sqlType = "" ∨ Reader.readsBack Reader.typeName f.sqlType "" = true := by
  refine h.sqlType.imp_right ?_
  rintro ⟨ts, hts, htype, hs⟩
  rw [hs]
  exact Reader.readsBack_typeName hts htype

theorem canonical (hkeeps : f.KeepsExpressions) : f.Canonical := ⟨h.sqlType_readsBack, hkeeps.defaultValue, hkeeps.check⟩

end Field.Spelled

namespace Reader

variable {rest : List Char}

theorem gives_columnConstraint {f : Field} {k : Keyword} {cs : List Char} {P : Field → Prop} (hcs : Delimited (cs ++ rest))
    (htail : ∀ m, ∃ r, constraintTail m f k = some r ∧ Gives r cs P rest) :
    Gives (columnConstraint f) (' ' :: (k.word.toList ++ cs)) (fun turn => ∃ f', turn = .again f' ∧ P f') rest := by
  suffices h : Gives (columnConstraint f) (k.word.toList ++ cs) (fun turn => ∃ f', turn = .again f' ∧ P f') rest from
    h.blank isBlank_space
  intro c turn c' hc hturn
  rw [List.append_assoc] at hc
  obtain ⟨hkind, -, hadv⟩ := hc.token (isToken_keyword k hcs)
  obtain ⟨r, hr, hgives⟩ := htail c.read.length
  have hsome : c.current.keyword?.bind (constraintTail c.read.length f) = some r := by
    rw [Token.keyword?, hkind]
    exact hr
  unfold columnConstraint at hturn
  rw [hsome] at hturn
  simp only [bind_eq_ok, skip_eq_ok, pure_eq_ok] at hturn
  obtain ⟨-, _, rfl, f', c₁, hf', rfl, rfl⟩ := hturn
  obtain ⟨hbefore, hP⟩ := hgives c.advance f' c₁ hadv hf'
  exact ⟨hbefore, f', rfl, hP⟩

/-- The default value that is read may be another one; if it is the same, it is read back anywhere. -/
theorem gives_default (f : Field) (h : Follows rest) {g : Field} (hg : g.Spelled) (hne : g.defaultValue ≠ "") :
    Gives (columnConstraint f) (" DEFAULT ".toList ++ g.defaultValue.toList) (fun turn => ∃ f', turn = .again f' ∧
      ∃ v, f' = { f with defaultValue := v } ∧ (v = g.defaultValue → readsBack defaultValue g.defaultValue "" = true)) rest := by
  have hvalue : Gives defaultValue g.defaultValue.toList
      (fun v => v = g.defaultValue → readsBack defaultValue g.defaultValue "" = true) rest := by
    obtain ⟨ts, hts, hdefault⟩ := hg.defaultValue.resolve_left hne
    rcases readsBack_defaultValue hts hdefault with hback | ⟨us, hus, henclosed, hs⟩
    · exact (reads_defaultValue hback h.delimited).gives.mono fun _ _ _ => hback
    · have hlexemes := isLexeme_of_inRow hus (proper_of_depthThrough henclosed)
      intro c v c' hc hv
      have hbefore : c.Before (['('] ++ (compact us ++ ')' :: rest)) := by simpa [hs] using hc
      obtain ⟨hafter, hback⟩ := defaultValue_closes hlexemes henclosed hbefore hv
      refine ⟨hafter, fun hsame => ?_⟩
      rw [← hsame]
      exact hback (hsame.trans hs)
  refine gives_columnConstraint (k := .default) (delimited_space _) fun m => ⟨_, rfl, ?_⟩
  exact (Gives.blank isBlank_space hvalue).andThen fun v hv => gives_pure ⟨v, rfl, hv⟩ rest

/-- The same for a check. -/
theorem gives_check (f : Field) {g : Field} (hg : g.Spelled) (hne : g.check ≠ "") :
    Gives (columnConstraint f) (" CHECK(".toList ++ (g.check.toList ++ [')'])) (fun turn => ∃ f', turn = .again f' ∧
      ∃ v, f' = { f with check := v } ∧ (v = g.check → readsBack compactExpression g.check ")" = true ∧
        wrapsCheck f.name (Cursor.start (g.check ++ ")")) = false)) rest := by
  obtain ⟨ts, hts, henclosed, hs⟩ := hg.check.resolve_left hne
  have hlexemes := isLexeme_of_inRow hts (proper_of_depthThrough henclosed)
  refine gives_columnConstraint (k := .check) ⟨'(', _, rfl, rfl⟩ fun m => ⟨_, rfl, ?_⟩
  have hvalue : Gives (checkExpression f.name) ('(' :: (g.check.toList ++ [')'])) (fun v => v = g.check →
      readsBack compactExpression g.check ")" = true ∧ wrapsCheck f.name (Cursor.start (g.check ++ ")")) = false) rest := by
    intro c v c' hc hv
    have hbefore : c.Before (['('] ++ (compact ts ++ ')' :: rest)) := by simpa [hs] using hc
    obtain ⟨hafter, hback⟩ := checkExpression_closes hlexemes henclosed hbefore hv
    refine ⟨hafter, fun hsame => ?_⟩
    rw [← hsame]
    exact hback (hsame.trans hs)
  exact hvalue.andThen fun v hv => gives_pure ⟨v, rfl, hv⟩ rest

/-- What the constraints in `cs` come to, with what has to follow the parts before them. -/
def GivesConstraints (f : Field) (cs : List Char) (P : Field → Prop) (rest : List Char) : Prop :=
  Follows (cs ++ rest) ∧ Gives (loop columnConstraint f) cs P rest

/-- A part that is there or not, and is read as it is, in front of other parts. -/
theorem gives_part {p : Prop} [Decidable p] {f : Field} {cs ds : List Char} {P : Field → Prop} (f' : Field)
    (h : GivesConstraints f' ds P rest) (hfollows : Follows (ds ++ rest) → Follows (cs ++ (ds ++ rest)))
    (hstep : p → Follows (ds ++ rest) → Reads (columnConstraint f) cs (.again f') (ds ++ rest)) (hsame : ¬p → f = f') :
    GivesConstraints f ((if p then cs else []) ++ ds) P rest := by
  refine ⟨?_, ?_⟩
  · rw [List.append_assoc]
    exact h.1.ite fun _ => hfollows h.1
  by_cases hp : p
  · rw [if_pos hp]
    refine gives_loop_again (P := fun a => a = f') ((hstep hp h.1).gives.mono fun turn hturn => ⟨f', hturn, rfl⟩) ?_
    rintro _ rfl
    exact h.2
  · rw [if_neg hp, hsame hp]
    exact h.2

/-- Behind the last part the column is what it has become. -/
theorem gives_endOfColumn {f : Field} {P : Field → Prop} (hf : P f) (h : EndsColumn rest) : GivesConstraints f [] P rest :=
  ⟨h.follows, gives_loop_done ((reads_columnConstraint_end h).gives.mono fun _ hturn => ⟨f, hturn, hf⟩)⟩

/-- The constraints of a column are read as they are, but for the expressions. -/
theorem gives_constraints {f : Field} (hf : f.Spelled) (inlineKey : Bool) (h : EndsColumn rest) :
    GivesConstraints { name := f.name, sqlType := f.sqlType } (f.constraintText inlineKey) (f.Resembles inlineKey) rest := by
  -- A part is read by what follows it, so the parts are taken from the last one on.
  let column (v w : String) : Field := { f.withInlineKey inlineKey with defaultValue := v, check := w }
  have hcheck (v : String) (hv : v = f.defaultValue → f.defaultValue = "" ∨ readsBack defaultValue f.defaultValue "" = true) :
      GivesConstraints (column v "") f.checkText (f.Resembles inlineKey) rest := by
    by_cases hp : f.check = ""
    · rw [Field.checkText, if_neg (not_not.mpr hp)]
      exact gives_endOfColumn ⟨rfl, fun hsame _ => ⟨hv hsame, .inl hp⟩⟩ h
    · rw [Field.checkText, if_pos hp]
      refine ⟨follows_keyword (k := .check) rfl ⟨'(', _, rfl, rfl⟩, ?_⟩
      rw [← List.append_nil (" CHECK(".toList ++ (f.check.toList ++ [')']))]
      refine gives_loop_again (gives_check (column v "") hf hp) ?_
      rintro _ ⟨w, rfl, hw⟩
      exact (gives_endOfColumn ⟨rfl, fun hsame hcheck => ⟨hv hsame, .inr (hw hcheck)⟩⟩ h).2
  have hdefault : GivesConstraints (column "" "") (f.defaultText ++ f.checkText) (f.Resembles inlineKey) rest := by
    by_cases hp : f.defaultValue = ""
    · rw [Field.defaultText, if_neg (not_not.mpr hp)]
      exact hcheck "" fun _ => .inl hp
    · have hfollows := (hcheck "" fun hsame => absurd hsame.symm hp).1
      rw [Field.defaultText, if_pos hp]
      refine ⟨follows_keyword (k := .default) rfl (delimited_space _), ?_⟩
      refine gives_loop_again (gives_default (column "" "") hfollows hf hp) ?_
      rintro _ ⟨v, rfl, hv⟩
      exact (hcheck v fun hsame => .inr (hv hsame)).2
  let f₂ : Field := { column "" "" with unique := false }
  let f₁ : Field := { f₂ with notNull := false }
  have hunique : GivesConstraints f₂ (f.uniqueText ++ (f.defaultText ++ f.checkText)) (f.Resembles inlineKey) rest := by
    refine gives_part (column "" "") hdefault (fun hrest => ?_) (fun hp hrest => ?_) fun hp => ?_
    · exact follows_keyword (k := .unique) rfl hrest.delimited
    · have hstep := reads_unique f₂ hrest
      rwa [← hp] at hstep
    · simp_all [f₂, column, Field.withInlineKey]
  have hnotNull : GivesConstraints f₁ (f.notNullText ++ (f.uniqueText ++ (f.defaultText ++ f.checkText)))
      (f.Resembles inlineKey) rest := by
    refine gives_part f₂ hunique (fun _ => ?_) (fun hp hrest => ?_) fun hp => ?_
    · exact follows_keyword (k := .not) rfl (delimited_space _)
    · have hstep := reads_notNull f₁ hrest
      rwa [← hp] at hstep
    · simp_all [f₁, f₂, column, Field.withInlineKey]
  refine gives_part f₁ hnotNull (fun _ => ?_) (fun hp hrest => ?_) fun hp => ?_
  · exact follows_inlineKeyText f.autoIncrement _
  · subst hp
    exact reads_inlineKey rfl f.autoIncrement hrest
  · simp_all [f₁, f₂, column, Field.withInlineKey]

theorem gives_columnLine (t : Table) {f : Field} (hf : f.Spelled) (inlineKey : Bool) (h : EndsColumn rest) :
    Gives (definition t) (f.render "\t" inlineKey).toList (fun t' => ∃ g, t' = t.addField g ∧ f.Resembles inlineKey g) rest := by
  have hname : Starts ((f.render "\t" inlineKey).toList ++ rest) (.identifier f.name) := by
    rw [toList_render, List.append_assoc]
    exact (isToken_quoteIdentifier f.name (by simp)).starts
  refine (reads_atTableConstraint_none rfl hname).look_gives ?_
  obtain ⟨hfollows, hconstraints⟩ := gives_constraints hf inlineKey h
  obtain ⟨k, hk, hend⟩ := hfollows.starts
  have hcolumn : Gives columnDefinition (f.render "\t" inlineKey).toList (f.Resembles inlineKey) rest := by
    rw [toList_render]
    refine (reads_expectName f.name (by simp)).bind_gives ?_
    rw [← List.append_assoc]
    exact Reads.bind_gives (.blank isBlank_tab (reads_typeName hf.sqlType_readsBack hfollows.delimited hk hend)) hconstraints
  exact hcolumn.andThen fun g hg => gives_pure ⟨g, rfl, hg⟩ rest

/-! ## Lists -/

/-- What reading the items one after the other comes to, wherever they end. -/
inductive GivesEach {α : Type} (r : α → Reader α) (P : α → Prop) : α → List (List Char) → Prop where
  | nil {a : α} (h : P a) : GivesEach r P a []
  | cons {a : α} {cs : List Char} {items : List (List Char)} (Q : α → Prop)
      (hitem : ∀ rest, EndsColumn rest → Gives (r a) cs Q rest) (hitems : ∀ a', Q a' → GivesEach r P a' items) :
      GivesEach r P a (cs :: items)

/-- A list with commas, and blanks behind them, up to a parenthesis. -/
theorem gives_list {α : Type} {r : α → Reader α} [∀ a, Progresses (r a >>= turnAtComma)] {g : List Char}
    (hg : ∀ x ∈ g, Text.isBlank x = true) (hrest : Delimited rest) (hparen : Starts rest .rightParen) {P : α → Prop} {a : α}
    {items : List (List Char)} (h : GivesEach r P a items) (hne : items ≠ []) :
    Gives (loop (fun a => r a >>= turnAtComma) a) ((',' :: g).intercalate items) P rest := by
  induction h with
  | nil => exact absurd rfl hne
  | @cons a cs items Q hitem hitems ih =>
    cases items with
    | nil =>
      rw [List.intercalate_singleton]
      refine gives_loop_done ((hitem rest ⟨hrest, .inr hparen⟩).andThen fun a' ha' => ?_)
      refine (reads_turnAtComma_done a' hparen).gives.mono fun turn hturn => ⟨a', hturn, ?_⟩
      cases hitems a' ha' with
      | nil hP => exact hP
    | cons ds items =>
      rw [List.intercalate_cons_cons]
      have hturn : Gives (r a >>= turnAtComma) (cs ++ [',']) (fun turn => ∃ a', turn = .again a' ∧ Q a')
          (g ++ ((',' :: g).intercalate (ds :: items) ++ rest)) := by
        refine (hitem _ (endsColumn_comma _)).bind fun a' ha' => ?_
        exact (reads_turnAtComma_again a' _).gives.mono fun turn hturn => ⟨a', hturn, ha'⟩
      have hloop := gives_loop_again (hturn.blank_rest hg) fun a' ha' => ih a' ha' (by simp)
      simpa using hloop

end Reader

end SchemaEditor
