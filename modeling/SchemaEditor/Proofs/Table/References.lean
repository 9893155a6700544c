import SchemaEditor.Proofs.Sql.Truncation
import SchemaEditor.Proofs.Table.Clauses

/-!
# References clauses between other clauses

A clause of a column is read in the same way in other surroundings, as long as what follows it looks the same or begins
a references clause. So a references clause can be put between any two clauses of a column. It takes all that belongs to
it, and ends in front of the next clause, unless the other table is called set and the next clause begins with NULL or
DEFAULT.
-/

namespace SchemaEditor

open Reader (nameOf? nameOf?_congr isTypeWord startsConstraint endsForeignKey takeForeignKey depthAfter compact_congr IsType
  IsDefault)

/-! ## What follows a clause -/

/-- To a clause in front of them, `rest'` look like `rest`, or a references clause begins with them. Only of NOT it matters
what comes second. -/
structure Outlook (rest rest' : List Token) : Prop where
  first : kindOf rest' = kindOf rest ∨ kindOf rest' = .keyword .references
  second : kindOf rest' = .keyword .not → kindOf rest'.tail = kindOf rest.tail

namespace Outlook

variable {ts us rest rest' : List Token}

theorem references {t : Token} (ht : t.keyword? = some .references) (rest us : List Token) : Outlook rest (t :: us) := by
  have hkind := Token.kind_of_keyword? ht
  exact ⟨.inr hkind, by simp [hkind]⟩

theorem of_map_bare (h : rest.map Token.bare = rest'.map Token.bare) : Outlook rest rest' := by
  have hkind {us us' : List Token} (h : us.map Token.bare = us'.map Token.bare) : kindOf us' = kindOf us := by
    cases us with
    | nil =>
      obtain rfl : us' = [] := by simpa using h.symm
      rfl
    | cons u us =>
      obtain ⟨v, vs, rfl, hv, -⟩ := List.map_eq_cons_iff.mp h.symm
      exact kind_congr hv
  exact ⟨.inl (hkind h), fun _ => hkind (by rw [List.map_tail, List.map_tail, h])⟩

/-- What stands in front of both alike leaves them alike; NOT does not stand there alone. -/
theorem append (h : Outlook rest rest') (hts : ts.map Token.bare = us.map Token.bare)
    (hnot : kindOf ts = .keyword .not → ts.tail ≠ []) : Outlook (ts ++ rest) (us ++ rest') := by
  match ts, us with
  | [], [] => exact h
  | [], _ :: _ => cases hts
  | _ :: _, [] => cases hts
  | t :: ts, u :: us =>
    obtain ⟨htu, htus⟩ := List.cons.inj hts
    have hkind : u.kind = t.kind := (kind_congr htu).symm
    refine ⟨.inl hkind, fun hu => ?_⟩
    match ts, us with
    | [], _ => exact absurd rfl (hnot (hkind.symm.trans hu))
    | _ :: _, [] => cases htus
    | t' :: ts, u' :: us => exact (kind_congr (List.cons.inj htus).1).symm

theorem keyword?_ne {k : Keyword} (h : Outlook rest rest') (hk : k ≠ .references) (hrest : (kindOf rest).keyword? ≠ some k) :
    (kindOf rest').keyword? ≠ some k := by
  rcases h.first with hfirst | hfirst
  · rwa [hfirst]
  · rw [hfirst]
    simpa [TokenKind.keyword?] using hk.symm

theorem isWord_eq_false {w : String} (h : Outlook rest rest') (hrest : (kindOf rest).isWord w = false) :
    (kindOf rest').isWord w = false := by
  rcases h.first with hfirst | hfirst
  · rwa [hfirst]
  · rw [hfirst]
    rfl

end Outlook

/-! ## Foreign key clauses in other surroundings -/

theorem endsForeignKey_of_ne {previous k : TokenKind} (hk : k ≠ .keyword .not) (f g : Option TokenKind) :
    endsForeignKey previous f k = endsForeignKey previous g k := by
  cases k with
  | keyword k => cases k <;> first | rfl | exact absurd rfl hk
  | _ => rfl

theorem endsForeignKey_not (previous : TokenKind) (ts : List Token) :
    endsForeignKey previous (ts.head?.map Token.kind) (.keyword .not) = ((kindOf ts).keyword? == some .null) := by
  cases ts <;> rfl

theorem takeForeignKey_eq_nil {previous : TokenKind} {depth : Nat} {rest : List Token} :
    takeForeignKey previous depth rest = ⟨[], rest, 0⟩ ↔
      depth = 0 ∧ endsForeignKey previous (rest.tail.head?.map Token.kind) (kindOf rest) = true := by
  cases rest with
  | nil => simp [takeForeignKey, endsForeignKey]
  | cons t ts =>
    cases depth with
    | zero =>
      by_cases hends : endsForeignKey previous (ts.head?.map Token.kind) t.kind = true <;> simp [takeForeignKey, hends]
    | succ n => by_cases hend : t.kind.isEnd = true <;> simp [takeForeignKey, hend]

theorem takeForeignKey_eq_cons {previous : TokenKind} {depth : Nat} {t : Token} {ts us rest : List Token} :
    takeForeignKey previous depth (t :: us) = ⟨t :: ts, rest, 0⟩ ↔
      (if depth = 0 then endsForeignKey previous (us.head?.map Token.kind) t.kind = false else t.kind.isEnd = false) ∧
        takeForeignKey t.kind (depthAfter depth t.kind) us = ⟨ts, rest, 0⟩ := by
  cases depth with
  | zero =>
    by_cases hends : endsForeignKey previous (us.head?.map Token.kind) t.kind = true
    · simp [takeForeignKey, hends]
    · cases htail : takeForeignKey t.kind (depthAfter 0 t.kind) us
      simp [takeForeignKey, hends, htail]
  | succ n =>
    by_cases hend : t.kind.isEnd = true
    · simp [takeForeignKey, hend]
    · cases htail : takeForeignKey t.kind (depthAfter (n + 1) t.kind) us
      simp [takeForeignKey, hend, htail]

theorem takeForeignKey_congr {previous : TokenKind} {depth : Nat} {ts us rest rest' : List Token}
    (hts : ts.map Token.bare = us.map Token.bare) (hrest : Outlook rest rest')
    (h : takeForeignKey previous depth (ts ++ rest) = ⟨ts, rest, 0⟩) :
    takeForeignKey previous depth (us ++ rest') = ⟨us, rest', 0⟩ := by
  induction ts generalizing us previous depth with
  | nil =>
    obtain rfl : us = [] := by simpa using hts.symm
    rw [List.nil_append] at h ⊢
    obtain ⟨rfl, hends⟩ := takeForeignKey_eq_nil.mp h
    refine takeForeignKey_eq_nil.mpr ⟨rfl, ?_⟩
    rcases hrest.first with hfirst | hfirst
    · by_cases hnot : kindOf rest' = .keyword .not
      · rw [← hfirst, hnot, endsForeignKey_not, ← hrest.second hnot] at hends
        rw [hnot, endsForeignKey_not, hends]
      · rw [hfirst] at hnot ⊢
        rwa [endsForeignKey_of_ne hnot _ (rest.tail.head?.map Token.kind)]
    · rw [hfirst]
      rfl
  | cons t ts ih =>
    obtain ⟨u, us, rfl, hu, hus⟩ := List.map_eq_cons_iff.mp hts.symm
    have hkind : u.kind = t.kind := kind_congr hu
    rw [List.cons_append, takeForeignKey_eq_cons] at h ⊢
    obtain ⟨hgo, htail⟩ := h
    rw [hkind]
    refine ⟨?_, ih hus.symm htail⟩
    split at hgo
    · next hdepth =>
      rw [if_pos hdepth]
      by_cases hnot : t.kind = .keyword .not
      · rw [hnot, endsForeignKey_not, beq_eq_false_iff_ne] at hgo ⊢
        by_cases hlast : ts = []
        · subst hlast
          obtain rfl : us = [] := by simpa using hus
          exact hrest.keyword?_ne (by decide) hgo
        · have hsame : kindOf (us ++ rest') = kindOf (ts ++ rest) := by
            obtain ⟨v, vs, rfl⟩ := List.exists_cons_of_ne_nil hlast
            obtain ⟨w, ws, rfl, hw, -⟩ := List.map_eq_cons_iff.mp hus
            exact kind_congr hw
          rwa [hsame]
      · rwa [endsForeignKey_of_ne hnot _ ((ts ++ rest).head?.map Token.kind)]
    · next hdepth => rwa [if_neg hdepth]

/-! ## Clauses in other surroundings -/

namespace Grammar

variable {ts us rest rest' : List Token}

theorem SortOrder.congr (h : SortOrder ts rest) (hts : ts.map Token.bare = us.map Token.bare) (hrest : Outlook rest rest') :
    SortOrder us rest' := by
  cases h with
  | given ht =>
    obtain ⟨u, rfl, hu⟩ := List.map_eq_singleton_iff.mp hts.symm
    rw [← keyword?_congr hu] at ht
    exact .given ht
  | none hasc hdesc =>
    obtain rfl : us = [] := by simpa using hts.symm
    exact .none (hrest.keyword?_ne (by decide) hasc) (hrest.keyword?_ne (by decide) hdesc)

theorem Conflict.congr (h : Conflict ts rest) (hts : ts.map Token.bare = us.map Token.bare) (hrest : Outlook rest rest') :
    Conflict us rest' := by
  cases h with
  | given ho hc hr =>
    simp only [List.map_cons, List.map_nil, List.map_eq_cons_iff, List.map_eq_nil_iff, eq_comm (a := _ :: _)] at hts
    obtain ⟨o, _, rfl, ho', c, _, rfl, hc', r, _, rfl, hr', rfl⟩ := hts
    rw [← keyword?_congr ho'] at ho
    rw [← keyword?_congr hc'] at hc
    rw [← keyword?_congr hr'] at hr
    exact .given ho hc hr
  | none hon =>
    obtain rfl : us = [] := by simpa using hts.symm
    exact .none (hrest.keyword?_ne (by decide) hon)

/-- A conflict clause does not begin with NOT. -/
theorem Conflict.outlook (h : Conflict ts rest) (hts : ts.map Token.bare = us.map Token.bare) (hrest : Outlook rest rest') :
    Outlook (ts ++ rest) (us ++ rest') := by
  refine hrest.append hts fun hnot => ?_
  cases h with
  | given => simp
  | none => cases hnot

theorem Group.congr (h : Group ts) (hts : ts.map Token.bare = us.map Token.bare) : Group us := by
  obtain ⟨hl, hinside, hr⟩ := h
  rw [List.map_cons, List.map_append] at hts
  obtain ⟨l, _, rfl, hl', hus⟩ := List.map_eq_cons_iff.mp hts.symm
  obtain ⟨inside, _, rfl, hinside', hlast⟩ := List.map_eq_append_iff.mp hus
  obtain ⟨r, rfl, hr'⟩ := List.map_eq_singleton_iff.mp hlast
  refine .mk ((kind_congr hl').trans hl) ?_ ((kind_congr hr').trans hr)
  rw [Enclosed, depthThrough_congr hinside']
  exact hinside

theorem WrapsCheck.congr {column : String} (h : WrapsCheck column ts) (hts : ts.map Token.bare = us.map Token.bare) :
    WrapsCheck column us := by
  obtain ⟨n, k, vs, rfl, hn, hk⟩ := h
  obtain ⟨n', _, rfl, hn', hus⟩ := List.map_eq_cons_iff.mp hts.symm
  obtain ⟨k', _, rfl, hk', -⟩ := List.map_eq_cons_iff.mp hus
  exact ⟨n', k', _, rfl, (nameOf?_congr hn').trans hn, (keyword?_congr hk').trans hk⟩

theorem Check.congr {column expression : String} (h : Check column expression ts)
    (hts : ts.map Token.bare = us.map Token.bare) : Check column expression us := by
  cases h with
  | plain hl hinside hr hown =>
    rw [List.map_cons, List.map_append] at hts
    obtain ⟨l, _, rfl, hl', hus⟩ := List.map_eq_cons_iff.mp hts.symm
    obtain ⟨inside, _, rfl, hinside', hlast⟩ := List.map_eq_append_iff.mp hus
    obtain ⟨r, rfl, hr'⟩ := List.map_eq_singleton_iff.mp hlast
    rw [← compact_congr hinside']
    refine .plain ((kind_congr hl').trans hl) ?_ ((kind_congr hr').trans hr) fun h => hown (h.congr hinside')
    rw [Enclosed, depthThrough_congr hinside']
    exact hinside
  | wrapped hl hn hk hl₂ hinside hr₂ hr =>
    rw [List.map_cons, List.map_cons, List.map_cons, List.map_cons, List.map_append] at hts
    obtain ⟨l, _, rfl, hl', hus⟩ := List.map_eq_cons_iff.mp hts.symm
    obtain ⟨n, _, rfl, hn', hus⟩ := List.map_eq_cons_iff.mp hus
    obtain ⟨k, _, rfl, hk', hus⟩ := List.map_eq_cons_iff.mp hus
    obtain ⟨l₂, _, rfl, hl₂', hus⟩ := List.map_eq_cons_iff.mp hus
    obtain ⟨inside, _, rfl, hinside', hlast⟩ := List.map_eq_append_iff.mp hus
    obtain ⟨r₂, _, rfl, hr₂', hlast⟩ := List.map_eq_cons_iff.mp hlast
    obtain ⟨r, rfl, hr'⟩ := List.map_eq_singleton_iff.mp hlast
    rw [← compact_congr hinside']
    refine .wrapped ((kind_congr hl').trans hl) ((nameOf?_congr hn').trans hn) ((keyword?_congr hk').trans hk)
      ((kind_congr hl₂').trans hl₂) ?_ ((kind_congr hr₂').trans hr₂) ((kind_congr hr').trans hr)
    rw [Enclosed, depthThrough_congr hinside']
    exact hinside

theorem Generated.congr (h : Generated ts rest) (hts : ts.map Token.bare = us.map Token.bare) (hrest : Outlook rest rest') :
    Generated us rest' := by
  cases h with
  | stored hg ht =>
    rw [List.map_append] at hts
    obtain ⟨g, _, rfl, hg', hlast⟩ := List.map_eq_append_iff.mp hts.symm
    obtain ⟨t, rfl, ht'⟩ := List.map_eq_singleton_iff.mp hlast
    rw [← kind_congr ht'] at ht
    exact .stored (hg.congr hg'.symm) ht
  | bare hg hstored hvirtual =>
    exact .bare (hg.congr hts) (hrest.isWord_eq_false hstored) (hrest.isWord_eq_false hvirtual)

namespace ColumnPart

/-- The same part of a column in other surroundings. -/
theorem Tail.congr {column : String} {k : Keyword} {p : ColumnPart} (h : Tail column k p ts rest)
    (hts : ts.map Token.bare = us.map Token.bare) (hrest : Outlook rest rest') : Tail column k p us rest' := by
  cases h with
  | named ht =>
    obtain ⟨t, rfl, ht'⟩ := List.map_eq_singleton_iff.mp hts.symm
    exact .named ((nameOf?_congr ht').trans ht)
  | primaryKey hk horder hconflict hauto =>
    rw [List.map_cons, List.map_append] at hts
    obtain ⟨t, _, rfl, hk', hus⟩ := List.map_eq_cons_iff.mp hts.symm
    obtain ⟨order, conflict, rfl, horder', hconflict'⟩ := List.map_eq_append_iff.mp hus
    exact .primaryKey ((keyword?_congr hk').trans hk) (horder.congr horder'.symm (hconflict.outlook hconflict'.symm hrest))
      (hconflict.congr hconflict'.symm hrest) (hrest.keyword?_ne (by decide) hauto)
  | @autoIncrement _ a _ _ _ hk horder hconflict ha =>
    rw [List.map_cons, List.map_append, List.map_append] at hts
    obtain ⟨t, _, rfl, hk', hus⟩ := List.map_eq_cons_iff.mp hts.symm
    obtain ⟨order, _, rfl, horder', hus⟩ := List.map_eq_append_iff.mp hus
    obtain ⟨conflict, _, rfl, hconflict', hlast⟩ := List.map_eq_append_iff.mp hus
    obtain ⟨a', rfl, ha'⟩ := List.map_eq_singleton_iff.mp hlast
    have hnot : a.kind ≠ .keyword .not := by
      intro hnot
      rw [Token.keyword?, hnot] at ha
      cases ha
    have hlast : [a].map Token.bare = [a'].map Token.bare := by simp [ha']
    have hauto : Outlook (a :: rest) (a' :: rest') := hrest.append hlast fun h => absurd h hnot
    exact .autoIncrement ((keyword?_congr hk').trans hk) (horder.congr horder'.symm (hconflict.outlook hconflict'.symm hauto))
      (hconflict.congr hconflict'.symm hauto) ((keyword?_congr ha').trans ha)
  | notNull hn hconflict =>
    obtain ⟨n, _, rfl, hn', hconflict'⟩ := List.map_eq_cons_iff.mp hts.symm
    exact .notNull ((keyword?_congr hn').trans hn) (hconflict.congr hconflict'.symm hrest)
  | null hconflict => exact .null (hconflict.congr hts hrest)
  | unique hconflict => exact .unique (hconflict.congr hts hrest)
  | check h => exact .check (h.congr hts)
  | default h => exact .default (h.congr hts)
  | collate ht =>
    obtain ⟨t, rfl, ht'⟩ := List.map_eq_singleton_iff.mp hts.symm
    exact .collate ((nameOf?_congr ht').trans ht)
  | references ht htake =>
    obtain ⟨t, _, rfl, ht', hus⟩ := List.map_eq_cons_iff.mp hts.symm
    refine .references ((nameOf?_congr ht').trans ht) ?_
    rw [kind_congr ht']
    exact takeForeignKey_congr hus.symm hrest htake
  | generated ha hk hgenerated =>
    obtain ⟨a, _, rfl, ha', hus⟩ := List.map_eq_cons_iff.mp hts.symm
    obtain ⟨t, _, rfl, hk', hus⟩ := List.map_eq_cons_iff.mp hus
    rw [← kind_congr ha'] at ha
    exact .generated ha ((keyword?_congr hk').trans hk) (hgenerated.congr hus.symm hrest)
  | as hgenerated => exact .as (hgenerated.congr hts hrest)

end ColumnPart

end Grammar

/-! ## The same tokens at another place -/

/-- The same tokens at another place, perhaps behind another gap. -/
def Relocated (ts us : List Token) : Prop := (flush ts).map Token.form = (flush us).map Token.form

namespace Relocated

variable {ts us vs : List Token}

theorem of_map_form (h : ts.map Token.form = us.map Token.form) : Relocated ts us := by
  match ts, us with
  | [], [] => rfl
  | [], _ :: _ => cases h
  | _ :: _, [] => cases h
  | t :: ts, u :: us =>
    obtain ⟨htu, htus⟩ := List.cons.inj h
    have hkind : t.kind = u.kind := congrArg Prod.fst htu
    have htext : t.text = u.text := congrArg (fun f => f.2.2) htu
    simp [Relocated, flush, Token.form, hkind, htext] at htus ⊢
    exact htus

theorem map_bare (h : Relocated ts us) : ts.map Token.bare = us.map Token.bare := by
  have hflush (ts : List Token) : (flush ts).map Token.bare = ts.map Token.bare := by cases ts <;> rfl
  rw [← hflush ts, ← hflush us]
  exact map_bare_of_map_form h

theorem source_eq (h : Relocated ts us) : Token.source ts = Token.source us := by
  have hflush (ts : List Token) : Token.source (flush ts) = Token.source ts := by cases ts <;> rfl
  rw [← hflush ts, ← hflush us]
  exact source_of_map_form h

/-- Only the first token can be behind another gap. -/
theorem split (h : Relocated (ts ++ us) vs) (hts : ts ≠ []) :
    ∃ ts' us', vs = ts' ++ us' ∧ Relocated ts ts' ∧ Relocated us us' := by
  obtain ⟨t, ts, rfl⟩ := List.exists_cons_of_ne_nil hts
  match vs with
  | [] => cases h
  | v :: vs =>
    simp only [Relocated, flush, List.cons_append, List.map_cons, List.map_append, List.cons.injEq] at h
    obtain ⟨hfirst, hrest⟩ := h
    obtain ⟨ts', us', rfl, hts', hus'⟩ := List.map_eq_append_iff.mp hrest.symm
    refine ⟨v :: ts', us', rfl, ?_, of_map_form hus'.symm⟩
    simp [Relocated, flush, hfirst, hts']

end Relocated

namespace Grammar

namespace ColumnClause

variable {column : String} {rest rest' : List Token}

theorem Spells.relocated {c : ColumnClause} {ts us : List Token} (h : c.Spells column ts rest) (hts : Relocated ts us)
    (hrest : Outlook rest rest') : Spells column ⟨c.part, us⟩ us rest' ∧ entries column ⟨c.part, us⟩ = c.entries column := by
  obtain ⟨part, tokens⟩ := c
  obtain ⟨rfl, t, k, vs, rfl, ht, htail⟩ := h
  have hsource := hts.source_eq
  obtain ⟨u, us, rfl, hu, hus⟩ := List.map_eq_cons_iff.mp hts.map_bare.symm
  refine ⟨⟨rfl, u, k, us, rfl, (keyword?_congr hu).trans ht, htail.congr hus.symm hrest⟩, ?_⟩
  simp [entries, entry, hsource]

theorem Spells.ne_nil {c : ColumnClause} {ts : List Token} (h : c.Spells column ts rest) : ts ≠ [] := by
  obtain ⟨-, t, k, us, rfl, -⟩ := h
  simp

/-- The clauses of a column at another place come to the same. -/
theorem All.relocated {cs : List ColumnClause} {ts us : List Token} (h : All column cs ts rest) (hts : Relocated ts us)
    (hrest : rest.map Token.bare = rest'.map Token.bare) :
    ∃ cs', All column cs' us rest' ∧ cs'.map part = cs.map part ∧
      cs'.flatMap (entries column) = cs.flatMap (entries column) := by
  induction h generalizing us with
  | nil hend =>
    obtain rfl : us = [] := by simpa using hts.map_bare.symm
    refine ⟨[], .nil fun k hk => ?_, rfl, rfl⟩
    rcases (Outlook.of_map_bare hrest).first with hfirst | hfirst
    · exact hend k (hfirst ▸ hk)
    · have hback := (Outlook.of_map_bare hrest.symm).first
      rw [hfirst] at hback
      simp only [or_self] at hback
      exact hend k (by rw [hback, ← hfirst]; exact hk)
  | @cons c cs ts vs rest hc _ ih =>
    obtain ⟨ts', us', rfl, hts', hus'⟩ := hts.split hc.ne_nil
    obtain ⟨cs', hall, hparts, hentries⟩ := ih hus' hrest
    have hbehind : Outlook (vs ++ rest) (us' ++ rest') :=
      .of_map_bare (by rw [List.map_append, List.map_append, hus'.map_bare, hrest])
    obtain ⟨hspells, hentry⟩ := hc.relocated hts' hbehind
    exact ⟨⟨c.part, ts'⟩ :: cs', .cons hspells hall, by simp [hparts], by simp [hentry, hentries]⟩

/-- Clauses one behind the other, in front of anything. -/
inductive Run (column : String) : List ColumnClause → List Token → List Token → Prop where
  | nil {rest : List Token} : Run column [] [] rest
  | cons {c : ColumnClause} {cs : List ColumnClause} {ts us rest : List Token} (hc : c.Spells column ts (us ++ rest))
      (hcs : Run column cs us rest) : Run column (c :: cs) (ts ++ us) rest

theorem Run.all {cs cs' : List ColumnClause} {ts us : List Token} (h : Run column cs ts (us ++ rest))
    (hall : All column cs' us rest) : All column (cs ++ cs') (ts ++ us) rest := by
  generalize hvs : us ++ rest = vs at h
  induction h with
  | nil => exact hall
  | cons hc _ ih =>
    subst hvs
    rw [List.append_assoc]
    exact .cons (by simpa using hc) (ih rfl)

/-- The keyword that a clause begins with, and NULL behind it if it is NOT. -/
theorem Spells.kindOf {c : ColumnClause} {ts : List Token} (h : c.Spells column ts rest) :
    ∃ k, kindOf ts = .keyword k ∧ startsConstraint k = true ∧
      (k = .not → ∃ t n us, ts = t :: n :: us ∧ n.keyword? = some .null) := by
  obtain ⟨part, tokens⟩ := c
  obtain ⟨-, t, k, us, rfl, ht, htail⟩ := h
  dsimp only at htail
  refine ⟨k, Token.kind_of_keyword? ht, Reader.startsConstraint_of_tail htail, ?_⟩
  rintro rfl
  cases htail with
  | notNull hn _ => exact ⟨t, _, _, rfl, hn⟩

/-- In front of a references clause stands what is alike to the last of the clauses. -/
theorem Run.outlook {cs : List ColumnClause} {ts us : List Token} {t : Token} (h : Run column cs ts rest)
    (ht : t.keyword? = some .references) : Outlook (ts ++ rest) (ts ++ t :: us) := by
  refine (Outlook.references ht rest us).append rfl fun hnot => ?_
  cases h with
  | nil => cases hnot
  | cons hc _ =>
    obtain ⟨k, hk, -, hnull⟩ := hc.kindOf
    obtain ⟨u, ws, hu⟩ := List.exists_cons_of_ne_nil hc.ne_nil
    have hfirst : TokenKind.keyword k = .keyword .not := by
      rw [← hk, hu]
      rw [hu] at hnot
      exact hnot
    obtain ⟨_, n, xs, rfl, -⟩ := hnull (TokenKind.keyword.inj hfirst)
    simp

/-- Clauses are read in the same way in front of a references clause. -/
theorem Run.before_references {cs : List ColumnClause} {ts us : List Token} {t : Token} (h : Run column cs ts rest)
    (ht : t.keyword? = some .references) : Run column cs ts (t :: us) := by
  induction h with
  | nil => exact .nil
  | cons hc hcs ih =>
    refine .cons ?_ ih
    obtain ⟨htokens, u, k, ws, rfl, hu, htail⟩ := hc
    exact ⟨htokens, u, k, ws, rfl, hu, htail.congr rfl (hcs.outlook ht)⟩

end ColumnClause

theorem TypeName.congr {s : String} {ts rest rest' : List Token} (h : TypeName s ts rest) (hrest : Outlook rest rest') :
    TypeName s ts rest' := by
  have hword (h : ∀ t ∈ rest.head?, isTypeWord t = false) : ∀ t ∈ rest'.head?, isTypeWord t = false := by
    intro t ht
    obtain ⟨us, rfl⟩ := List.head?_eq_some_iff.mp ht
    rcases hrest.first with hfirst | hfirst
    · cases rest with
      | nil =>
        have hkind : t.kind = .eof := hfirst
        simp [isTypeWord, hkind]
      | cons u us =>
        have hkind : t.kind = u.kind := hfirst
        rw [Reader.isTypeWord_congr hkind]
        exact h u rfl
    · have hkind : t.kind = .keyword .references := hfirst
      simp [isTypeWord, hkind, startsConstraint]
  cases h with
  | given hts hend =>
    refine .given hts fun hwords => ⟨hword (hend hwords).1, ?_⟩
    rcases hrest.first with hfirst | hfirst
    · rw [hfirst]
      exact (hend hwords).2
    · simp [hfirst]
  | none hend => exact .none (hword hend)

/-! ## Foreign key clauses -/

/-- What a foreign key clause says behind the other table and its columns. -/
inductive ForeignKeyAction : List Token → Prop where
  | setValue {o e s v : Token} (ho : o.keyword? = some .on) (he : e.kind.isWord "DELETE" = true ∨ e.kind.isWord "UPDATE" = true)
      (hs : s.kind.isWord "SET" = true) (hv : v.keyword? = some .null ∨ v.keyword? = some .default) :
      ForeignKeyAction [o, e, s, v]
  | propagate {o e w : Token} (ho : o.keyword? = some .on) (he : e.kind.isWord "DELETE" = true ∨ e.kind.isWord "UPDATE" = true)
      (hw : w.kind.isWord "CASCADE" = true ∨ w.kind.isWord "RESTRICT" = true) : ForeignKeyAction [o, e, w]
  | noAction {o e n a : Token} (ho : o.keyword? = some .on) (he : e.kind.isWord "DELETE" = true ∨ e.kind.isWord "UPDATE" = true)
      (hn : n.kind.isWord "NO" = true) (ha : a.kind.isWord "ACTION" = true) : ForeignKeyAction [o, e, n, a]
  | matching {m n : Token} {name : String} (hm : m.kind.isWord "MATCH" = true) (hn : nameOf? n = some name)
      (hkeyword : n.keyword? = none) (hset : n.kind.isWord "SET" = false) : ForeignKeyAction [m, n]
  | deferrable {negation initially : List Token} {d : Token}
      (hnegation : negation = [] ∨ ∃ n, negation = [n] ∧ n.keyword? = some .not) (hd : d.kind.isWord "DEFERRABLE" = true)
      (hinitially : initially = [] ∨ ∃ i w, initially = [i, w] ∧ i.kind.isWord "INITIALLY" = true ∧
        (w.kind.isWord "DEFERRED" = true ∨ w.kind.isWord "IMMEDIATE" = true)) :
      ForeignKeyAction (negation ++ d :: initially)

/-- A references clause of a column. -/
inductive ForeignKey : List Token → Prop where
  | mk {r t : Token} {table : String} {columns : List Token} {actions : List (List Token)} (hr : r.keyword? = some .references)
      (ht : nameOf? t = some table) (hcolumns : columns = [] ∨ Group columns) (hactions : ∀ a ∈ actions, ForeignKeyAction a) :
      ForeignKey (r :: t :: (columns ++ actions.flatten))

/-- From behind a token of the kind `previous`, the reader of foreign keys goes on over the tokens, and the last of them is of
the kind `last`. -/
def GoesOver (previous : TokenKind) (ts : List Token) (last : TokenKind) : Prop :=
  ∀ rest, takeForeignKey previous 0 (ts ++ rest) =
    { takeForeignKey last 0 rest with taken := ts ++ (takeForeignKey last 0 rest).taken }

namespace GoesOver

variable {previous middle last : TokenKind} {ts us : List Token}

theorem nil (k : TokenKind) : GoesOver k [] k := fun _ => rfl

theorem append (h : GoesOver previous ts middle) (h' : GoesOver middle us last) : GoesOver previous (ts ++ us) last := by
  intro rest
  rw [List.append_assoc, h, h']
  simp

theorem token {t : Token} (hdepth : depthAfter 0 t.kind = 0)
    (h : ∀ following, endsForeignKey previous following t.kind = false) : GoesOver previous [t] t.kind := by
  intro rest
  rw [List.singleton_append, takeForeignKey, h, hdepth]
  rfl

theorem name {t : Token} {n : String} (ht : nameOf? t = some n) (hkeyword : t.keyword? = none) :
    GoesOver previous [t] t.kind := by
  unfold nameOf? at ht
  split at ht
  · next hk => exact token (by rw [hk]; rfl) fun _ => by rw [hk]; rfl
  · next hk => exact token (by rw [hk]; rfl) fun _ => by rw [hk]; rfl
  · next hk => simp [Token.keyword?, hk, TokenKind.keyword?] at hkeyword
  · cases ht

theorem word {t : Token} {w : String} (ht : t.kind.isWord w = true) : GoesOver previous [t] t.kind := by
  obtain ⟨n, hk⟩ := TokenKind.exists_of_isWord ht
  exact token (by rw [hk]; rfl) fun _ => by rw [hk]; rfl

theorem on {t : Token} (ht : t.keyword? = some .on) : GoesOver previous [t] t.kind := by
  have hk := Token.kind_of_keyword? ht
  exact token (by rw [hk]; rfl) fun _ => by rw [hk]; rfl

/-- NULL and DEFAULT behind the word SET. -/
theorem value {s v : Token} (hs : s.kind.isWord "SET" = true) (hv : v.keyword? = some .null ∨ v.keyword? = some .default) :
    GoesOver s.kind [v] v.kind := by
  have hk : v.kind = .keyword .null ∨ v.kind = .keyword .default := hv.imp Token.kind_of_keyword? Token.kind_of_keyword?
  refine token ?_ fun _ => ?_
  · rcases hk with hk | hk <;> rw [hk] <;> rfl
  · rcases hk with hk | hk <;> simp [hk, endsForeignKey, hs]

/-- NOT in front of a word. -/
theorem negated {n d : Token} {w : String} (hn : n.keyword? = some .not) (hd : d.kind.isWord w = true) :
    GoesOver previous [n, d] d.kind := by
  have hk := Token.kind_of_keyword? hn
  obtain ⟨name, hname⟩ := TokenKind.exists_of_isWord hd
  intro rest
  have hword : takeForeignKey n.kind 0 ([d] ++ rest) = _ := word hd rest
  rw [List.singleton_append] at hword
  have hgo : endsForeignKey previous (some d.kind) n.kind = false := by
    rw [hk, hname]
    rfl
  have hdepth : depthAfter 0 n.kind = 0 := by rw [hk]; rfl
  rw [List.cons_append, List.singleton_append, takeForeignKey, List.head?_cons, Option.map_some, hgo, hdepth, hword]
  rfl

/-- Inside of parentheses it goes on over all tokens. -/
theorem insideGroup {ts : List Token} {depth open? : Nat} (h : depthThrough depth ts = some open?) (previous : TokenKind) :
    ∃ last, ∀ rest, takeForeignKey previous (depth + 1) (ts ++ rest) =
      { takeForeignKey last (open? + 1) rest with taken := ts ++ (takeForeignKey last (open? + 1) rest).taken } := by
  induction ts generalizing depth previous with
  | nil =>
    obtain rfl : depth = open? := by simpa [depthThrough] using h
    exact ⟨previous, fun rest => rfl⟩
  | cons t ts ih =>
    rw [depthThrough] at h
    split at h
    · cases h
    · next hstop =>
      simp only [Bool.or_eq_true, Bool.and_eq_true, beq_iff_eq, not_or, not_and, Bool.not_eq_true] at hstop
      obtain ⟨hend, hclose⟩ := hstop
      have hdepth : depthAfter (depth + 1) t.kind = depthAfter depth t.kind + 1 := by
        cases hk : t.kind with
        | rightParen =>
          have hne : depth ≠ 0 := fun hzero => hclose hzero hk
          simp only [depthAfter]
          omega
        | _ => rfl
      obtain ⟨last, hlast⟩ := ih h t.kind
      refine ⟨last, fun rest => ?_⟩
      rw [List.cons_append, takeForeignKey, if_neg (by simp [hend]), hdepth, hlast]
      rfl

theorem group {g : List Token} (h : Group g) (previous : TokenKind) : GoesOver previous g .rightParen := by
  obtain @⟨l, r, ts, hl, hts, hr⟩ := h
  obtain ⟨last, hlast⟩ := insideGroup hts l.kind
  intro rest
  have hopen : endsForeignKey previous ((ts ++ r :: rest).head?.map Token.kind) l.kind = false := by rw [hl]; rfl
  have hdepth : depthAfter 0 l.kind = 1 := by rw [hl]; rfl
  have hclose : takeForeignKey last 1 (r :: rest) =
      { takeForeignKey .rightParen 0 rest with taken := r :: (takeForeignKey .rightParen 0 rest).taken } := by
    rw [takeForeignKey, hr]
    rfl
  rw [List.cons_append, List.append_assoc, List.singleton_append, takeForeignKey, hopen, hdepth]
  have hinside := hlast (r :: rest)
  rw [Nat.zero_add, hclose] at hinside
  rw [hinside]
  simp

/-- It goes on over all that a foreign key clause can say, and the last token is not SET. -/
theorem action {a : List Token} (h : ForeignKeyAction a) (previous : TokenKind) :
    ∃ last, last.isWord "SET" = false ∧ GoesOver previous a last := by
  have hother {k : TokenKind} {w : String} (hk : k.isWord w = true)
      (hw : w.toList.map Char.toUpper ≠ "SET".toList.map Char.toUpper) : k.isWord "SET" = false := by
    cases k with
    | identifier n =>
      have hn : n.toList.map Char.toUpper = w.toList.map Char.toUpper := by simpa [TokenKind.isWord] using hk
      simpa [TokenKind.isWord, hn] using hw
    | _ => cases hk
  have hevent {e : Token} (he : e.kind.isWord "DELETE" = true ∨ e.kind.isWord "UPDATE" = true) (previous : TokenKind) :
      GoesOver previous [e] e.kind := he.elim word word
  cases h with
  | setValue ho he hs hv =>
    refine ⟨_, ?_, (on ho).append ((hevent he _).append ((word hs).append (value hs hv)))⟩
    rcases hv with hv | hv <;> rw [Token.kind_of_keyword? hv] <;> rfl
  | propagate ho he hw =>
    rcases hw with hw | hw
    · exact ⟨_, hother hw (by decide), (on ho).append ((hevent he _).append (word hw))⟩
    · exact ⟨_, hother hw (by decide), (on ho).append ((hevent he _).append (word hw))⟩
  | noAction ho he hn ha =>
    exact ⟨_, hother ha (by decide), (on ho).append ((hevent he _).append ((word hn).append (word ha)))⟩
  | matching hm hn hkeyword hset => exact ⟨_, hset, (word hm).append (name hn hkeyword)⟩
  | @deferrable negation _ d hnegation hd hinitially =>
    have hfront : ∃ last, last = d.kind ∧ GoesOver previous (negation ++ [d]) last := by
      rcases hnegation with rfl | ⟨n, rfl, hn⟩
      · exact ⟨_, rfl, word hd⟩
      · exact ⟨_, rfl, negated hn hd⟩
    obtain ⟨_, rfl, hfront⟩ := hfront
    rcases hinitially with rfl | ⟨i, w, rfl, hi, hw⟩
    · exact ⟨_, hother hd (by decide), hfront⟩
    · rw [List.append_cons]
      rcases hw with hw | hw
      · exact ⟨_, hother hw (by decide), hfront.append ((word hi).append (word hw))⟩
      · exact ⟨_, hother hw (by decide), hfront.append ((word hi).append (word hw))⟩

theorem actions {as : List (List Token)} (h : ∀ a ∈ as, ForeignKeyAction a) (hne : as ≠ []) (previous : TokenKind) :
    ∃ last, last.isWord "SET" = false ∧ GoesOver previous as.flatten last := by
  induction as generalizing previous with
  | nil => exact absurd rfl hne
  | cons a as ih =>
    obtain ⟨middle, hmiddle, ha⟩ := action (h a List.mem_cons_self) previous
    by_cases hlast : as = []
    · subst hlast
      exact ⟨middle, hmiddle, by simpa using ha⟩
    · obtain ⟨last, hset, has⟩ := ih (fun b hb => h b (List.mem_cons_of_mem a hb)) hlast middle
      exact ⟨last, hset, by simpa using ha.append has⟩

end GoesOver

/-- A foreign key clause is gone over from behind the other table. Only a clause that is no more than the name of the other
table can end in the word SET. -/
theorem ForeignKey.exists_goesOver {ts : List Token} (h : ForeignKey ts) : ∃ r t table us last, ts = r :: t :: us ∧
    r.keyword? = some .references ∧ nameOf? t = some table ∧ GoesOver t.kind us last ∧
      (last.isWord "SET" = true ↔ ts.length = 2 ∧ (kindOf ts.tail).isWord "SET" = true) := by
  obtain @⟨r, t, table, columns, actions, hr, ht, hcolumns, hactions⟩ := h
  have hcolumns' : ∃ middle, GoesOver t.kind columns middle ∧
      (columns = [] ∧ middle = t.kind ∨ columns ≠ [] ∧ middle.isWord "SET" = false) := by
    rcases hcolumns with rfl | hgroup
    · exact ⟨_, .nil _, .inl ⟨rfl, rfl⟩⟩
    · exact ⟨_, .group hgroup _, .inr ⟨(by rintro rfl; cases hgroup), rfl⟩⟩
  obtain ⟨middle, hgo, hmiddle⟩ := hcolumns'
  by_cases hnone : actions = []
  · subst hnone
    rcases hmiddle with ⟨rfl, rfl⟩ | ⟨hne, hset⟩
    · exact ⟨r, t, table, [], t.kind, rfl, hr, ht, .nil _, by simp⟩
    · exact ⟨r, t, table, columns, middle, by simp, hr, ht, hgo, by simp [hset, hne]⟩
  · obtain ⟨last, hset, hactions'⟩ := GoesOver.actions hactions hnone middle
    refine ⟨r, t, table, _, last, rfl, hr, ht, hgo.append hactions', ?_⟩
    have hmore : actions.flatten ≠ [] := by
      intro hflat
      obtain ⟨a, as, rfl⟩ := List.exists_cons_of_ne_nil hnone
      have ha := hactions a List.mem_cons_self
      obtain rfl : a = [] := List.flatten_eq_nil_iff.mp hflat a List.mem_cons_self
      generalize hnil : ([] : List Token) = ts at ha
      cases ha <;> simp at hnil
    have hlength := List.length_pos_iff.mpr hmore
    simp only [hset, Bool.false_eq_true, List.length_cons, List.length_append, false_iff, not_and]
    intro htwo
    omega

end Grammar

/-! ## A references clause between two clauses -/

namespace Reader

open Grammar

theorem loop_again {α β : Type} {step : α → Reader (Turn α β)} [∀ a, Progresses (step a)] {a a' : α} {c c' : Cursor}
    (h : step a c = .ok (.again a') c') : loop step a c = loop step a' c' := by
  rw [loop]
  split
  · next h' =>
    cases h.symm.trans h'
    rfl
  · next h' => cases h.symm.trans h'
  · next h' => cases h.symm.trans h'

/-- Clauses that stand in front of anything are read, and the loop goes on behind them. -/
theorem loop_run {column : String} {cs : List ColumnClause} {ts rest : List Token} (h : ColumnClause.Run column cs ts rest)
    {f : Field} (hf : f.name = column) {c : Cursor} (hc : c.rest = ts ++ rest) :
    loop columnConstraint f c = loop columnConstraint (cs.foldl (fun f c => c.part.apply f) f)
      ((c.jump ts rest).record (cs.flatMap (·.entries column))) := by
  induction h generalizing f c with
  | nil =>
    obtain rfl : c.rest = _ := hc
    rfl
  | @cons clause cs ts us rest hclause _ ih =>
    rw [List.append_assoc] at hc
    subst hf
    have hstep : columnConstraint f c = .ok (.again (clause.part.apply f))
        ((c.jump ts (us ++ rest)).record (clause.entries f.name)) :=
      columnConstraint_eq_ok.mpr (.inr ⟨clause, ts, _, hc, hclause, rfl, rfl⟩)
    rw [loop_again hstep, ih (name_apply clause.part f) rfl, Cursor.record_jump, Cursor.record_record, Cursor.jump_jump]
    rfl

/-- A column is read up to any place behind a clause. -/
theorem columnDefinition_front {c : Cursor} {name sqlType : String} {before : List ColumnClause} {n : Token}
    {us vs rest : List Token} (hc : c.rest = n :: (us ++ vs) ++ rest) (hname : nameOf? n = some name)
    (htype : TypeName sqlType us (vs ++ rest)) (hrun : ColumnClause.Run name before vs rest) :
    columnDefinition c = loop columnConstraint (Definition.field name sqlType before)
      ((c.jump (n :: (us ++ vs)) rest).record (before.flatMap (·.entries name))) := by
  have hrest : c.rest = [n] ++ (us ++ (vs ++ rest)) := by simpa using hc
  have hn : expectName c = .ok name (c.jump [n] (us ++ (vs ++ rest))) :=
    (takes_expectName ..).mpr ⟨[n], _, hrest, ⟨n, rfl, hname⟩, rfl⟩
  have ht : typeName (c.jump [n] (us ++ (vs ++ rest))) = .ok sqlType (c.jump (n :: us) (vs ++ rest)) :=
    (takes_typeName ..).mpr ⟨us, _, rfl, htype, by rw [Cursor.jump_jump]; rfl⟩
  have hloop := loop_run hrun (f := { name, sqlType }) rfl (c := c.jump (n :: us) (vs ++ rest)) rfl
  rw [Cursor.jump_jump] at hloop
  have hunfold : columnDefinition c = _ := bind_eq_of_ok hn
  rw [hunfold, bind_eq_of_ok ht, hloop]
  rfl

end Reader

namespace Grammar

open Reader (columnDefinition columnConstraint)

/-- The column is spelled by `front`, up to a place behind a clause, and by the clauses of `back`; there the definition ends. -/
structure SplitColumn (name sqlType : String) (before after : List ColumnClause) (front back rest : List Token) : Prop where
  begins : ∃ n us vs, front = n :: (us ++ vs) ∧ nameOf? n = some name ∧ TypeName sqlType us (vs ++ (back ++ rest)) ∧
    ColumnClause.Run name before vs (back ++ rest)
  goesOn : ColumnClause.All name after back rest
  ends : kindOf rest = .comma ∨ kindOf rest = .rightParen ∨ kindOf rest = .eof
  texts : ∀ t ∈ back, t.text ≠ []

/-- The clause is no more than the name of the other table, which is called set, and what follows begins with NULL or
DEFAULT. -/
def RunsOn (reference back : List Token) : Prop :=
  reference.length = 2 ∧ (kindOf reference.tail).isWord "SET" = true ∧
    ((kindOf back).keyword? = some .null ∨ (kindOf back).keyword? = some .default)

/-- A foreign key clause ends in front of the clauses that follow, but for NULL and DEFAULT behind the word SET. -/
theorem ColumnClause.All.endsForeignKey_iff {column : String} {cs : List ColumnClause} {ts rest : List Token}
    (h : All column cs ts rest) (hrest : kindOf rest = .comma ∨ kindOf rest = .rightParen ∨ kindOf rest = .eof)
    (last : TokenKind) : endsForeignKey last ((ts ++ rest).tail.head?.map Token.kind) (kindOf (ts ++ rest)) = true ↔
      ¬(last.isWord "SET" = true ∧ ((kindOf ts).keyword? = some .null ∨ (kindOf ts).keyword? = some .default)) := by
  cases h with
  | nil =>
    refine iff_of_true ?_ (by simp [TokenKind.keyword?])
    rw [List.nil_append]
    rcases hrest with hrest | hrest | hrest <;> rw [hrest] <;> rfl
  | @cons c _ ts us _ hc _ =>
    obtain ⟨k, hk, hstart, hnull⟩ := hc.kindOf
    obtain ⟨t, ws, rfl⟩ := List.exists_cons_of_ne_nil hc.ne_nil
    have hkind : t.kind = .keyword k := hk
    simp only [List.cons_append, kindOf_cons, hkind, List.tail_cons]
    cases k with
    | not =>
      obtain ⟨_, n, xs, hlist, hn⟩ := hnull rfl
      obtain ⟨-, rfl⟩ := List.cons.inj hlist
      refine iff_of_true ?_ (by simp [TokenKind.keyword?])
      rw [endsForeignKey_not]
      exact beq_iff_eq.mpr hn
    | null | default => cases hset : last.isWord "SET" <;> simp [endsForeignKey, TokenKind.keyword?, hset]
    | _ => simp_all [endsForeignKey, TokenKind.keyword?]

section
variable {name sqlType : String} {before after : List ColumnClause} {front back reference rest : List Token}

theorem SplitColumn.columnDefinition_eq {c : Cursor} (h : SplitColumn name sqlType before after front back rest)
    (hc : c.rest = front ++ (back ++ rest)) : columnDefinition c = .ok (Definition.field name sqlType (before ++ after))
      ((c.jump (front ++ back) rest).record ((before ++ after).flatMap (·.entries name))) := by
  obtain ⟨⟨n, us, vs, rfl, hname, htype, hrun⟩, hback, -, -⟩ := h
  rw [Reader.columnDefinition_front hc hname htype hrun, Reader.records_constraints, Reader.name_field]
  refine ⟨_, back, rest, rfl, ⟨after, hback, List.foldl_append, rfl⟩, ?_⟩
  rw [Cursor.record_jump, Cursor.record_record, Cursor.jump_jump, List.flatMap_append]

/-- The column is read up to the references clause. -/
theorem SplitColumn.columnDefinition_front {c : Cursor} {more : List Token} {r : Token}
    (h : SplitColumn name sqlType before after front back rest) (hr : r.keyword? = some .references)
    (hc : c.rest = front ++ r :: more) : columnDefinition c = Reader.loop columnConstraint (Definition.field name sqlType before)
      ((c.jump front (r :: more)).record (before.flatMap (·.entries name))) := by
  obtain ⟨⟨n, us, vs, rfl, hname, htype, hrun⟩, -, -, -⟩ := h
  exact Reader.columnDefinition_front hc hname (htype.congr (hrun.outlook hr)) (hrun.before_references hr)

theorem field_congr {cs cs' : List ColumnClause} (h : cs'.map ColumnClause.part = cs.map ColumnClause.part) (f : Field) :
    cs'.foldl (fun f c => c.part.apply f) f = cs.foldl (fun f c => c.part.apply f) f := by
  have hmap (cs : List ColumnClause) : cs.foldl (fun f c => c.part.apply f) f =
      (cs.map ColumnClause.part).foldl (fun f p => p.apply f) f := by rw [List.foldl_map]
  rw [hmap, hmap, h]

/-- What comes of the column with a references clause in it, if that is taken as it stands. -/
theorem SplitColumn.columnDefinition_reference {c : Cursor} {back' rest' : List Token}
    (h : SplitColumn name sqlType before after front back rest) (href : ForeignKey reference) (hback : Relocated back back')
    (hrest : rest.map Token.bare = rest'.map Token.bare) (hc : c.rest = front ++ (reference ++ (back' ++ rest')))
    (hstops : ¬RunsOn reference back) : columnDefinition c = .ok (Definition.field name sqlType (before ++ after))
      ((c.jump (front ++ (reference ++ back')) rest').record
        (before.flatMap (·.entries name) ++ entry name reference :: after.flatMap (·.entries name))) := by
  obtain ⟨r, t, table, us, last, rfl, hr, ht, hgo, hlast⟩ := href.exists_goesOver
  obtain ⟨after', hall, hparts, hentries⟩ := h.goesOn.relocated hback hrest
  have hends : kindOf rest' = .comma ∨ kindOf rest' = .rightParen ∨ kindOf rest' = .eof := by
    have hfirst := (Outlook.of_map_bare hrest.symm).first
    have hother := h.ends
    rcases hfirst with hfirst | hfirst
    · rwa [hfirst] at hother
    · rw [hfirst] at hother
      simp at hother
  have hset : (kindOf back').keyword? = (kindOf back).keyword? := by
    cases back with
    | nil =>
      obtain rfl : back' = [] := by simpa using hback.map_bare.symm
      rfl
    | cons b bs =>
      obtain ⟨b', bs', rfl, hb, -⟩ := List.map_eq_cons_iff.mp hback.map_bare.symm
      exact keyword?_congr hb
  have htake : takeForeignKey t.kind 0 (us ++ (back' ++ rest')) = ⟨us, back' ++ rest', 0⟩ := by
    have hstop : takeForeignKey last 0 (back' ++ rest') = ⟨[], back' ++ rest', 0⟩ := by
      refine takeForeignKey_eq_nil.mpr ⟨rfl, (hall.endsForeignKey_iff hends last).mpr fun hruns => hstops ?_⟩
      rw [hset, hlast] at hruns
      exact ⟨hruns.1.1, hruns.1.2, hruns.2⟩
    rw [hgo, hstop, List.append_nil]
  have hspells : ColumnClause.Spells name ⟨.references, r :: t :: us⟩ (r :: t :: us) (back' ++ rest') :=
    ⟨rfl, r, .references, t :: us, rfl, hr, .references ht htake⟩
  have hclauses := ColumnClause.All.cons hspells hall
  rw [h.columnDefinition_front hr (by simpa using hc), Reader.records_constraints, Reader.name_field]
  refine ⟨_, _, rest', by simp, ⟨_, hclauses, ?_, rfl⟩, ?_⟩
  · rw [List.foldl_cons, field_congr hparts]
    exact List.foldl_append
  · rw [Cursor.record_jump, Cursor.record_record, Cursor.jump_jump, List.flatMap_cons, hentries]
    rfl

/-- A references clause takes NULL or DEFAULT behind another table that is called set. -/
theorem ColumnClause.Spells.exists_of_set {column : String} {clause : ColumnClause} {ts vs us : List Token} {r t b : Token}
    (h : clause.Spells column ts vs) (hts : r :: t :: b :: us = ts ++ vs) (hr : r.keyword? = some .references)
    (hset : t.kind.isWord "SET" = true) (hb : b.kind = .keyword .null ∨ b.kind = .keyword .default) :
    ∃ ws, clause = ⟨.references, r :: t :: b :: ws⟩ := by
  obtain ⟨part, tokens⟩ := clause
  obtain ⟨rfl, r', k, ts, rfl, hk, htail⟩ := h
  obtain ⟨rfl, hbehind⟩ := List.cons.inj hts
  obtain rfl := Option.some.inj (hr.symm.trans hk)
  dsimp only at htail
  cases htail with
  | @references t' _ ts _ _ htake =>
    obtain ⟨rfl, hvs⟩ : t = t' ∧ b :: us = ts ++ vs := List.cons.inj hbehind
    cases ts with
    | nil =>
      obtain ⟨-, hends⟩ := takeForeignKey_eq_nil.mp htake
      rw [List.nil_append] at hvs
      rw [List.nil_append, ← hvs, kindOf_cons] at hends
      rcases hb with hk | hk <;> simp [hk, endsForeignKey, hset] at hends
    | cons v ws =>
      obtain ⟨rfl, -⟩ : b = v ∧ us = ws ++ vs := List.cons.inj hvs
      exact ⟨ws, rfl⟩

/-- So more is discarded than the references clause that stands there. -/
theorem SplitColumn.columnDefinition_ne_of_runsOn {c : Cursor} {back' rest' : List Token}
    (h : SplitColumn name sqlType before after front back rest) (href : ForeignKey reference) (hback : Relocated back back')
    (hc : c.rest = front ++ (reference ++ (back' ++ rest'))) (hruns : RunsOn reference back) (f : Field)
    (ts rest'' : List Token) (entries : List String) : columnDefinition c ≠ .ok f
      ((c.jump ts rest'').record (before.flatMap (·.entries name) ++ entry name reference :: entries)) := by
  intro heq
  obtain ⟨r, t, table, us, last, rfl, hr, -⟩ := href.exists_goesOver
  obtain ⟨htwo, hset, hvalue⟩ := hruns
  obtain rfl : us = [] := by simpa using htwo
  obtain ⟨b, bs, rfl⟩ : ∃ b bs, back = b :: bs := by
    cases back with
    | nil => simp [TokenKind.keyword?] at hvalue
    | cons b bs => exact ⟨b, bs, rfl⟩
  obtain ⟨b', bs', rfl, hb, -⟩ := List.map_eq_cons_iff.mp hback.map_bare.symm
  have hvalue' : b'.kind = .keyword .null ∨ b'.kind = .keyword .default := by
    rw [kind_congr hb]
    exact hvalue.imp Token.kind_of_keyword? Token.kind_of_keyword?
  have htext : b'.text ≠ [] := by
    rw [text_congr hb]
    exact h.texts b List.mem_cons_self
  rw [h.columnDefinition_front hr (by simpa using hc), Reader.records_constraints] at heq
  obtain ⟨es, vs, left, hleft, ⟨cs, hall, -, rfl⟩, hcursor⟩ := heq
  rw [Reader.name_field] at hall hcursor
  rw [Cursor.record_jump, Cursor.record_record, Cursor.jump_jump] at hcursor
  have hentries := List.append_cancel_left (Cursor.entries_of_record_eq hcursor)
  cases hall with
  | nil => cases hentries
  | @cons clause cs vs us _ hspells _ =>
    rw [List.append_assoc] at hleft
    obtain ⟨ws, rfl⟩ := hspells.exists_of_set hleft hr hset hvalue'
    rw [List.flatMap_cons] at hentries
    have hentry := congrArg String.toList (List.cons.inj hentries).1
    simp only [entry, String.toList_append, String.toList_ofList] at hentry
    have hsource := List.append_cancel_left hentry
    simp [Token.source, htext] at hsource

/-- A references clause can be put between any two clauses of a column: the column is the same, and the clause is discarded
as it stands, besides what is discarded anyway. This is so if and only if it does not run on into NULL or DEFAULT. -/
theorem columnDefinition_reference_iff {c c' : Cursor} {back' rest' : List Token}
    (h : SplitColumn name sqlType before after front back rest) (href : ForeignKey reference) (hback : Relocated back back')
    (hrest : rest.map Token.bare = rest'.map Token.bare) (hc : c.rest = front ++ (back ++ rest))
    (hc' : c'.rest = front ++ (reference ++ (back' ++ rest'))) :
    columnDefinition c = .ok (Definition.field name sqlType (before ++ after))
        ((c.jump (front ++ back) rest).record ((before ++ after).flatMap (·.entries name))) ∧
      (columnDefinition c' = .ok (Definition.field name sqlType (before ++ after))
          ((c'.jump (front ++ (reference ++ back')) rest').record
            (before.flatMap (·.entries name) ++ entry name reference :: after.flatMap (·.entries name))) ↔
        ¬RunsOn reference back) :=
  ⟨h.columnDefinition_eq hc, fun heq hruns => h.columnDefinition_ne_of_runsOn href hback hc' hruns _ _ _ _ heq,
    h.columnDefinition_reference href hback hrest hc'⟩

end

/-- The default value of a column that refers to a table called set is taken for a part of the references clause. -/
theorem columnDefinition_reference_iff_set : ∃ a r t d n p e d' n' p' e' : Token,
    tokenize "a DEFAULT 5)" = [a] ++ ([d, n] ++ [p, e]) ∧
      tokenize "a REFERENCES set DEFAULT 5)" = [a] ++ ([r, t] ++ ([d', n'] ++ [p', e'])) ∧
      columnDefinition (Cursor.start "a DEFAULT 5)") = .ok { name := "a", defaultValue := "5" }
        ((Cursor.start "a DEFAULT 5)").jump [a, d, n] [p, e]) ∧
      columnDefinition (Cursor.start "a REFERENCES set DEFAULT 5)") ≠ .ok { name := "a", defaultValue := "5" }
        (((Cursor.start "a REFERENCES set DEFAULT 5)").jump [a, r, t, d', n'] [p', e']).record [entry (some "a") [r, t]]) := by
  let a : Token := ⟨.identifier "a", ⟨0, 1⟩, [], ['a']⟩
  let r : Token := ⟨.keyword .references, ⟨2, 12⟩, [' '], "REFERENCES".toList⟩
  let t : Token := ⟨.identifier "set", ⟨13, 16⟩, [' '], "set".toList⟩
  let d (pos : Nat) : Token := ⟨.keyword .default, ⟨pos, pos + 7⟩, [' '], "DEFAULT".toList⟩
  let n (pos : Nat) : Token := ⟨.number, ⟨pos, pos + 1⟩, [' '], ['5']⟩
  let p (pos : Nat) : Token := ⟨.rightParen, ⟨pos, pos + 1⟩, [], [')']⟩
  let e (pos : Nat) : Token := ⟨.eof, ⟨pos, pos⟩, [], []⟩
  have hplain : tokenize "a DEFAULT 5)" = [a] ++ ([d 2, n 10] ++ [p 11, e 12]) := by decide +kernel
  have hreferring : tokenize "a REFERENCES set DEFAULT 5)" = [a] ++ ([r, t] ++ ([d 17, n 25] ++ [p 26, e 27])) := by
    decide +kernel
  have hdefault : ColumnClause.Spells "a" ⟨.default "5", [d 2, n 10]⟩ [d 2, n 10] [p 11, e 12] :=
    ⟨rfl, d 2, .default, [n 10], rfl, rfl, .default (.single rfl)⟩
  have hsplit : SplitColumn "a" "" [] [⟨.default "5", [d 2, n 10]⟩] [a] [d 2, n 10] [p 11, e 12] := by
    refine ⟨⟨a, [], [], rfl, rfl, .none fun u hu => ?_, .nil⟩, .cons hdefault (.nil fun k hk => by cases hk),
      .inr (.inl rfl), ?_⟩
    · cases hu
      rfl
    · simp [d, n]
  have hnone : ∀ a ∈ ([] : List (List Token)), ForeignKeyAction a := by simp
  have href : ForeignKey [r, t] := .mk rfl rfl (.inl rfl) hnone
  have hruns : RunsOn [r, t] [d 2, n 10] := ⟨rfl, by decide, .inr rfl⟩
  have hback : Relocated [d 2, n 10] [d 17, n 25] := rfl
  have hrest : [p 11, e 12].map Token.bare = [p 26, e 27].map Token.bare := rfl
  have hc : (Cursor.start "a DEFAULT 5)").rest = [a] ++ ([d 2, n 10] ++ [p 11, e 12]) := hplain
  have hc' : (Cursor.start "a REFERENCES set DEFAULT 5)").rest = [a] ++ ([r, t] ++ ([d 17, n 25] ++ [p 26, e 27])) :=
    hreferring
  obtain ⟨hread, hiff⟩ := columnDefinition_reference_iff hsplit href hback hrest hc hc'
  exact ⟨_, _, _, _, _, _, _, _, _, _, _, hplain, hreferring, hread, mt hiff.mp (not_not_intro hruns)⟩

end Grammar

end SchemaEditor
