import SchemaEditor.Proofs.Table.Accepted
import SchemaEditor.Proofs.Table.Rereading

/-!
# The row column under edits

A table WITHOUT ROWID is read with the first column of its key as its row column. Edits keep it so as long as no key column
comes to stand in front of the one that was the first: by being put there in the place of another column, or by an exchange.
From then on the row column is a later column of the key, and the table is read back from its print with another row column.
-/

namespace SchemaEditor

/-! ## The first column of a key -/

/-- Where nothing is twice, an element comes first of its kind if every other one of the kind has a later place. -/
theorem head?_filter_eq_some_iff {α : Type} {as : List α} {p : α → Bool} {k : Nat} {a : α} (hn : as.Nodup)
    (hk : as[k]? = some a) (ha : p a = true) :
    (as.filter p).head? = some a ↔ ∀ m b, as[m]? = some b → p b = true → k ≤ m := by
  obtain ⟨hlt, rfl⟩ := List.getElem?_eq_some_iff.mp hk
  rw [List.head?_filter, List.find?_eq_some_iff_getElem]
  constructor
  · rintro ⟨-, i, hi, heq, hbefore⟩ m b hm hb
    rw [hn.getElem_inj_iff] at heq
    by_contra hmk
    obtain ⟨hm, rfl⟩ := List.getElem?_eq_some_iff.mp hm
    have := hbefore m (by omega)
    simp [hb] at this
  · intro hfirst
    refine ⟨ha, k, hlt, rfl, fun m hm => ?_⟩
    simp only [Bool.not_eq_true', Bool.eq_false_iff]
    exact fun hb => absurd (hfirst m _ (List.getElem?_eq_getElem (hm.trans hlt)) hb) (by omega)

namespace Table

variable {t u v : Table}

/-- The row column is the first column of the key. -/
def RowColumnLeads (t : Table) : Prop := t.primaryKey.head?.map Field.name = some t.rowidColumn

/-- The place of the first column of the key. -/
def keyPlace (t : Table) : Nat := t.fields.findIdx Field.primaryKey

theorem keyPlace_le {m : Nat} {f : Field} (hf : t.fields[m]? = some f) (hkey : f.primaryKey = true) : t.keyPlace ≤ m := by
  obtain ⟨hm, rfl⟩ := List.getElem?_eq_some_iff.mp hf
  by_contra hlt
  have hbefore : t.fields[m].primaryKey = false := List.not_of_lt_findIdx (Nat.lt_of_not_le hlt)
  rw [hkey] at hbefore
  cases hbefore

/-- A row column that leads is the name of the column at the place of the first key column. -/
theorem RowColumnLeads.exists_first (h : t.RowColumnLeads) : ∃ key, t.fields[t.keyPlace]? = some key ∧
    key.primaryKey = true ∧ key.name = t.rowidColumn := by
  obtain ⟨key, hhead, hname⟩ := Option.map_eq_some_iff.mp h
  obtain ⟨hmem, hkey⟩ := List.mem_filter.mp (List.mem_of_head? hhead)
  have hlt : t.keyPlace < t.fields.length := List.findIdx_lt_length_of_exists ⟨key, hmem, hkey⟩
  have hplace : t.primaryKey.head? = some t.fields[t.keyPlace] := by
    rw [primaryKey, List.head?_filter, List.find?_eq_some_iff_getElem]
    refine ⟨List.findIdx_getElem, t.keyPlace, hlt, rfl, fun m hm => ?_⟩
    simpa using List.not_of_lt_findIdx hm
  cases hhead.symm.trans hplace
  exact ⟨_, List.getElem?_eq_getElem hlt, hkey, hname⟩

/-- Where the row column is the name of a key column, it leads if no other key column stands in front of that one. -/
theorem rowColumnLeads_iff (hd : Distinct u.fields) {k : Nat} {key : Field} (hk : u.fields[k]? = some key)
    (hkey : key.primaryKey = true) (hname : key.name = u.rowidColumn) :
    u.RowColumnLeads ↔ ∀ m f, u.fields[m]? = some f → f.primaryKey = true → k ≤ m := by
  rw [← head?_filter_eq_some_iff (nodup_fields hd) hk hkey, RowColumnLeads, ← hname]
  constructor
  · intro h
    obtain ⟨f, hf, hfname⟩ := Option.map_eq_some_iff.mp h
    have hmem := (List.mem_filter.mp (List.mem_of_head? hf)).1
    rw [eq_of_isNamed hd (List.mem_of_getElem? hk) hmem (hfname ▸ isNamed_self key)]
    exact hf
  · intro h
    rw [primaryKey, h]
    rfl

/-- A table is read with a row column that leads, and gets one when it loses its row numbers. -/
theorem rowColumnLeads_of_parse {s : String} (h : parse s = .ok t) (hw : t.withoutRowid = true) : t.RowColumnLeads :=
  (rowid_of_parse h).2 hw

theorem rowColumnLeads_setWithoutRowid (h : t.primaryKey ≠ []) : (t.setWithoutRowid true).RowColumnLeads := by
  obtain ⟨key, keys, hkeys⟩ := List.exists_cons_of_ne_nil h
  show t.primaryKey.head?.map Field.name = some (t.setWithoutRowid true).rowidColumn
  unfold setWithoutRowid
  rw [hkeys]
  rfl

/-- A table is read back from its print with the same row column if and only if that leads. -/
theorem rowidColumn_reread_eq_iff (hv : t.Valid) (hw : t.withoutRowid = true) :
    t.reread.rowidColumn = t.rowidColumn ↔ t.RowColumnLeads := by
  have hrow := rowidColumn_reread hv
  rw [hw, if_pos rfl] at hrow
  rw [RowColumnLeads, hrow, Option.some.injEq]

end Table

/-! ## Edits -/

/-- An edit of the columns of a table. -/
inductive Edit where
  | replace (i : Nat) (f : Field)
  | remove (name : String)
  | exchange (i j : Nat)
deriving DecidableEq, Repr

namespace Edit

/-- A column that is not there is neither replaced nor removed, and the table stays as it is; two columns of which one is not
there cannot change places. -/
def run? (t : Table) : Edit → Option Table
  | replace i f => some ((t.setField? i f).elim t Prod.snd)
  | remove name => some ((t.removeField? name).elim t Prod.snd)
  | exchange i j => t.swapFields? i j

/-- The edit brings no key column in front of the first one. -/
def KeepsLead (t : Table) : Edit → Prop
  | replace i f => f.primaryKey = true → t.keyPlace ≤ i
  | remove _ => True
  | exchange i j => ∀ m f, t.fields[m]? = some f → f.primaryKey = true → Equiv.swap i j t.keyPlace ≤ Equiv.swap i j m

end Edit

/-- A run of edits after each of which the table is valid. -/
inductive Edits : Table → List Edit → Table → Prop where
  | nil (t : Table) : Edits t [] t
  | cons {t u v : Table} {e : Edit} {es : List Edit} (hedit : e.run? t = some u) (hvalid : u.validate = .ok ())
      (hedits : Edits u es v) : Edits t (e :: es) v

namespace Edit

variable {t u : Table} {e : Edit}

theorem run?_replace_cases {i : Nat} {f : Field} (h : (replace i f).run? t = some u) :
    (t.fields.length ≤ i ∧ u = t) ∨ ∃ old, t.fields[i]? = some old ∧ u = { t with
      fields := t.fields.set i f
      rowidColumn := if t.withoutRowid && old.isNamed t.rowidColumn then f.name else t.rowidColumn
      keyOrder := Table.replaceFirst old.isNamed f.name t.keyOrder } := by
  rw [run?, Option.some.injEq] at h
  cases hold : t.fields[i]? with
  | none =>
    refine .inl ⟨List.getElem?_eq_none_iff.mp hold, ?_⟩
    rw [← h, Table.setField?, hold]
    rfl
  | some old =>
    rw [Table.setField?_of_getElem? hold] at h
    exact .inr ⟨old, rfl, h.symm⟩

theorem run?_remove_cases {name : String} (hd : Distinct t.fields) (h : (remove name).run? t = some u) :
    u = t ∨ ∃ f, t.Removes f u := by
  rw [run?, Option.some.injEq] at h
  cases hfind : t.field? name with
  | none =>
    have hplace : t.find? name = none := by simpa [Table.find?, Table.field?, List.findIdx?_eq_none_iff] using hfind
    left
    rw [← h, Table.removeField?, hplace]
    rfl
  | some f =>
    obtain ⟨u', hu', hremoves⟩ := Table.exists_removes hd hfind
    rw [hu'] at h
    exact .inr ⟨f, h ▸ hremoves⟩

theorem rowColumnLeads_replace_iff {i : Nat} {f : Field} (ht : t.WellFormed) (hw : t.withoutRowid = true) (hl : t.RowColumnLeads)
    (h : (replace i f).run? t = some u) (hu : u.WellFormed) : u.RowColumnLeads ↔ (replace i f).KeepsLead t := by
  obtain ⟨key, hplace, hkey, hname⟩ := hl.exists_first
  rcases run?_replace_cases h with ⟨hi, rfl⟩ | ⟨old, hold, heq⟩
  · obtain ⟨hlt, -⟩ := List.getElem?_eq_some_iff.mp hplace
    exact iff_of_true hl fun _ => by omega
  · have hfields (m : Nat) : u.fields[m]? = if i = m then some f else t.fields[m]? := by
      rw [heq, List.getElem?_set, if_pos (List.getElem?_eq_some_iff.mp hold).1]
    have hrow : u.rowidColumn = if old.isNamed t.rowidColumn then f.name else t.rowidColumn := by
      rw [heq, hw, Bool.true_and]
    have hfirst : old.isNamed t.rowidColumn = true ↔ i = t.keyPlace := by
      rw [← hname]
      constructor
      · intro hn
        have hsame := eq_of_isNamed ht.distinct (List.mem_of_getElem? hold) (List.mem_of_getElem? hplace) hn
        exact (List.getElem?_inj (List.getElem?_eq_some_iff.mp hold).1 (Table.nodup_fields ht.distinct)).mp
          (by rw [hold, hplace, hsame])
      · rintro rfl
        cases hold.symm.trans hplace
        exact isNamed_self key
    by_cases hik : i = t.keyPlace
    · -- the first key column is replaced, by a key column since the row column is one
      have hf : u.fields[i]? = some f := by rw [hfields, if_pos rfl]
      rw [if_pos (hfirst.mpr hik)] at hrow
      have hfkey : f.primaryKey = true := by
        obtain ⟨g, hg, hgkey, hgname⟩ := hu.rowColumn (heq ▸ hw)
        rwa [eq_of_isNamed hu.distinct hg (List.mem_of_getElem? hf) (hrow ▸ hgname)] at hgkey
      rw [Table.rowColumnLeads_iff hu.distinct hf hfkey hrow.symm]
      refine iff_of_true (fun m g hg hgkey => ?_) fun _ => hik.ge
      rw [hfields] at hg
      by_cases him : i = m
      · exact him.le
      · rw [if_neg him] at hg
        exact hik.trans_le (Table.keyPlace_le hg hgkey)
    · have hf : u.fields[t.keyPlace]? = some key := by rw [hfields, if_neg hik, hplace]
      rw [if_neg (mt hfirst.mp hik)] at hrow
      rw [Table.rowColumnLeads_iff hu.distinct hf hkey (hname.trans hrow.symm)]
      refine ⟨fun hbehind hfkey => hbehind i f (by rw [hfields, if_pos rfl]) hfkey, fun hkeeps m g hg hgkey => ?_⟩
      rw [hfields] at hg
      by_cases him : i = m
      · rw [if_pos him] at hg
        cases hg
        exact him ▸ hkeeps hgkey
      · rw [if_neg him] at hg
        exact Table.keyPlace_le hg hgkey

theorem rowColumnLeads_remove {name : String} (ht : t.WellFormed) (hw : t.withoutRowid = true) (hl : t.RowColumnLeads)
    (h : (remove name).run? t = some u) (hu : u.WellFormed) : u.RowColumnLeads := by
  rcases run?_remove_cases ht.distinct h with rfl | ⟨f, hremoves⟩
  · exact hl
  have hrow := hremoves.rowidColumn
  rw [hw, Bool.true_and] at hrow
  by_cases hfrow : f.isNamed t.rowidColumn = true
  · obtain ⟨g, hg, hgkey, -⟩ := hu.rowColumn (hremoves.withoutRowid.trans hw)
    have hne : u.primaryKey ≠ [] := List.ne_nil_of_mem (List.mem_filter.mpr ⟨hg, hgkey⟩)
    obtain ⟨key, keys, hkeys⟩ := List.exists_cons_of_ne_nil hne
    rw [if_pos hfrow, hkeys] at hrow
    rw [Table.RowColumnLeads, hkeys, hrow]
    rfl
  · -- the first key column is not the one that goes
    obtain ⟨key, hhead, hname⟩ := Option.map_eq_some_iff.mp hl
    obtain ⟨keys, hkeys⟩ := List.head?_eq_some_iff.mp hhead
    have hkept : key ≠ f := fun heq => hfrow (hname ▸ heq ▸ isNamed_self key)
    rw [if_neg hfrow] at hrow
    rw [Table.RowColumnLeads, hremoves.primaryKey, hkeys, List.filter_cons_of_pos (by simpa using hkept), hrow]
    exact congrArg some hname

theorem rowColumnLeads_exchange_iff {i j : Nat} (ht : t.WellFormed) (hl : t.RowColumnLeads)
    (h : (exchange i j).run? t = some u) : u.RowColumnLeads ↔ (exchange i j).KeepsLead t := by
  obtain ⟨key, hplace, hkey, hname⟩ := hl.exists_first
  obtain ⟨heq, hperm, hfields⟩ := Table.eq_of_swapFields? h
  have hu : Distinct u.fields := (hperm.map _).nodup_iff.mpr ht.distinct
  have hmoved : u.fields[Equiv.swap i j t.keyPlace]? = some key := by rw [hfields, Equiv.swap_apply_self, hplace]
  rw [Table.rowColumnLeads_iff hu hmoved hkey (by rw [hname, heq])]
  constructor
  · intro hfirst m f hf
    exact hfirst _ f (by rw [hfields, Equiv.swap_apply_self, hf])
  · intro hkeeps m f hf hfkey
    rw [hfields] at hf
    have hle := hkeeps _ f hf hfkey
    rwa [Equiv.swap_apply_self] at hle

/-- After one edit the row column leads if and only if the edit brings no key column in front of the first one. -/
theorem rowColumnLeads_iff_keepsLead (ht : t.WellFormed) (hw : t.withoutRowid = true) (hl : t.RowColumnLeads)
    (h : e.run? t = some u) (hu : u.WellFormed) : u.RowColumnLeads ↔ e.KeepsLead t := by
  cases e with
  | replace i f => exact rowColumnLeads_replace_iff ht hw hl h hu
  | remove name => exact iff_of_true (rowColumnLeads_remove ht hw hl h hu) trivial
  | exchange i j => exact rowColumnLeads_exchange_iff ht hl h

theorem withoutRowid_of_run? (hd : Distinct t.fields) (h : e.run? t = some u) : u.withoutRowid = t.withoutRowid := by
  cases e with
  | replace i f =>
    rcases run?_replace_cases h with ⟨-, rfl⟩ | ⟨old, -, rfl⟩ <;> rfl
  | remove name =>
    rcases run?_remove_cases hd h with rfl | ⟨f, hremoves⟩
    · rfl
    · exact hremoves.withoutRowid
  | exchange i j => rw [(Table.eq_of_swapFields? h).1]

end Edit

namespace Edits

variable {t u v : Table} {es : List Edit}

/-- A run leaves a valid table WITHOUT ROWID as one. -/
theorem wellFormed (h : Edits t es u) (ht : t.WellFormed) : u.WellFormed ∧ u.withoutRowid = t.withoutRowid := by
  induction h with
  | nil => exact ⟨ht, rfl⟩
  | cons hedit hvalid _ ih =>
    obtain ⟨hu, hw⟩ := ih (Table.validate_eq_ok_iff.mp hvalid)
    exact ⟨hu, hw.trans (Edit.withoutRowid_of_run? ht.distinct hedit)⟩

/-- The row column leads at every moment of a run if and only if each edit brings no key column in front of the first one. -/
theorem leads_iff_keepsLead (h : Edits t es v) (ht : t.WellFormed) (hw : t.withoutRowid = true) (hl : t.RowColumnLeads) :
    (∀ done u, done <+: es → Edits t done u → u.RowColumnLeads) ↔
      ∀ done e u, done ++ [e] <+: es → Edits t done u → e.KeepsLead u := by
  induction h with
  | nil t =>
    refine iff_of_true (fun done u hdone hrun => ?_) fun done e u hdone => ?_
    · obtain rfl := List.prefix_nil.mp hdone
      cases hrun
      exact hl
    · simp at hdone
  | @cons t u v e es hedit hvalid hedits ih =>
    have hu := Table.validate_eq_ok_iff.mp hvalid
    have hstep := Edit.rowColumnLeads_iff_keepsLead ht hw hl hedit hu
    have hrest := ih hu ((Edit.withoutRowid_of_run? ht.distinct hedit).trans hw)
    -- a run of the edits up to some moment is at the start or begins with the first one
    constructor
    · intro hleads done d w hdone hrun
      have hlead : u.RowColumnLeads := hleads [e] u (by simp) (.cons hedit hvalid (.nil u))
      cases hrun with
      | nil =>
        obtain rfl : d = e := by simpa using hdone
        exact hstep.mp hlead
      | @cons _ u' _ e' done hedit' hvalid' hrun =>
        obtain ⟨rfl, hprefix⟩ := List.cons_prefix_cons.mp hdone
        cases hedit.symm.trans hedit'
        exact (hrest hlead).mp (fun done w hdone hrun => hleads (_ :: done) w (List.cons_prefix_cons.mpr ⟨rfl, hdone⟩)
          (.cons hedit hvalid hrun)) done d w hprefix hrun
    · intro hkeeps done w hdone hrun
      have hlead : u.RowColumnLeads := hstep.mpr (hkeeps [] e t (by simp) (.nil t))
      cases hrun with
      | nil => exact hl
      | @cons _ u' _ e' done hedit' hvalid' hrun =>
        obtain ⟨rfl, hprefix⟩ := List.cons_prefix_cons.mp hdone
        cases hedit.symm.trans hedit'
        exact (hrest hlead).mpr (fun done d w hdone hrun => hkeeps (_ :: done) d w (List.cons_prefix_cons.mpr ⟨rfl, hdone⟩)
          (.cons hedit hvalid hrun)) done w hprefix hrun

/-- In a run of edits on a table whose row column leads, it leads at every moment if and only if no edit brings a key column in
front of the first one; and at every moment the table is read back with its row column if and only if that leads. -/
theorem leads_throughout_iff (hv : t.validate = .ok ()) (hw : t.withoutRowid = true) (hl : t.RowColumnLeads) (h : Edits t es v) :
    ((∀ done u, done <+: es → Edits t done u → u.RowColumnLeads) ↔
      ∀ done e u, done ++ [e] <+: es → Edits t done u → e.KeepsLead u) ∧
    ∀ done u, done <+: es → Edits t done u → (∀ f ∈ u.fields, f.Canonical) →
      ∃ r, Table.parse u.sql = .ok r ∧ (r.rowidColumn = u.rowidColumn ↔ u.RowColumnLeads) := by
  have ht := Table.validate_eq_ok_iff.mp hv
  refine ⟨h.leads_iff_keepsLead ht hw hl, fun done u _ hrun hfields => ?_⟩
  obtain ⟨hu, hkeyed⟩ := hrun.wellFormed ht
  have hvalid := Table.valid_of_validate (Table.validate_eq_ok_iff.mpr hu)
  obtain ⟨f, hf, -, -⟩ := hu.rowColumn (hkeyed.trans hw)
  exact ⟨u.reread, Table.parse_sql_reread (List.ne_nil_of_mem hf) hvalid hfields,
    Table.rowidColumn_reread_eq_iff hvalid (hkeyed.trans hw)⟩

/-- A table that is found by two columns, in an order of their own. -/
def pairKeyed : Table where
  name := "t"
  fields := [{ name := "a", sqlType := "text", primaryKey := true }, { name := "b", sqlType := "text", primaryKey := true }]
  rowidColumn := "a"
  withoutRowid := true
  keyOrder := ["b", "a"]

/-- The first column gets another name and changes places with the second. -/
def renamedAway : List Edit :=
  [.replace 0 { name := "k", sqlType := "text", primaryKey := true }, .exchange 0 1]

def renamedPair : Table := { pairKeyed with
  fields := [{ name := "k", sqlType := "text", primaryKey := true }, { name := "b", sqlType := "text", primaryKey := true }]
  rowidColumn := "k"
  keyOrder := ["b", "k"] }

/-- The row column follows the new name, but stays behind when the columns change places. -/
def strayed : Table := { renamedPair with
  fields := [{ name := "b", sqlType := "text", primaryKey := true }, { name := "k", sqlType := "text", primaryKey := true }] }

theorem leads_throughout_iff_strayed :
    Table.parse "CREATE TABLE t (a text, b text, PRIMARY KEY (b, a)) WITHOUT ROWID" = .ok pairKeyed ∧
    Edits pairKeyed renamedAway strayed ∧
    (¬∀ done u, done <+: renamedAway → Edits pairKeyed done u → u.RowColumnLeads) ∧
    (∃ r, Table.parse strayed.sql = .ok r ∧ r.rowidColumn ≠ strayed.rowidColumn) ∧
    ∀ u, Edits pairKeyed [.remove "a"] u → u.RowColumnLeads := by
  have hparse : Table.parse "CREATE TABLE t (a text, b text, PRIMARY KEY (b, a)) WITHOUT ROWID" = .ok pairKeyed := by
    decide +kernel
  have hl := Table.rowColumnLeads_of_parse hparse rfl
  have hrenamed : Edits pairKeyed [.replace 0 { name := "k", sqlType := "text", primaryKey := true }] renamedPair :=
    .cons (by decide) (by decide) (.nil renamedPair)
  have hrun : Edits pairKeyed renamedAway strayed :=
    .cons (u := renamedPair) (by decide) (by decide) (.cons (by decide) (by decide) (.nil strayed))
  obtain ⟨hmoments, hreread⟩ := leads_throughout_iff (by decide) rfl hl hrun
  refine ⟨hparse, hrun, fun hleads => ?_, ?_, fun u hremoved => ?_⟩
  · have hkeeps := hmoments.mp hleads [_] (.exchange 0 1) _ (by simp [renamedAway]) hrenamed
    exact absurd (hkeeps 1 _ rfl rfl) (by decide)
  · obtain ⟨r, hr, hiff⟩ := hreread renamedAway strayed (List.prefix_refl _) hrun (by decide +kernel)
    exact ⟨r, hr, fun heq => absurd (hiff.mp heq) (by unfold Table.RowColumnLeads; decide)⟩
  · refine (leads_throughout_iff (by decide) rfl hl hremoved).1.mpr (fun done e u hdone _ => ?_) _ u (List.prefix_refl _) hremoved
    have he : e ∈ [Edit.remove "a"] := hdone.subset (by simp)
    rw [List.mem_singleton.mp he]
    trivial

end Edits

end SchemaEditor
