import Mathlib.Data.List.Nodup
import SchemaEditor.Table.Basic

/-!
# Columns by name

In a valid table no two columns have the same name, so a column is the only one that its name finds, and a
change of the column with a name is a change of that column alone.
-/

namespace SchemaEditor

/-- No two columns have the same name. -/
def Distinct (fs : List Field) : Prop := (fs.map fun f => foldCase f.name).Nodup

theorem isNamed_iff {f : Field} {name : String} : f.isNamed name = true ↔ foldCase f.name = foldCase name :=
  sameName_iff

@[simp] theorem isNamed_self (f : Field) : f.isNamed f.name = true := sameName_refl f.name

theorem eq_of_isNamed {fs : List Field} (h : Distinct fs) {f g : Field} (hf : f ∈ fs) (hg : g ∈ fs)
    (hn : f.isNamed g.name = true) : f = g :=
  List.inj_on_of_nodup_map h hf hg (isNamed_iff.mp hn)

theorem eq_of_isNamed_both {fs : List Field} (h : Distinct fs) {f g : Field} {name : String} (hf : f ∈ fs) (hg : g ∈ fs)
    (hfn : f.isNamed name = true) (hgn : g.isNamed name = true) : f = g :=
  List.inj_on_of_nodup_map h hf hg ((isNamed_iff.mp hfn).trans (isNamed_iff.mp hgn).symm)

/-! ## Finding a column -/

theorem find?_isNamed {fs : List Field} (h : Distinct fs) {f : Field} (hf : f ∈ fs) :
    fs.find? (fun g => g.isNamed f.name) = some f := by
  cases hfind : fs.find? (fun g => g.isNamed f.name) with
  | none => exact absurd (isNamed_self f) (List.find?_eq_none.mp hfind f hf)
  | some g =>
    have hg : g.isNamed f.name = true := by simpa using List.find?_some hfind
    rw [eq_of_isNamed h (List.mem_of_find?_eq_some hfind) hf hg]

theorem Table.field?_of_mem {t : Table} (h : Distinct t.fields) {f : Field} (hf : f ∈ t.fields) : t.field? f.name = some f :=
  find?_isNamed h hf

/-- The column that a name finds is the one that has it. -/
theorem Table.field?_eq_some_iff {t : Table} (hd : Distinct t.fields) {name : String} {f : Field} :
    t.field? name = some f ↔ f ∈ t.fields ∧ f.isNamed name = true := by
  constructor
  · intro hfind
    exact ⟨List.mem_of_find?_eq_some hfind, by simpa using List.find?_some hfind⟩
  · rintro ⟨hf, hnamed⟩
    have hsame : t.field? name = t.field? f.name := by
      unfold field?
      congr 1
      funext g
      exact sameName_congr_right (sameName_comm f.name name ▸ hnamed) g.name
    rw [hsame]
    exact field?_of_mem hd hf

/-- The place of a column is the place of the column that its name finds. -/
theorem Table.field?_of_find? {t : Table} {name : String} {i : Nat} (h : t.find? name = some i) :
    ∃ f, t.fields[i]? = some f ∧ f.isNamed name = true ∧ t.field? name = some f := by
  obtain ⟨hi, hnamed, hbefore⟩ := List.findIdx?_eq_some_iff_getElem.mp h
  refine ⟨t.fields[i], List.getElem?_eq_getElem hi, hnamed, ?_⟩
  exact List.find?_eq_some_iff_getElem.mpr ⟨hnamed, i, hi, rfl, fun j hj => by simpa using hbefore j hj⟩

/-! ## What validity says -/

theorem distinct_cons {f : Field} {fs : List Field} :
    Distinct (f :: fs) ↔ (∀ g ∈ fs, f.isNamed g.name = false) ∧ Distinct fs := by
  rw [Distinct, List.map_cons, List.nodup_cons, List.mem_map, ← Distinct]
  simp only [not_exists, not_and]
  refine and_congr_left fun _ => forall₂_congr fun g _ => ?_
  rw [← Bool.not_eq_true, isNamed_iff, eq_comm]

/-- Names pass if they are not empty and none is the name of an earlier column. -/
theorem validateNames_eq_ok_iff {earlier fs : List Field} : Table.validateNames earlier fs = .ok () ↔
    (∀ f ∈ fs, f.name ≠ "") ∧ Distinct fs ∧ ∀ e ∈ earlier, ∀ f ∈ fs, e.isNamed f.name = false := by
  induction fs generalizing earlier with
  | nil => simp [Table.validateNames, Distinct]
  | cons f fs ih =>
    rw [Table.validateNames, distinct_cons]
    by_cases hname : f.name = ""
    · simp [hname]
    · by_cases hany : earlier.any (·.isNamed f.name) = true
      · obtain ⟨e, he, hnamed⟩ := List.any_eq_true.mp hany
        rw [if_neg hname, if_pos hany]
        refine iff_of_false (by simp) fun h => ?_
        rw [h.2.2 e he f List.mem_cons_self] at hnamed
        cases hnamed
      · rw [if_neg hname, if_neg hany, ih]
        simp only [List.any_eq_true, not_exists, not_and, Bool.not_eq_true] at hany
        simp only [List.forall_mem_cons, List.forall_mem_append]
        grind

namespace Table

variable {t : Table}

theorem validateAutoIncrement_eq_ok_iff :
    t.validateAutoIncrement = .ok () ↔ ∀ f ∈ t.fields, f.autoIncrement = true → t.mayAutoIncrement f = true := by
  unfold validateAutoIncrement
  split
  · next f hfind =>
    have hf : f.autoIncrement = true ∧ t.mayAutoIncrement f = false := by simpa using List.find?_some hfind
    refine iff_of_false (by simp) fun h => ?_
    rw [h f (List.mem_of_find?_eq_some hfind) hf.1] at hf
    cases hf.2
  · next hnone => simpa using hnone

theorem validateRowid_eq_ok_iff (hd : Distinct t.fields) : t.validateRowid = .ok () ↔
    (t.withoutRowid = true → ∃ f ∈ t.fields, f.primaryKey = true ∧ f.isNamed t.rowidColumn = true) := by
  have hcolumn : (t.field? t.rowidColumn).any Field.primaryKey = true ↔
      ∃ f ∈ t.fields, f.primaryKey = true ∧ f.isNamed t.rowidColumn = true := by
    rw [Option.any_eq_true]
    refine exists_congr fun f => ?_
    rw [field?_eq_some_iff hd, and_assoc, and_comm (a := f.isNamed _ = true)]
  unfold validateRowid
  by_cases hw : t.withoutRowid = true
  · by_cases hkey : t.primaryKey.isEmpty = true
    · rw [hw, hkey]
      refine iff_of_false (by simp) fun h => ?_
      obtain ⟨f, hf, hpk, -⟩ := h rfl
      exact List.filter_eq_nil_iff.mp (List.isEmpty_iff.mp hkey) f hf hpk
    · rw [← hcolumn]
      simp [hw, hkey]
  · simp [hw]

/-- What the checks of a table ask for. -/
structure WellFormed (t : Table) : Prop where
  name : t.name ≠ ""
  named : ∀ f ∈ t.fields, f.name ≠ ""
  distinct : Distinct t.fields
  autoIncrement : ∀ f ∈ t.fields, f.autoIncrement = true → t.mayAutoIncrement f = true
  rowColumn : t.withoutRowid = true → ∃ f ∈ t.fields, f.primaryKey = true ∧ f.isNamed t.rowidColumn = true

theorem validate_eq_ok_iff : t.validate = .ok () ↔ t.WellFormed := by
  have hchecks : t.validate = .ok () ↔ t.name ≠ "" ∧ validateNames [] t.fields = .ok () ∧
      t.validateAutoIncrement = .ok () ∧ t.validateRowid = .ok () := by
    unfold validate
    by_cases hname : t.name = ""
    · simp [hname, throw, throwThe, MonadExceptOf.throw, bind, Except.bind]
    · cases validateNames [] t.fields <;> cases t.validateAutoIncrement <;> simp [hname, bind, Except.bind]
  rw [hchecks, validateNames_eq_ok_iff, validateAutoIncrement_eq_ok_iff]
  constructor
  · rintro ⟨hname, ⟨hnamed, hd, -⟩, hauto, hrowid⟩
    exact ⟨hname, hnamed, hd, hauto, (validateRowid_eq_ok_iff hd).mp hrowid⟩
  · intro h
    exact ⟨h.name, ⟨h.named, h.distinct, by simp⟩, h.autoIncrement, (validateRowid_eq_ok_iff h.distinct).mpr h.rowColumn⟩

/-- What reading a print back needs of a table: all that the checks ask for but the names and the row column. -/
structure Valid (t : Table) : Prop where
  distinct : Distinct t.fields
  autoIncrement : ∀ f ∈ t.fields, f.autoIncrement = true → t.mayAutoIncrement f = true
  rowid : t.withoutRowid = true → t.primaryKey ≠ []

theorem valid_of_validate (h : t.validate = .ok ()) : t.Valid := by
  have hformed := validate_eq_ok_iff.mp h
  refine ⟨hformed.distinct, hformed.autoIncrement, fun hw => ?_⟩
  obtain ⟨f, hf, hpk, -⟩ := hformed.rowColumn hw
  exact List.ne_nil_of_mem (List.mem_filter.mpr ⟨hf, hpk⟩)

end Table

/-! ## Changing a column -/

/-- Changing the first element that satisfies `p` is changing each, if there is but one. -/
theorem modify_findIdx? {α : Type} {p : α → Bool} (change : α → α) {as : List α} (hex : ∃ a ∈ as, p a = true)
    (honce : as.Pairwise fun a b => p a = true → p b = false) :
    ∃ i, as.findIdx? p = some i ∧ as.modify i change = as.map fun a => if p a then change a else a := by
  induction as with
  | nil => simp at hex
  | cons a as ih =>
    obtain ⟨hhead, htail⟩ := List.pairwise_cons.mp honce
    by_cases ha : p a = true
    · refine ⟨0, by rw [List.findIdx?_cons, if_pos ha], ?_⟩
      have hsame : ∀ b ∈ as, (if p b then change b else b) = b := fun b hb => if_neg (by simp [hhead b hb ha])
      have hrest : as.map (fun b => if p b then change b else b) = as := (List.map_congr_left hsame).trans (List.map_id' as)
      rw [List.modify_zero_cons, List.map_cons, if_pos ha, hrest]
    · obtain ⟨b, hb, hpb⟩ := hex
      have hmem : b ∈ as := by
        rcases List.mem_cons.mp hb with rfl | hb
        · exact absurd hpb ha
        · exact hb
      obtain ⟨i, hi, hmod⟩ := ih ⟨b, hmem, hpb⟩ htail
      refine ⟨i + 1, by simp [List.findIdx?_cons, ha, hi], ?_⟩
      rw [List.modify_succ_cons, hmod, List.map_cons, if_neg ha]

theorem Table.modifyField?_of_mem {t : Table} (h : Distinct t.fields) {f : Field} (hf : f ∈ t.fields)
    (change : Field → Field) :
    t.modifyField? f.name change =
      some { t with fields := t.fields.map fun g => if g.isNamed f.name then change g else g } := by
  have honce : t.fields.Pairwise fun a b => a.isNamed f.name = true → b.isNamed f.name = false := by
    refine (List.pairwise_map.mp h).imp ?_
    intro a b hab ha
    by_contra hb
    exact hab ((isNamed_iff.mp ha).trans (isNamed_iff.mp (by simpa using hb)).symm)
  obtain ⟨i, hi, hmod⟩ := modify_findIdx? change ⟨f, hf, isNamed_self f⟩ honce
  rw [Table.modifyField?, Table.find?, hi, Option.map_some, hmod]

end SchemaEditor
