import Mathlib.Logic.Equiv.Basic
import SchemaEditor.Proofs.Table.Names

/-!
# Edits of the columns

Exchanging two columns, giving one another name and removing one, and what each edit makes of the columns, the row
column and the key order. A valid table stays valid under an exchange; under a new name if it is a name and no other
column has it; and under a removal unless that takes the last key column from a table that is found by its key.
-/

namespace SchemaEditor

/-! ## Lists -/

section
variable {α : Type} {as : List α} {i j : Nat} {a b : α}

theorem getElem?_swap (hi : as[i]? = some a) (hj : as[j]? = some b) (k : Nat) :
    ((as.set i b).set j a)[k]? = as[Equiv.swap i j k]? := by
  obtain ⟨hilt, rfl⟩ := List.getElem?_eq_some_iff.mp hi
  obtain ⟨hjlt, rfl⟩ := List.getElem?_eq_some_iff.mp hj
  rw [Equiv.swap_apply_def, List.getElem?_set, List.length_set, List.getElem?_set]
  by_cases hki : k = i <;> by_cases hkj : k = j <;> grind

theorem perm_swap (hi : as[i]? = some a) (hj : as[j]? = some b) : ((as.set i b).set j a).Perm as := by
  obtain ⟨hilt, rfl⟩ := List.getElem?_eq_some_iff.mp hi
  obtain ⟨hjlt, rfl⟩ := List.getElem?_eq_some_iff.mp hj
  exact List.set_set_perm hilt hjlt

/-- Where nothing is twice, the place of an element is where the element is. -/
theorem set_eq_map [DecidableEq α] (hn : as.Nodup) (hi : as[i]? = some a) :
    as.set i b = as.map fun x => if x = a then b else x := by
  obtain ⟨hilt, rfl⟩ := List.getElem?_eq_some_iff.mp hi
  refine List.ext_getElem (by simp) fun k hk _ => ?_
  rw [List.length_set] at hk
  simp only [List.getElem_set, List.getElem_map, hn.getElem_inj_iff, eq_comm (a := i)]

end

namespace Table

variable {t u : Table} {f : Field} {i j : Nat} {name : String}

theorem nodup_fields (hd : Distinct t.fields) : t.fields.Nodup := hd.of_map

/-! ## What an edit makes of a table -/

theorem exists_swapFields? (hi : i < t.fields.length) (hj : j < t.fields.length) : ∃ u, t.swapFields? i j = some u := by
  simp [swapFields?, hi, hj]

/-- An exchange takes two columns to the places of each other, and changes nothing else. -/
theorem eq_of_swapFields? (h : t.swapFields? i j = some u) : u = { t with fields := u.fields } ∧
    u.fields.Perm t.fields ∧ ∀ k : Nat, u.fields[k]? = t.fields[Equiv.swap i j k]? := by
  obtain ⟨a, ha, h⟩ := Option.bind_eq_some_iff.mp h
  obtain ⟨b, hb, h⟩ := Option.bind_eq_some_iff.mp h
  cases h
  exact ⟨rfl, perm_swap ha hb, getElem?_swap ha hb⟩

end Table

/-- What becomes of a column when `f` gets another name. -/
def Field.afterRename (f : Field) (name : String) (g : Field) : Field := if g = f then f.renamed name else g

@[simp] theorem Field.primaryKey_afterRename (f : Field) (name : String) (g : Field) :
    (f.afterRename name g).primaryKey = g.primaryKey := by
  unfold afterRename
  split <;> simp_all [renamed]

@[simp] theorem Field.autoIncrement_afterRename (f : Field) (name : String) (g : Field) :
    (f.afterRename name g).autoIncrement = g.autoIncrement := by
  unfold afterRename
  split <;> simp_all [renamed]

@[simp] theorem Field.isInteger_afterRename (f : Field) (name : String) (g : Field) :
    (f.afterRename name g).isInteger = g.isInteger := by
  unfold afterRename
  split <;> simp_all [renamed, isInteger]

theorem Field.afterRename_self (f : Field) (name : String) : f.afterRename name f = f.renamed name := if_pos rfl

theorem Field.afterRename_of_ne {f g : Field} (name : String) (h : g ≠ f) : f.afterRename name g = g := if_neg h

namespace Table

variable {t u : Table} {f : Field} {i j : Nat} {name : String}

/-- The table `u` is `t` with `new` for the name of `f`, also as the row column and in the key order. -/
structure Renames (t : Table) (f : Field) (new : String) (u : Table) : Prop where
  name : u.name = t.name
  fields : u.fields = t.fields.map (f.afterRename new)
  withoutRowid : u.withoutRowid = t.withoutRowid
  rowidColumn : u.rowidColumn = if t.withoutRowid && f.isNamed t.rowidColumn then new else t.rowidColumn
  keyOrder : u.keyOrder = replaceFirst f.isNamed new t.keyOrder

theorem setField?_of_getElem? {old : Field} (h : t.fields[i]? = some old) (f : Field) : t.setField? i f = some (old, { t with
    fields := t.fields.set i f
    rowidColumn := if t.withoutRowid && old.isNamed t.rowidColumn then f.name else t.rowidColumn
    keyOrder := replaceFirst old.isNamed f.name t.keyOrder }) := by
  rw [setField?, h]
  rfl

theorem exists_renames (hd : Distinct t.fields) (h : t.fields[i]? = some f) (new : String) :
    ∃ u, t.setField? i (f.renamed new) = some (f, u) ∧ t.Renames f new u :=
  ⟨_, setField?_of_getElem? h _, rfl, set_eq_map (nodup_fields hd) h, rfl, rfl, rfl⟩

/-- The table `u` is `t` without `f`. The row column is the first key column left if `f` was it. -/
structure Removes (t : Table) (f : Field) (u : Table) : Prop where
  name : u.name = t.name
  fields : u.fields = t.fields.filter (· != f)
  withoutRowid : u.withoutRowid = t.withoutRowid
  rowidColumn : u.rowidColumn = if t.withoutRowid && f.isNamed t.rowidColumn then
    (u.primaryKey.head?.map Field.name).getD t.rowidColumn else t.rowidColumn
  keyOrder : u.keyOrder = t.keyOrder.filter fun k => !f.isNamed k

theorem removeField?_of_find? (hi : t.find? name = some i) (hf : t.fields[i]? = some f) :
    t.removeField? name = some (f, { t with
      fields := t.fields.eraseIdx i
      rowidColumn := if t.withoutRowid && f.isNamed t.rowidColumn then
        (((t.fields.eraseIdx i).filter Field.primaryKey).head?.map Field.name).getD t.rowidColumn else t.rowidColumn
      keyOrder := t.keyOrder.filter fun k => !f.isNamed k }) := by
  rw [List.head?_filter, removeField?, hi, Option.bind_eq_bind, Option.bind_some, hf]
  cases hkey : (t.fields.eraseIdx i).find? Field.primaryKey <;> simp [hkey]

theorem exists_removes (hd : Distinct t.fields) (h : t.field? name = some f) :
    ∃ u, t.removeField? name = some (f, u) ∧ t.Removes f u := by
  obtain ⟨i, hi⟩ : ∃ i, t.find? name = some i := by
    obtain ⟨hf, hnamed⟩ := (field?_eq_some_iff hd).mp h
    exact Option.isSome_iff_exists.mp (List.findIdx?_isSome.trans (List.any_eq_true.mpr ⟨f, hf, hnamed⟩))
  obtain ⟨g, hg, -, hfield⟩ := field?_of_find? hi
  cases h.symm.trans hfield
  have herase : t.fields.eraseIdx i = t.fields.filter (· != f) := by
    obtain ⟨hlt, rfl⟩ := List.getElem?_eq_some_iff.mp hg
    rw [← (nodup_fields hd).erase_getElem i hlt, (nodup_fields hd).erase_eq_filter]
  exact ⟨_, removeField?_of_find? hi hg, rfl, herase, rfl, rfl, rfl⟩

/-! ## Valid tables stay valid -/

theorem WellFormed.of_exchange (h : t.WellFormed) (hu : u = { t with fields := u.fields }) (hperm : u.fields.Perm t.fields) :
    u.WellFormed := by
  have hkey : u.primaryKey.Perm t.primaryKey := hperm.filter _
  have hmay (f : Field) : u.mayAutoIncrement f = t.mayAutoIncrement f := by
    rw [mayAutoIncrement, mayAutoIncrement, hkey.length_eq, hu]
  rw [hu] at hmay hperm ⊢
  exact {
    name := h.name
    named := fun f hf => h.named f (hperm.mem_iff.mp hf)
    distinct := (hperm.map _).nodup_iff.mpr h.distinct
    autoIncrement := fun f hf hauto => (hmay f).trans (h.autoIncrement f (hperm.mem_iff.mp hf) hauto)
    rowColumn := fun hw => by
      obtain ⟨f, hf, hrow⟩ := h.rowColumn hw
      exact ⟨f, hperm.mem_iff.mpr hf, hrow⟩ }

theorem distinct_map_afterRename_iff (hd : Distinct t.fields) (hf : f ∈ t.fields) (new : String) :
    Distinct (t.fields.map (f.afterRename new)) ↔ ∀ g ∈ t.fields, g ≠ f → g.isNamed new = false := by
  have hname (g : Field) : foldCase (f.afterRename new g).name = if g = f then foldCase new else foldCase g.name := by
    unfold Field.afterRename
    split <;> rfl
  rw [Distinct, List.map_map]
  constructor
  · intro h g hg hne
    by_contra hnamed
    refine hne (List.inj_on_of_nodup_map h hg hf ?_)
    simpa [hname, hne, isNamed_iff] using hnamed
  · intro h
    have hnew (g : Field) (hg : g ∈ t.fields) (hne : g ≠ f) : foldCase g.name ≠ foldCase new := by
      simpa [isNamed_iff] using Bool.eq_false_iff.mp (h g hg hne)
    refine List.Nodup.map_on (fun x hx y hy hxy => ?_) (nodup_fields hd)
    simp only [Function.comp_apply, hname] at hxy
    split at hxy <;> split at hxy
    · next hxf hyf => rw [hxf, hyf]
    · next hyf => exact absurd hxy.symm (hnew y hy hyf)
    · next hxf _ => exact absurd hxy (hnew x hx hxf)
    · exact List.inj_on_of_nodup_map hd hx hy hxy

theorem Renames.primaryKey (h : t.Renames f name u) : u.primaryKey = t.primaryKey.map (f.afterRename name) := by
  rw [Table.primaryKey, h.fields, List.filter_map, Table.primaryKey]
  congr 2
  funext g
  simp

theorem Renames.wellFormed_iff (h : t.Renames f name u) (ht : t.WellFormed) (hf : f ∈ t.fields) :
    u.WellFormed ↔ name ≠ "" ∧ ∀ g ∈ t.fields, g ≠ f → g.isNamed name = false := by
  have hmem {g : Field} (hg : g ∈ t.fields) : f.afterRename name g ∈ u.fields := h.fields ▸ List.mem_map_of_mem hg
  rw [← distinct_map_afterRename_iff ht.distinct hf, ← h.fields]
  constructor
  · intro hu
    have hnamed := hu.named _ (hmem hf)
    rw [Field.afterRename_self] at hnamed
    exact ⟨hnamed, hu.distinct⟩
  · rintro ⟨hname, hd⟩
    refine ⟨h.name ▸ ht.name, ?_, hd, ?_, ?_⟩
    · rw [h.fields]
      refine List.forall_mem_map.mpr fun g hg => ?_
      by_cases hgf : g = f
      · rw [hgf, Field.afterRename_self]
        exact hname
      · rw [Field.afterRename_of_ne name hgf]
        exact ht.named g hg
    · rw [h.fields]
      refine List.forall_mem_map.mpr fun g hg hauto => ?_
      have hmay := ht.autoIncrement g hg (by simpa using hauto)
      simpa [mayAutoIncrement, h.primaryKey, h.withoutRowid] using hmay
    · intro hw
      obtain ⟨g, hg, hpk, hrow⟩ := ht.rowColumn (h.withoutRowid ▸ hw)
      refine ⟨_, hmem hg, by simpa using hpk, ?_⟩
      rw [h.rowidColumn, ← h.withoutRowid, hw, Bool.true_and]
      by_cases hgf : g = f
      · rw [← hgf, if_pos hrow, Field.afterRename_self]
        exact isNamed_self _
      · have hfrow : ¬f.isNamed t.rowidColumn = true := fun hfrow => hgf (eq_of_isNamed_both ht.distinct hg hf hrow hfrow)
        rw [if_neg hfrow, Field.afterRename_of_ne name hgf]
        exact hrow

theorem Removes.primaryKey (h : t.Removes f u) : u.primaryKey = t.primaryKey.filter (· != f) := by
  rw [Table.primaryKey, h.fields, Table.primaryKey, List.filter_filter, List.filter_filter]
  simp only [Bool.and_comm]

theorem Removes.wellFormed_iff (h : t.Removes f u) (ht : t.WellFormed) :
    u.WellFormed ↔ t.withoutRowid = false ∨ ∃ g ∈ t.fields, g ≠ f ∧ g.primaryKey = true := by
  have hmem {g : Field} : g ∈ u.fields ↔ g ∈ t.fields ∧ g ≠ f := by
    rw [h.fields, List.mem_filter, bne_iff_ne]
  have hsublist : u.fields.Sublist t.fields := h.fields ▸ List.filter_sublist
  constructor
  · intro hu
    by_cases hw : t.withoutRowid = true
    · obtain ⟨g, hg, hpk, -⟩ := hu.rowColumn (h.withoutRowid.trans hw)
      exact .inr ⟨g, (hmem.mp hg).1, (hmem.mp hg).2, hpk⟩
    · exact .inl (by simpa using hw)
  · intro hleft
    refine ⟨h.name ▸ ht.name, fun g hg => ht.named g (hmem.mp hg).1, ht.distinct.sublist (hsublist.map _), ?_, ?_⟩
    · -- the key of a column that counts up is that column alone, and it is still there
      intro g hg hauto
      have hmay := ht.autoIncrement g (hmem.mp hg).1 hauto
      simp only [mayAutoIncrement, Bool.and_eq_true, beq_iff_eq] at hmay ⊢
      obtain ⟨⟨⟨hlength, hpk⟩, hint⟩, hw⟩ := hmay
      have hle : u.primaryKey.length ≤ t.primaryKey.length := (hsublist.filter _).length_le
      have hpos : 0 < u.primaryKey.length := List.length_pos_of_mem (List.mem_filter.mpr ⟨hg, hpk⟩)
      exact ⟨⟨⟨by omega, hpk⟩, hint⟩, h.withoutRowid ▸ hw⟩
    · intro hw
      rw [h.withoutRowid] at hw
      rw [h.rowidColumn, hw, Bool.true_and]
      by_cases hfrow : f.isNamed t.rowidColumn = true
      · obtain ⟨g, hg, hgf, hpk⟩ := hleft.resolve_left (by simp [hw])
        obtain ⟨key, keys, hkeys⟩ := List.exists_cons_of_ne_nil
          (List.ne_nil_of_mem (List.mem_filter.mpr ⟨hmem.mpr ⟨hg, hgf⟩, hpk⟩) : u.primaryKey ≠ [])
        obtain ⟨hkey, hkeypk⟩ := List.mem_filter.mp (hkeys ▸ List.mem_cons_self : key ∈ u.primaryKey)
        rw [if_pos hfrow, hkeys]
        exact ⟨key, hkey, hkeypk, isNamed_self key⟩
      · obtain ⟨g, hg, hpk, hrow⟩ := ht.rowColumn hw
        rw [if_neg hfrow]
        exact ⟨g, hmem.mpr ⟨hg, fun heq => hfrow (heq ▸ hrow)⟩, hpk, hrow⟩

/-- Which edits keep a valid table valid: every exchange; a new name that is not empty and that no other column has; and a
removal from a table with row numbers, or with a key column left. -/
theorem validate_edits (h : t.validate = .ok ()) :
    (∀ i j, i < t.fields.length → j < t.fields.length → ∃ u, t.swapFields? i j = some u ∧ u.validate = .ok ()) ∧
    (∀ i f new, t.fields[i]? = some f → ∃ u, t.setField? i (f.renamed new) = some (f, u) ∧
      (u.validate = .ok () ↔ new ≠ "" ∧ ∀ g ∈ t.fields, g ≠ f → g.isNamed new = false)) ∧
    ∀ name f, t.field? name = some f → ∃ u, t.removeField? name = some (f, u) ∧
      (u.validate = .ok () ↔ t.withoutRowid = false ∨ ∃ g ∈ t.fields, g ≠ f ∧ g.primaryKey = true) := by
  have ht := validate_eq_ok_iff.mp h
  refine ⟨fun i j hi hj => ?_, fun i f new hf => ?_, fun name f hf => ?_⟩
  · obtain ⟨u, hu⟩ := exists_swapFields? hi hj
    obtain ⟨heq, hperm, -⟩ := eq_of_swapFields? hu
    exact ⟨u, hu, validate_eq_ok_iff.mpr (ht.of_exchange heq hperm)⟩
  · obtain ⟨u, hu, hrenames⟩ := exists_renames ht.distinct hf new
    exact ⟨u, hu, validate_eq_ok_iff.trans (hrenames.wellFormed_iff ht (List.mem_of_getElem? hf))⟩
  · obtain ⟨u, hu, hremoves⟩ := exists_removes ht.distinct hf
    exact ⟨u, hu, validate_eq_ok_iff.trans (hremoves.wellFormed_iff ht)⟩

/-- A table that is found by one of its columns, and names it in capitals as the row column. -/
def soleKeyed : Table where
  name := "t"
  fields := [{ name := "k", sqlType := "text", primaryKey := true }, { name := "v", sqlType := "text" }]
  rowidColumn := "K"
  withoutRowid := true

theorem validate_edits_soleKeyed : soleKeyed.validate = .ok () ∧
    (∃ u, soleKeyed.swapFields? 1 0 = some u ∧ u.validate = .ok ()) ∧
    (∃ f u, soleKeyed.setField? 0 (f.renamed "V") = some (f, u) ∧ u.validate ≠ .ok ()) ∧
    (∃ f u, soleKeyed.setField? 0 (f.renamed "key") = some (f, u) ∧ u.validate = .ok ()) ∧
    (∃ f u, soleKeyed.removeField? "V" = some (f, u) ∧ u.validate = .ok ()) ∧
    ∃ f u, soleKeyed.removeField? "k" = some (f, u) ∧ u.validate ≠ .ok () := by
  have hvalid : soleKeyed.validate = .ok () := by decide
  obtain ⟨hexchange, hrename, hremove⟩ := validate_edits hvalid
  refine ⟨hvalid, hexchange 1 0 (by decide) (by decide), ?_, ?_, ?_, ?_⟩
  · obtain ⟨u, hu, hiff⟩ := hrename 0 _ "V" rfl
    exact ⟨_, u, hu, mt hiff.mp (by decide)⟩
  · obtain ⟨u, hu, hiff⟩ := hrename 0 _ "key" rfl
    exact ⟨_, u, hu, hiff.mpr (by decide)⟩
  · obtain ⟨u, hu, hiff⟩ := hremove "V" _ rfl
    exact ⟨_, u, hu, hiff.mpr (by decide)⟩
  · obtain ⟨u, hu, hiff⟩ := hremove "k" _ rfl
    exact ⟨_, u, hu, mt hiff.mp (by decide)⟩

end Table

end SchemaEditor
