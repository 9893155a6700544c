import Mathlib.Data.List.InsertIdx
import SchemaEditor.Database.RebuildPlan
import SchemaEditor.Proofs.Table.Edits

/-!
# What a plan arranges

Each column of a rebuilt table takes its values from one column of the old table: the one that was moved to its
place. A plan names that column at that place, and changes no other definition than the one it is made to change.
-/

namespace SchemaEditor

/-- The place in the old table of the column that comes to `k`, if the changed column goes from `i` to `j`. -/
def ColumnChange.origin (c : ColumnChange) (i j k : Nat) : Nat :=
  match c.replacement with
  | none => if k < i then k else k + 1
  | some _ => if k = i then j else if k = j then i else k

namespace RebuildPlan

/-- The plan takes the column at `i` to `j` and all values with their columns. -/
structure Arranges (p : RebuildPlan) (t : Table) (c : ColumnChange) (i j : Nat) : Prop where
  find : t.find? c.column = some i
  place : (j : Int) = i + c.offset ∧ j < t.fields.length
  length : p.columns.length = p.rebuilt.fields.length
  /-- Each place has the name of the column that comes there, and its definition if it is not the one to change. -/
  fields : ∀ k f, p.rebuilt.fields[k]? = some f → ∃ old, t.fields[c.origin i j k]? = some old ∧
    p.columns[k]? = some old.name ∧ if c.origin i j k = i then c.replacement = some f else f = old
  perm : p.columns.Perm (if c.replacement.isNone then t.fieldNames.eraseIdx i else t.fieldNames)

/-! ## Rearranging -/

theorem placeAt?_eq_some {n i j : Nat} {offset : Int} :
    placeAt? n i offset = some j ↔ (j : Int) = i + offset ∧ j < n := by
  unfold placeAt?
  simp only
  split
  · simp only [Option.some.injEq]
    omega
  · simp only [reduceCtorEq, false_iff]
    omega

theorem placeAt?_eq_none {n i : Nat} {offset : Int} :
    placeAt? n i offset = none ↔ ¬(0 ≤ (i : Int) + offset ∧ (i : Int) + offset < n) := by
  unfold placeAt?
  simp only
  split <;> simp_all

section
variable {t rebuilt : Table} {columns : List String} {c : ColumnChange} {i j : Nat}

theorem rearrange?_drop (hc : c.replacement = none) (hi : t.find? c.column = some i)
    (h : rearrange? t c i j = some (columns, rebuilt)) :
    columns = rebuilt.fieldNames ∧ rebuilt.name = t.name ∧ rebuilt.fields = t.fields.eraseIdx i := by
  unfold rearrange? at h
  rw [hc] at h
  obtain ⟨⟨old, u⟩, hu, hpair⟩ := Option.map_eq_some_iff.mp h
  cases hpair
  obtain ⟨k, hk, hu⟩ := Option.bind_eq_some_iff.mp hu
  obtain ⟨f, -, hu⟩ := Option.bind_eq_some_iff.mp hu
  cases hi.symm.trans hk
  cases hu
  exact ⟨rfl, rfl, rfl⟩

/-- A column that is not dropped changes places first and is replaced in its new place. -/
theorem rearrange?_exchange {f : Field} (hc : c.replacement = some f) (h : rearrange? t c i j = some (columns, rebuilt)) :
    ∃ exchanged old, t.swapFields? i j = some exchanged ∧ exchanged.setField? j f = some (old, rebuilt) ∧
      columns = exchanged.fieldNames := by
  unfold rearrange? at h
  rw [hc] at h
  obtain ⟨exchanged, hexchanged, h⟩ := Option.bind_eq_some_iff.mp h
  obtain ⟨⟨old, u⟩, hset, hpair⟩ := Option.bind_eq_some_iff.mp h
  cases hpair
  exact ⟨exchanged, old, hexchanged, hset, rfl⟩

theorem rearrange?_replace {f : Field} (hc : c.replacement = some f) (h : rearrange? t c i j = some (columns, rebuilt)) :
    ∃ a b, t.fields[i]? = some a ∧ t.fields[j]? = some b ∧ rebuilt.name = t.name ∧
      columns = ((t.fields.set i b).set j a).map Field.name ∧ rebuilt.fields = ((t.fields.set i b).set j a).set j f := by
  obtain ⟨exchanged, old, hexchanged, hset, hcolumns⟩ := rearrange?_exchange hc h
  obtain ⟨a, ha, hexchanged⟩ := Option.bind_eq_some_iff.mp hexchanged
  obtain ⟨b, hb, hexchanged⟩ := Option.bind_eq_some_iff.mp hexchanged
  cases hexchanged
  obtain ⟨g, -, hg⟩ := Option.map_eq_some_iff.mp hset
  cases hg
  exact ⟨a, b, ha, hb, rfl, hcolumns, rfl⟩

end

/-! ## Plans that are made -/

theorem make_ok {catalog : Catalog} {c : ColumnChange} {p : RebuildPlan} (h : make catalog c = .ok p) :
    ∃ t discarded i j, catalog.definition? c.table = .ok (t, discarded) ∧ t.find? c.column = some i ∧
      placeAt? t.fields.length i c.offset = some j ∧ p.table = t.name ∧ p.temporary = temporaryName catalog ∧
      rearrange? { t with name := temporaryName catalog } c i j = some (p.columns, p.rebuilt) ∧
      p.rebuilt.validate = .ok () ∧ (c.replacement = none → t.fields.length ≠ 1) := by
  simp only [make, bind, Except.bind] at h
  cases hdefinition : catalog.definition? c.table with
  | error e => rw [hdefinition] at h; cases h
  | ok pair =>
  obtain ⟨t, discarded⟩ := pair
  rw [hdefinition] at h
  dsimp only at h
  cases hfind : t.find? c.column with
  | none => rw [hfind] at h; cases h
  | some i =>
  rw [hfind] at h
  dsimp only at h
  cases hplace : placeAt? t.fields.length i c.offset with
  | none => rw [hplace] at h; cases h
  | some j =>
  rw [hplace] at h
  dsimp only at h
  by_cases honly : (c.replacement.isNone && t.fields.length == 1) = true
  · rw [if_pos honly] at h
    cases h
  rw [if_neg honly] at h
  cases hrearranged : rearrange? { t with name := temporaryName catalog } c i j with
  | none => rw [hrearranged] at h; cases h
  | some r =>
  rw [hrearranged] at h
  obtain ⟨columns, rebuilt⟩ := r
  dsimp only at h
  cases hvalid : rebuilt.validate with
  | error e => rw [hvalid] at h; cases h
  | ok =>
  rw [hvalid] at h
  cases h
  exact ⟨t, discarded, i, j, rfl, hfind, hplace, rfl, rfl, hrearranged, hvalid, fun hc hlength => honly (by simp [hc, hlength])⟩

theorem arranges_drop {t : Table} {c : ColumnChange} {p : RebuildPlan} {i j : Nat} (hc : c.replacement = none)
    (hfind : t.find? c.column = some i) (hplace : (j : Int) = i + c.offset ∧ j < t.fields.length)
    (hcolumns : p.columns = p.rebuilt.fieldNames) (hfields : p.rebuilt.fields = t.fields.eraseIdx i) :
    p.Arranges t c i j where
  find := hfind
  place := hplace
  length := by rw [hcolumns, Table.fieldNames, List.length_map]
  fields k f hf := by
    have horigin : c.origin i j k = if k < i then k else k + 1 := by rw [ColumnChange.origin, hc]
    have hplaced := hf
    rw [hfields, List.getElem?_eraseIdx] at hf
    refine ⟨f, ?_, ?_, ?_⟩
    · rw [horigin]
      by_cases hk : k < i
      · rwa [if_pos hk] at hf ⊢
      · rwa [if_neg hk] at hf ⊢
    · rw [hcolumns, Table.fieldNames, List.getElem?_map, hplaced]
      rfl
    · have hne : c.origin i j k ≠ i := by
        rw [horigin]
        split <;> omega
      rw [if_neg hne]
  perm := by
    rw [hc, hcolumns, Table.fieldNames, hfields, Table.fieldNames, List.eraseIdx_map]
    exact .refl _

theorem arranges_replace {t : Table} {c : ColumnChange} {p : RebuildPlan} {i j : Nat} {f a b : Field}
    (hc : c.replacement = some f) (hfind : t.find? c.column = some i) (hplace : (j : Int) = i + c.offset ∧ j < t.fields.length)
    (ha : t.fields[i]? = some a) (hb : t.fields[j]? = some b)
    (hcolumns : p.columns = ((t.fields.set i b).set j a).map Field.name)
    (hfields : p.rebuilt.fields = ((t.fields.set i b).set j a).set j f) : p.Arranges t c i j where
  find := hfind
  place := hplace
  length := by rw [hcolumns, hfields]; simp
  fields k g hg := by
    have horigin : c.origin i j k = if k = i then j else if k = j then i else k := by rw [ColumnChange.origin, hc]
    have hold := getElem?_swap ha hb k
    rw [Equiv.swap_apply_def, ← horigin] at hold
    have hcolumn : p.columns[k]? = t.fields[c.origin i j k]?.map Field.name := by
      rw [hcolumns, List.getElem?_map, hold]
    rw [hfields, List.getElem?_set, hold] at hg
    by_cases hk : j = k
    · have hchanged : c.origin i j k = i := by
        rw [horigin, ← hk]
        split
        · assumption
        · exact if_pos rfl
      rw [if_pos hk] at hg
      split at hg
      · cases hg
        exact ⟨a, by rw [hchanged, ha], by rw [hcolumn, hchanged, ha]; rfl, by rw [if_pos hchanged, hc]⟩
      · cases hg
    · have hother : c.origin i j k ≠ i := by
        rw [horigin]
        split
        · omega
        · split <;> omega
      rw [if_neg hk] at hg
      exact ⟨g, hg, by rw [hcolumn, hg]; rfl, by rw [if_neg hother]⟩
  perm := by
    rw [hc, hcolumns]
    exact (perm_swap ha hb).map _

theorem arranges_of_make {catalog : Catalog} {c : ColumnChange} {p : RebuildPlan} (h : make catalog c = .ok p) :
    ∃ t discarded i j, catalog.definition? c.table = .ok (t, discarded) ∧ p.table = t.name ∧
      p.Arranges t c i j ∧ p.rebuilt.name = p.temporary ∧ p.rebuilt.validate = .ok () := by
  obtain ⟨t, discarded, i, j, hdefinition, hfind, hplace, htable, htemporary, hrearranged, hvalid, -⟩ := make_ok h
  refine ⟨t, discarded, i, j, hdefinition, htable, ?_⟩
  have hplace := placeAt?_eq_some.mp hplace
  cases hc : c.replacement with
  | none =>
    obtain ⟨hcolumns, hname, hfields⟩ := rearrange?_drop (t := { t with name := temporaryName catalog }) hc hfind hrearranged
    exact ⟨arranges_drop hc hfind hplace hcolumns hfields, hname.trans htemporary.symm, hvalid⟩
  | some f =>
    obtain ⟨a, b, ha, hb, hname, hcolumns, hfields⟩ := rearrange?_replace hc hrearranged
    exact ⟨arranges_replace hc hfind hplace ha hb hcolumns hfields, hname.trans htemporary.symm, hvalid⟩

/-- A plan drops no table's last column. -/
theorem fields_ne_nil_of_make {catalog : Catalog} {c : ColumnChange} {p : RebuildPlan} (h : make catalog c = .ok p) :
    p.rebuilt.fields ≠ [] := by
  obtain ⟨t, discarded, i, j, -, hfind, -, -, -, hrearranged, -, honly⟩ := make_ok h
  have hi : i < t.fields.length := (List.findIdx?_eq_some_iff_getElem.mp hfind).1
  rw [← List.length_pos_iff]
  cases hc : c.replacement with
  | none =>
    obtain ⟨-, -, hfields⟩ := rearrange?_drop (t := { t with name := temporaryName catalog }) hc hfind hrearranged
    have hlength : (t.fields.eraseIdx i).length = t.fields.length - 1 := by rw [List.length_eraseIdx, if_pos hi]
    rw [hfields, hlength]
    have := honly hc
    omega
  | some f =>
    obtain ⟨a, b, -, -, -, -, hfields⟩ := rearrange?_replace hc hrearranged
    rw [hfields, List.length_set, List.length_set, List.length_set]
    exact Nat.zero_lt_of_lt hi

/-! ## Where a column goes -/

section
variable {p : RebuildPlan} {t : Table} {c : ColumnChange} {i j : Nat}

theorem Arranges.columns_length (h : p.Arranges t c i j) :
    p.columns.length = if c.replacement.isNone then t.fields.length - 1 else t.fields.length := by
  have hlt : i < t.fields.length := (List.findIdx?_eq_some_iff_getElem.mp h.find).1
  rw [h.perm.length_eq]
  split
  · rw [List.length_eraseIdx, Table.fieldNames, List.length_map, if_pos hlt]
  · rw [Table.fieldNames, List.length_map]

/-- Each column of the old table, except one that is dropped, comes to some place. -/
theorem Arranges.exists_origin (h : p.Arranges t c i j) {m : Nat} (hm : m < t.fields.length)
    (hc : m = i → c.replacement ≠ none) : ∃ k, k < p.rebuilt.fields.length ∧ c.origin i j k = m := by
  have hi : i < t.fields.length := (List.findIdx?_eq_some_iff_getElem.mp h.find).1
  have hj := h.place.2
  cases hr : c.replacement with
  | none =>
    have hne : m ≠ i := fun he => hc he hr
    have hlength : p.rebuilt.fields.length = t.fields.length - 1 := by
      rw [← h.length, h.columns_length, hr]
      rfl
    have horigin (k : Nat) : c.origin i j k = if k < i then k else k + 1 := by rw [ColumnChange.origin, hr]
    refine ⟨if m < i then m else m - 1, ?_, ?_⟩
    · split <;> omega
    · rw [horigin]
      by_cases hlt : m < i
      · rw [if_pos hlt, if_pos hlt]
      · rw [if_neg hlt, if_neg (by omega)]
        omega
  | some f =>
    have hlength : p.rebuilt.fields.length = t.fields.length := by
      rw [← h.length, h.columns_length, hr]
      rfl
    have horigin (k : Nat) : c.origin i j k = if k = i then j else if k = j then i else k := by rw [ColumnChange.origin, hr]
    rw [hlength]
    refine ⟨if m = i then j else if m = j then i else m, ?_, ?_⟩
    · split
      · exact hj
      · split <;> omega
    · rw [horigin]
      grind

/-- A column that is not changed keeps its definition and its values. -/
theorem Arranges.kept (h : p.Arranges t c i j) {m : Nat} {a : Field} (hm : m ≠ i) (ha : t.fields[m]? = some a) :
    ∃ k : Nat, p.rebuilt.fields[k]? = some a ∧ p.columns[k]? = some a.name := by
  obtain ⟨k, hk, horigin⟩ := h.exists_origin (List.getElem?_eq_some_iff.mp ha).1 fun he => absurd he hm
  obtain ⟨old, hold, hname, hf⟩ := h.fields k _ (List.getElem?_eq_getElem hk)
  rw [horigin] at hold hf
  cases ha.symm.trans hold
  rw [if_neg hm] at hf
  exact ⟨k, by rw [List.getElem?_eq_getElem hk, hf], hname⟩

/-- The changed column gets its new definition and keeps its values. -/
theorem Arranges.changed (h : p.Arranges t c i j) {f a : Field} (hc : c.replacement = some f) (ha : t.fields[i]? = some a) :
    ∃ k : Nat, p.rebuilt.fields[k]? = some f ∧ p.columns[k]? = some a.name := by
  obtain ⟨k, hk, horigin⟩ := h.exists_origin (List.getElem?_eq_some_iff.mp ha).1 fun _ => by simp [hc]
  obtain ⟨old, hold, hname, hf⟩ := h.fields k _ (List.getElem?_eq_getElem hk)
  rw [horigin] at hold hf
  cases ha.symm.trans hold
  rw [if_pos rfl] at hf
  cases hc.symm.trans hf
  exact ⟨k, List.getElem?_eq_getElem hk, hname⟩

end

end RebuildPlan

end SchemaEditor
