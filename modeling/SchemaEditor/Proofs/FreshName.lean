import Mathlib.Data.List.Nodup
import Mathlib.Data.List.Perm.Subperm
import Mathlib.Data.Nat.Init
import SchemaEditor.Database.Ledger
import SchemaEditor.Proofs.Database.Plans

/-!
# Fresh names are free

No two candidates are the same name, so one candidate more than there are names that are taken leaves a free one. Hence a
search that goes from candidate to candidate without a bound ends, and with the name that the search among the first of
them comes to. This holds of the names of savepoints in a ledger, and of the temporary name of a table that is rebuilt.
-/

namespace SchemaEditor

theorem toLower_of_isDigit {c : Char} (h : c.isDigit = true) : c.toLower = c := by
  simp only [Char.isDigit, Bool.and_eq_true, decide_eq_true_eq] at h
  unfold Char.toLower
  rw [dif_neg]
  exact fun hupper => absurd (UInt32.le_trans hupper.1 h.2) (by decide)

/-- Digits have no case. -/
theorem foldCase_toString (n : Nat) : foldCase (toString n) = (toString n).toList := by
  refine (List.map_congr_left fun c hc => toLower_of_isDigit ?_).trans (List.map_id' _)
  exact Nat.isDigit_of_mem_toDigits (b := 10) (n := n) (by decide) (by decide) (by simpa using hc)

theorem toString_injective {m n : Nat} (h : (toString m).toList = (toString n).toList) : m = n := by
  have hread (k : Nat) : Nat.ofDigitChars 10 (toString k).toList 0 = k := by
    simp
  rw [← hread m, ← hread n, h]

theorem foldCase_append (a b : String) : foldCase (a ++ b) = foldCase a ++ foldCase b := by
  simp [foldCase]

theorem foldCase_numbered (base : String) (n : Nat) : foldCase (numbered base n) = foldCase base ++ ('_' :: (toString n).toList) := by
  rw [numbered, foldCase_append, foldCase_append, foldCase_toString, List.append_assoc]
  rfl

/-- The candidates are different names, whatever the case of their letters. -/
theorem nodup_nameCandidates (base : String) (n : Nat) : ((nameCandidates base n).map foldCase).Nodup := by
  rw [nameCandidates, List.map_cons, List.nodup_cons]
  constructor
  · intro hmem
    obtain ⟨name, hname, hfold⟩ := List.mem_map.mp hmem
    obtain ⟨k, -, rfl⟩ := List.mem_map.mp hname
    have hlength := congrArg List.length hfold
    rw [foldCase_numbered, List.length_append, List.length_cons] at hlength
    omega
  · rw [List.map_map]
    refine List.Nodup.map (fun k l hkl => ?_) List.nodup_range
    have hdigits : (toString (k + 1)).toList = (toString (l + 1)).toList := by
      simpa [foldCase_numbered] using hkl
    have hsame := toString_injective hdigits
    omega

/-- If what is taken are at most `n` names, the base and its first `n` numbered forms are not all taken. -/
theorem exists_free_candidate {taken : String → Bool} {names : List String}
    (htaken : ∀ name, taken name = true → foldCase name ∈ names.map foldCase) (base : String) :
    ∃ name ∈ nameCandidates base names.length, taken name = false := by
  by_contra hnone
  have hall : (nameCandidates base names.length).map foldCase ⊆ names.map foldCase := by
    intro folded hfolded
    obtain ⟨name, hname, rfl⟩ := List.mem_map.mp hfolded
    exact htaken name (eq_true_of_ne_false fun hfree => hnone ⟨name, hname, hfree⟩)
  have hlength := (List.Nodup.subperm (nodup_nameCandidates base names.length) hall).length_le
  rw [List.length_map, List.length_map, nameCandidates, List.length_cons, List.length_map, List.length_range] at hlength
  omega

/-! ## The search among all candidates -/

/-- The candidates in the order in which they are tried: the base, then its numbered forms. There is no last one. -/
def candidate (base : String) : Nat → String
  | 0 => base
  | n + 1 => numbered base (n + 1)

/-- The search that is at the `i`th candidate ends at the `j`th: it goes on while the candidate is taken. Nothing bounds it,
and where it goes on for ever it ends at none. -/
inductive SearchEnds (taken : String → Bool) (base : String) : Nat → Nat → Prop
  | here {i : Nat} (hfree : taken (candidate base i) = false) : SearchEnds taken base i i
  | next {i j : Nat} (htaken : taken (candidate base i) = true) (hends : SearchEnds taken base (i + 1) j) :
      SearchEnds taken base i j

theorem nameCandidates_eq_map (base : String) (n : Nat) :
    nameCandidates base n = (List.range (n + 1)).map (candidate base) := by
  rw [List.range_succ_eq_map, List.map_cons, List.map_map]
  rfl

/-- The search ends at the first free candidate. -/
theorem searchEnds_iff {taken : String → Bool} {base : String} {i j : Nat} : SearchEnds taken base i j ↔
    i ≤ j ∧ taken (candidate base j) = false ∧ ∀ k, i ≤ k → k < j → taken (candidate base k) = true := by
  constructor
  · intro h
    induction h with
    | @here i hfree => exact ⟨Nat.le_refl i, hfree, fun k hik hki => absurd hki (by omega)⟩
    | @next i j htaken _ ih =>
      obtain ⟨hle, hfree, hbefore⟩ := ih
      refine ⟨by omega, hfree, fun k hik hkj => ?_⟩
      rcases Nat.eq_or_lt_of_le hik with rfl | hlt
      · exact htaken
      · exact hbefore k hlt hkj
  · rintro ⟨hle, hfree, hbefore⟩
    -- backwards from the free candidate, since each candidate before it hands the search on to the next one
    induction hle using Nat.decreasingInduction with
    | self => exact .here hfree
    | of_succ i hlt ih => exact .next (hbefore i (Nat.le_refl i) hlt) (ih fun k hik hkj => hbefore k (by omega) hkj)

/-- `name` is the free candidate of `base` that a search comes to, and no more than `n` candidates before it are taken. -/
structure IsFirstFree (taken : String → Bool) (base : String) (n : Nat) (name : String) : Prop where
  free : taken name = false
  /-- The search among all candidates ends, at the base or at one of its first `n` numbered forms. -/
  ends : ∃ i ≤ n, SearchEnds taken base 0 i ∧ candidate base i = name
  /-- The search among these alone finds the name too, and so does without a name to fall back on. -/
  found : (nameCandidates base n).find? (fun c => !taken c) = some name

theorem isFirstFree_of_find? {taken : String → Bool} {base name : String} {n : Nat}
    (h : (nameCandidates base n).find? (fun c => !taken c) = some name) : IsFirstFree taken base n name where
  free := by simpa using List.find?_some h
  ends := by
    obtain ⟨hfree, i, hi, hname, htaken⟩ := List.find?_eq_some_iff_getElem.mp h
    simp only [nameCandidates_eq_map, List.length_map, List.length_range, List.getElem_map, List.getElem_range] at hi hname htaken
    refine ⟨i, Nat.le_of_lt_succ hi, searchEnds_iff.mpr ⟨Nat.zero_le i, ?_, fun k _ hk => ?_⟩, hname⟩
    · simpa [hname] using hfree
    · simpa using htaken k hk
  found := h

/-- The search for a fresh name never needs the name it falls back on, if `n` counts the names that can be taken. -/
theorem isFirstFree_freshName {taken : String → Bool} {names : List String}
    (htaken : ∀ name, taken name = true → foldCase name ∈ names.map foldCase) (base : String) :
    IsFirstFree taken base names.length (freshName taken names.length base) := by
  obtain ⟨free, hmem, hfree⟩ := exists_free_candidate htaken base
  have hsome : ((nameCandidates base names.length).find? fun c => !taken c).isSome = true :=
    List.find?_isSome.mpr ⟨free, hmem, by rw [hfree]; rfl⟩
  obtain ⟨name, hfind⟩ := Option.isSome_iff_exists.mp hsome
  have hname : freshName taken names.length base = name := by rw [freshName, hfind, Option.getD_some]
  rw [hname]
  exact isFirstFree_of_find? hfind

/-! ## Names of savepoints and of temporary tables -/

theorem Ledger.isFirstFree_uniqueName (l : Ledger) (base : String) :
    IsFirstFree l.isActive base l.active.length (l.uniqueName base) :=
  isFirstFree_freshName (fun _ h => List.mem_map_of_mem (List.contains_iff_mem.mp h)) base

example : ({ active := ["p", "p_1"] } : Ledger).uniqueName "p" = "p_2" := by decide

theorem Catalog.contains_eq_true_iff {c : Catalog} {name : String} :
    c.contains name = true ↔ ∃ o ∈ c.objects, sameName o.name name = true :=
  List.find?_isSome

theorem Catalog.isFirstFree_temporaryName (c : Catalog) :
    IsFirstFree c.contains "oxide_transform_new_table" c.objects.length (RebuildPlan.temporaryName c) := by
  have htaken (name : String) (h : c.contains name = true) :
      foldCase name ∈ (c.objects.map SchemaObject.name).map foldCase := by
    obtain ⟨o, ho, hsame⟩ := Catalog.contains_eq_true_iff.mp h
    rw [← sameName_iff.mp hsame, List.map_map]
    exact List.mem_map_of_mem ho
  have hfirst := isFirstFree_freshName htaken "oxide_transform_new_table"
  rw [List.length_map] at hfirst
  exact hfirst

/-- The temporary name is no name of the catalog. -/
theorem RebuildPlan.temporary_free {catalog : Catalog} {c : ColumnChange} {p : RebuildPlan} (h : make catalog c = .ok p) :
    catalog.contains p.temporary = false := by
  obtain ⟨t, discarded, i, j, -, -, -, -, htemporary, -⟩ := make_ok h
  rw [htemporary]
  exact catalog.isFirstFree_temporaryName.free

/-- Fresh names are fresh, and the search for them ends. A savepoint gets a name that is not active: the base, or the base
with a number that is at most the number of active savepoints. The new table of a rebuild gets a name that no object of the
catalog has, whatever the case of its letters, from among one candidate more than there are objects. -/
theorem freshNames_found :
    (∀ (l : Ledger) (base : String),
      l.uniqueName base ∉ l.active ∧ IsFirstFree l.isActive base l.active.length (l.uniqueName base)) ∧
    ∀ c : Catalog,
      (∀ o ∈ c.objects, sameName o.name (RebuildPlan.temporaryName c) = false) ∧
      IsFirstFree c.contains "oxide_transform_new_table" c.objects.length (RebuildPlan.temporaryName c) ∧
      ∀ change plan, RebuildPlan.make c change = .ok plan →
        plan.temporary = RebuildPlan.temporaryName c ∧ plan.rebuilt.name = RebuildPlan.temporaryName c := by
  refine ⟨fun l base => ?_, fun c => ?_⟩
  · have hfirst := l.isFirstFree_uniqueName base
    refine ⟨fun hactive => ?_, hfirst⟩
    have htaken : l.isActive (l.uniqueName base) = true := List.contains_iff_mem.mpr hactive
    exact Bool.false_ne_true (hfirst.free.symm.trans htaken)
  · have hfirst := c.isFirstFree_temporaryName
    refine ⟨fun o ho => ?_, hfirst, fun change plan hplan => ?_⟩
    · refine eq_false_of_ne_true fun hsame => ?_
      have htaken := Catalog.contains_eq_true_iff.mpr ⟨o, ho, hsame⟩
      exact Bool.false_ne_true (hfirst.free.symm.trans htaken)
    · obtain ⟨t, discarded, i, j, -, -, -, -, htemporary, -⟩ := RebuildPlan.make_ok hplan
      obtain ⟨-, -, -, -, -, -, -, hname, -⟩ := RebuildPlan.arranges_of_make hplan
      exact ⟨htemporary, hname.trans htemporary⟩

/-- A catalog in which the first two candidates are taken, one of them by a view and in capital letters. -/
def crowded : Catalog where
  objects := [
    { kind := .view, name := "OXIDE_TRANSFORM_NEW_TABLE", tableName := "OXIDE_TRANSFORM_NEW_TABLE"
      sql := "CREATE VIEW OXIDE_TRANSFORM_NEW_TABLE AS SELECT a FROM t", fields := [{ name := "a" }] },
    { kind := .table, name := "oxide_transform_new_table_1", tableName := "oxide_transform_new_table_1"
      sql := "CREATE TABLE oxide_transform_new_table_1 (x)", fields := [{ name := "x" }] },
    { kind := .table, name := "t", tableName := "t", sql := "CREATE TABLE t (a, b)", fields := [{ name := "a" }, { name := "b" }] }]

def crowdedChange : ColumnChange where
  table := "t"
  column := "b"
  replacement := none

def crowdedPlan : RebuildPlan where
  table := "t"
  temporary := "oxide_transform_new_table_2"
  rebuilt := { name := "oxide_transform_new_table_2", fields := [{ name := "a" }] }
  columns := ["a"]
  discarded := []

theorem freshNames_found_crowded : RebuildPlan.make crowded crowdedChange = .ok crowdedPlan ∧
    crowdedPlan.temporary = RebuildPlan.temporaryName crowded ∧ crowdedPlan.rebuilt.name = RebuildPlan.temporaryName crowded := by
  have hplan : RebuildPlan.make crowded crowdedChange = .ok crowdedPlan := by decide +kernel
  obtain ⟨-, hcatalog⟩ := freshNames_found
  obtain ⟨-, -, hnamed⟩ := hcatalog crowded
  exact ⟨hplan, hnamed crowdedChange crowdedPlan hplan⟩

end SchemaEditor
