import Mathlib.Data.List.Induction
import Mathlib.Data.List.Perm.Subperm
import SchemaEditor.Proofs.Table.Edits

/-!
# The order of the key

A key lists the columns that its declared order mentions, in the order of their first mention, and then its other
columns in the order of the table. What else the declared order holds, names of no key column or names again, does not
matter. So the key follows every edit: a column that is removed leaves it, and one with a new name keeps its place.
-/

namespace SchemaEditor

/-! ## Mentions -/

namespace Field

/-- The place at which the names first mention the column; their number if they do not. -/
def mention (f : Field) (names : List String) : Nat := names.findIdx f.isNamed

def isMentioned (f : Field) (names : List String) : Bool := names.any f.isNamed

theorem isMentioned_iff {f : Field} {names : List String} : f.isMentioned names = true ↔ f.mention names < names.length := by
  rw [isMentioned, List.any_eq_true, mention, List.findIdx_lt_length]

/-- More names do not change where a column is first mentioned. -/
theorem mention_append_of_isMentioned {f : Field} {names : List String} (h : f.isMentioned names = true) (more : List String) :
    f.mention (names ++ more) = f.mention names := by
  rw [mention, List.findIdx_append, ← mention, if_pos (isMentioned_iff.mp h)]

theorem le_mention_append {f : Field} {names : List String} (h : f.isMentioned names = false) (more : List String) :
    names.length ≤ f.mention (names ++ more) := by
  have hlt : ¬f.mention names < names.length := by simp [← isMentioned_iff, h]
  rw [mention, List.findIdx_append, ← mention, if_neg hlt]
  exact Nat.le_add_left _ _

/-- Which of two columns is mentioned first does not depend on names that are of neither. -/
theorem mention_filter_lt_iff {f g : Field} {q : String → Bool} {names : List String}
    (hf : ∀ n, f.isNamed n = true → q n = true) (hg : ∀ n, g.isNamed n = true → q n = true) :
    f.mention (names.filter q) < g.mention (names.filter q) ↔ f.mention names < g.mention names := by
  unfold mention
  induction names with
  | nil => simp
  | cons n names ih =>
    by_cases hq : q n = true
    · rw [List.filter_cons_of_pos hq, List.findIdx_cons, List.findIdx_cons, List.findIdx_cons, List.findIdx_cons]
      cases f.isNamed n <;> cases g.isNamed n <;> simp [ih]
    · have hfn : f.isNamed n = false := Bool.eq_false_iff.mpr fun h => hq (hf n h)
      have hgn : g.isNamed n = false := Bool.eq_false_iff.mpr fun h => hq (hg n h)
      rw [List.filter_cons_of_neg hq, ih]
      simp [List.findIdx_cons, hfn, hgn]

theorem isMentioned_filter {f : Field} {q : String → Bool} {names : List String}
    (hf : ∀ n, f.isNamed n = true → q n = true) : f.isMentioned (names.filter q) = f.isMentioned names := by
  rw [isMentioned, isMentioned, List.any_filter]
  congr 1
  funext n
  cases hn : f.isNamed n with
  | false => simp
  | true => simp [hf n hn]

theorem isMentioned_columnNames {f : Field} {fs : List Field} (hf : f ∈ fs) : f.isMentioned (fs.map Field.name) = true :=
  List.any_eq_true.mpr ⟨f.name, List.mem_map_of_mem hf, isNamed_self f⟩

/-- The name of a column mentions it at its own place. -/
theorem mention_columnNames {fs : List Field} (hd : Distinct fs) {i : Nat} (hi : i < fs.length) :
    fs[i].mention (fs.map Field.name) = i := by
  rw [mention, List.findIdx_eq (by simpa using hi)]
  refine ⟨by simp, fun j hj => ?_⟩
  rw [List.getElem_map, ← Bool.not_eq_true]
  intro hn
  have hsame := eq_of_isNamed hd (List.getElem_mem hi) (List.getElem_mem (Nat.lt_trans hj hi)) hn
  exact Nat.ne_of_gt hj (hd.of_map.getElem_inj_iff.mp hsame)

end Field

/-! ## Columns in an order that names declare -/

/-- The list `keys` has the columns `fs`: first those that `names` mention, in the order of their first mention, then the
others as they stand in `fs`. -/
def OrderedBy (names : List String) (fs keys : List Field) : Prop :=
  ∃ mentioned, keys = mentioned ++ fs.filter (fun f => !f.isMentioned names) ∧
    mentioned.Perm (fs.filter fun f => f.isMentioned names) ∧
    mentioned.Pairwise fun f g => f.mention names < g.mention names

namespace OrderedBy

variable {names names' : List String} {fs fs' keys keys' : List Field}

theorem perm (h : OrderedBy names fs keys) : keys.Perm fs := by
  obtain ⟨mentioned, rfl, hperm, -⟩ := h
  exact (hperm.append_right _).trans (List.filter_append_perm _ fs)

/-- What `names` mention comes in one order, however the columns stand; only the others can be told apart. -/
theorem eq_iff (h : OrderedBy names fs keys) (h' : OrderedBy names fs' keys') (hperm : fs.Perm fs') :
    keys = keys' ↔ fs.filter (fun f => !f.isMentioned names) = fs'.filter fun f => !f.isMentioned names := by
  obtain ⟨mentioned, rfl, hmentioned, hsorted⟩ := h
  obtain ⟨mentioned', rfl, hmentioned', hsorted'⟩ := h'
  have hsame : mentioned = mentioned' := by
    refine List.Perm.eq_of_pairwise (fun f g _ _ hfg hgf => ?_) hsorted hsorted' ?_
    · exact absurd hgf (Nat.lt_asymm hfg)
    · exact hmentioned.trans ((hperm.filter _).trans hmentioned'.symm)
  rw [hsame, List.append_cancel_left_eq]

theorem unique (h : OrderedBy names fs keys) (h' : OrderedBy names fs keys') : keys = keys' :=
  (h.eq_iff h' (.refl fs)).mpr rfl

theorem filter_not_isMentioned (h : ∀ f ∈ fs, f.isMentioned names = true) :
    fs.filter (fun f => !f.isMentioned names) = [] :=
  List.filter_eq_nil_iff.mpr fun f hf => by simp [h f hf]

/-- Where all columns are mentioned, it does not matter how they stand. -/
theorem of_perm (h : OrderedBy names fs keys) (hperm : fs.Perm fs') (hall : ∀ f ∈ fs, f.isMentioned names = true) :
    OrderedBy names fs' keys := by
  obtain ⟨mentioned, rfl, hmentioned, hsorted⟩ := h
  have hall' : ∀ f ∈ fs', f.isMentioned names = true := fun f hf => hall f (hperm.mem_iff.mpr hf)
  exact ⟨mentioned, by rw [filter_not_isMentioned hall, filter_not_isMentioned hall'], hmentioned.trans (hperm.filter _), hsorted⟩

theorem nil : OrderedBy [] fs fs :=
  ⟨[], by simp [Field.isMentioned], by simp [Field.isMentioned], .nil⟩

theorem columnNames (hd : Distinct fs) : OrderedBy (fs.map Field.name) fs fs := by
  have hall : ∀ f ∈ fs, f.isMentioned (fs.map Field.name) = true := fun f hf => Field.isMentioned_columnNames hf
  refine ⟨fs, by rw [filter_not_isMentioned hall, List.append_nil], by rw [List.filter_eq_self.mpr hall], ?_⟩
  rw [List.pairwise_iff_getElem]
  intro i j hi hj hij
  rwa [Field.mention_columnNames hd hi, Field.mention_columnNames hd hj]

/-- Columns that are left out are left out of the order. -/
theorem filter {p : Field → Bool} {q : String → Bool} (h : OrderedBy names fs keys)
    (hpq : ∀ f ∈ fs, p f = true → ∀ n, f.isNamed n = true → q n = true) :
    OrderedBy (names.filter q) (fs.filter p) (keys.filter p) := by
  obtain ⟨mentioned, rfl, hperm, hsorted⟩ := h
  have hcomm (r r' : Field → Bool) (hr : ∀ f ∈ fs, p f = true → r' f = r f) :
      (fs.filter p).filter r' = (fs.filter r).filter p := by
    rw [List.filter_filter, List.filter_filter]
    refine List.filter_congr fun f hf => ?_
    cases hp : p f with
    | false => simp
    | true => rw [hr f hf hp, Bool.and_comm]
  have hsame : ∀ f ∈ fs, p f = true → f.isMentioned (names.filter q) = f.isMentioned names := fun f hf hp =>
    Field.isMentioned_filter (hpq f hf hp)
  refine ⟨mentioned.filter p, ?_, ?_, ?_⟩
  · rw [List.filter_append, hcomm _ _ fun f hf hp => by rw [hsame f hf hp]]
  · rw [hcomm _ _ hsame]
    exact hperm.filter p
  · rw [List.pairwise_filter]
    refine hsorted.imp_of_mem fun hf hg hlt hpf hpg => ?_
    have hmem {f : Field} (hf : f ∈ mentioned) : f ∈ fs := (List.mem_filter.mp (hperm.mem_iff.mp hf)).1
    exact (Field.mention_filter_lt_iff (hpq _ (hmem hf) hpf) (hpq _ (hmem hg) hpg)).mpr hlt

/-- Columns that are mentioned where they were, if under other names, keep their places. -/
theorem map {r : Field → Field} (h : OrderedBy names fs keys) (hlength : names'.length = names.length)
    (hmention : ∀ f ∈ fs, (r f).mention names' = f.mention names) : OrderedBy names' (fs.map r) (keys.map r) := by
  obtain ⟨mentioned, rfl, hperm, hsorted⟩ := h
  have hsame : ∀ f ∈ fs, (r f).isMentioned names' = f.isMentioned names := fun f hf => by
    rw [Bool.eq_iff_iff, Field.isMentioned_iff, Field.isMentioned_iff, hmention f hf, hlength]
  refine ⟨mentioned.map r, ?_, ?_, ?_⟩
  · rw [List.map_append, List.filter_map]
    congr 2
    exact List.filter_congr fun f hf => by rw [Function.comp_apply, hsame f hf]
  · rw [List.filter_map]
    refine (hperm.map r).trans (List.Perm.of_eq (congrArg _ (List.filter_congr fun f hf => ?_)))
    rw [Function.comp_apply, hsame f hf]
  · refine List.pairwise_map.mpr (hsorted.imp_of_mem fun hf hg hlt => ?_)
    have hmem {f : Field} (hf : f ∈ mentioned) : f ∈ fs := (List.mem_filter.mp (hperm.mem_iff.mp hf)).1
    rwa [hmention _ (hmem hf), hmention _ (hmem hg)]

end OrderedBy

namespace Table

variable {t u : Table} {f : Field}

/-! ## Collecting the columns of a key -/

/-- What is collected is in the list, and a key column that is not collected has the name of one that is. -/
theorem mem_foldl_collectKey {keys fs : List Field} {g : Field} (h : g ∈ fs.foldl collectKey keys) :
    g ∈ keys ∨ g ∈ fs ∧ g.primaryKey = true := by
  induction fs generalizing keys with
  | nil => exact .inl h
  | cons f fs ih =>
    rcases ih h with hkeys | ⟨hfs, hg⟩
    · unfold collectKey at hkeys
      split at hkeys
      · next hf =>
        rcases List.mem_append.mp hkeys with hkeys | hkeys
        · exact .inl hkeys
        · obtain rfl := List.mem_singleton.mp hkeys
          simp only [Bool.and_eq_true] at hf
          exact .inr ⟨List.mem_cons_self, hf.1⟩
      · exact .inl hkeys
    · exact .inr ⟨List.mem_cons_of_mem f hfs, hg⟩

theorem exists_named_foldl_collectKey {keys fs : List Field} {n : String}
    (h : (∃ k ∈ keys, k.isNamed n = true) ∨ ∃ f ∈ fs, f.primaryKey = true ∧ f.isNamed n = true) :
    ∃ k ∈ fs.foldl collectKey keys, k.isNamed n = true := by
  induction fs generalizing keys with
  | nil => simpa using h
  | cons f fs ih =>
    refine ih ?_
    rcases h with ⟨k, hk, hn⟩ | ⟨g, hg, hkey, hn⟩
    · refine .inl ⟨k, ?_, hn⟩
      unfold collectKey
      split
      · exact List.mem_append_left _ hk
      · exact hk
    · rcases List.mem_cons.mp hg with rfl | hg
      · left
        unfold collectKey
        split
        · exact ⟨g, List.mem_append_right _ List.mem_cons_self, hn⟩
        · next hold =>
          obtain ⟨k, hk, hkn⟩ : ∃ k ∈ keys, k.isNamed g.name = true := by simpa [hkey] using hold
          exact ⟨k, hk, isNamed_iff.mpr ((isNamed_iff.mp hkn).trans (isNamed_iff.mp hn))⟩
      · exact .inr ⟨g, hg, hkey, hn⟩

theorem distinct_foldl_collectKey {keys : List Field} (h : Distinct keys) (fs : List Field) :
    Distinct (fs.foldl collectKey keys) := by
  induction fs generalizing keys with
  | nil => exact h
  | cons f fs ih =>
    refine ih ?_
    unfold collectKey
    split
    · next hnew =>
      simp only [Bool.and_eq_true, Bool.not_eq_true', List.any_eq_false] at hnew
      rw [Distinct, List.map_append, List.map_singleton, List.nodup_append]
      refine ⟨h, List.nodup_singleton _, ?_⟩
      rintro _ hmem _ hlast rfl
      obtain ⟨k, hk, hfold⟩ := List.mem_map.mp hmem
      exact hnew.2 k hk (isNamed_iff.mpr (hfold.trans (List.mem_singleton.mp hlast)))
    · exact h

/-- Of key columns with names of their own, those are appended that are not collected yet. -/
theorem foldl_collectKey_eq {keys fs : List Field} (hd : Distinct fs) (hk : ∀ f ∈ fs, f.primaryKey = true) :
    fs.foldl collectKey keys = keys ++ fs.filter fun f => !keys.any (·.isNamed f.name) := by
  induction fs generalizing keys with
  | nil => simp
  | cons f fs ih =>
    obtain ⟨hf, hd⟩ := distinct_cons.mp hd
    have hfs := fun g hg => hk g (List.mem_cons_of_mem f hg)
    rw [List.foldl_cons, collectKey, hk f List.mem_cons_self, Bool.true_and]
    cases hany : keys.any (·.isNamed f.name) with
    | true => simp [hany, ih hd hfs]
    | false =>
      have hrest : ∀ g ∈ fs, (!(keys ++ [f]).any (·.isNamed g.name)) = !keys.any (·.isNamed g.name) := fun g hg => by
        simp [hf g hg]
      rw [Bool.not_false, if_pos rfl, ih hd hfs, List.filter_congr hrest, List.filter_cons_of_pos (by simp [hany]),
        List.append_assoc, List.singleton_append]

theorem mem_collected (hd : Distinct t.fields) {fs : List Field} (hfs : ∀ f ∈ fs, f ∈ t.fields) {f : Field} :
    f ∈ fs.foldl collectKey [] ↔ f ∈ fs ∧ f.primaryKey = true := by
  refine ⟨fun hf => (mem_foldl_collectKey hf).resolve_left List.not_mem_nil, ?_⟩
  rintro ⟨hf, hkey⟩
  obtain ⟨k, hk, hn⟩ : ∃ k ∈ fs.foldl collectKey [], k.isNamed f.name = true :=
    exists_named_foldl_collectKey (.inr ⟨f, hf, hkey, isNamed_self f⟩)
  have hkfs := ((mem_foldl_collectKey hk).resolve_left List.not_mem_nil).1
  rwa [eq_of_isNamed hd (hfs k hkfs) (hfs f hf) hn] at hk

theorem mem_filterMap_field? (hd : Distinct t.fields) {names : List String} :
    f ∈ names.filterMap t.field? ↔ f ∈ t.fields ∧ f.isMentioned names = true := by
  rw [List.mem_filterMap, Field.isMentioned, List.any_eq_true]
  simp only [field?_eq_some_iff hd]
  grind

/-- Columns are collected in the order in which they are first mentioned. -/
theorem pairwise_collected (hd : Distinct t.fields) (names : List String) :
    ((names.filterMap t.field?).foldl collectKey []).Pairwise fun f g => f.mention names < g.mention names := by
  induction names using List.reverseRecOn with
  | nil => exact .nil
  | append_singleton names n ih =>
    have hcollected {f : Field} : f ∈ (names.filterMap t.field?).foldl collectKey [] ↔
        (f ∈ t.fields ∧ f.isMentioned names = true) ∧ f.primaryKey = true := by
      rw [mem_collected hd fun g hg => ((mem_filterMap_field? hd).mp hg).1, mem_filterMap_field? hd]
    rw [List.filterMap_append, List.foldl_append]
    generalize (names.filterMap t.field?).foldl collectKey [] = keys at ih hcollected ⊢
    have hseen {f : Field} (hf : f ∈ keys) : f.isMentioned names = true := (hcollected.mp hf).1.2
    have hearlier : keys.Pairwise fun f g => f.mention (names ++ [n]) < g.mention (names ++ [n]) :=
      ih.imp_of_mem fun hf hg hlt => by
        rwa [Field.mention_append_of_isMentioned (hseen hf), Field.mention_append_of_isMentioned (hseen hg)]
    cases hfind : t.field? n with
    | none => simpa [hfind] using hearlier
    | some f =>
      rw [List.filterMap_cons_some hfind, List.filterMap_nil, List.foldl_cons, List.foldl_nil, collectKey]
      split
      · next hnew =>
        simp only [Bool.and_eq_true, Bool.not_eq_true', List.any_eq_false] at hnew
        have hunseen : f.isMentioned names = false := by
          by_contra hmentioned
          have hf := hcollected.mpr ⟨⟨((field?_eq_some_iff hd).mp hfind).1, by simpa using hmentioned⟩, hnew.1⟩
          exact hnew.2 f hf (isNamed_self f)
        refine List.pairwise_append.mpr ⟨hearlier, List.pairwise_singleton _ _, fun g hg h hh => ?_⟩
        rw [List.mem_singleton.mp hh, Field.mention_append_of_isMentioned (hseen hg)]
        exact Nat.lt_of_lt_of_le (Field.isMentioned_iff.mp (hseen hg)) (Field.le_mention_append hunseen _)
      · exact hearlier

/-! ## The key of a table -/

theorem mem_primaryKey {t : Table} {f : Field} : f ∈ t.primaryKey ↔ f ∈ t.fields ∧ f.primaryKey = true := List.mem_filter

theorem distinct_primaryKey {t : Table} (h : Distinct t.fields) : Distinct t.primaryKey :=
  h.sublist (List.filter_sublist.map _)

theorem mem_collected_keyOrder (hd : Distinct t.fields) :
    f ∈ (t.keyOrder.filterMap t.field?).foldl collectKey [] ↔ f ∈ t.primaryKey ∧ f.isMentioned t.keyOrder = true := by
  have hall : ∀ g ∈ t.keyOrder.filterMap t.field?, g ∈ t.fields := fun g hg => ((mem_filterMap_field? hd).mp hg).1
  rw [mem_collected hd hall, mem_filterMap_field? hd, mem_primaryKey, and_right_comm]

/-- The key has the declared order. -/
theorem orderedBy_primaryKeyOrder (hd : Distinct t.fields) : OrderedBy t.keyOrder t.primaryKey t.primaryKeyOrder := by
  have hkey := distinct_primaryKey hd
  refine ⟨(t.keyOrder.filterMap t.field?).foldl collectKey [], ?_, ?_, pairwise_collected hd t.keyOrder⟩
  · rw [primaryKeyOrder, List.foldl_append, foldl_collectKey_eq hkey fun f hf => (mem_primaryKey.mp hf).2]
    congr 1
    refine List.filter_congr fun f hf => ?_
    congr 1
    rw [Bool.eq_iff_iff, List.any_eq_true]
    constructor
    · rintro ⟨k, hk, hn⟩
      obtain ⟨hkpk, hmentioned⟩ := (mem_collected_keyOrder hd).mp hk
      rwa [eq_of_isNamed hkey hkpk hf hn] at hmentioned
    · exact fun hmentioned => ⟨f, (mem_collected_keyOrder hd).mpr ⟨hf, hmentioned⟩, isNamed_self f⟩
  · have hnone : Distinct [] := List.nodup_nil
    refine (List.perm_ext_iff_of_nodup (distinct_foldl_collectKey hnone _).of_map (hkey.of_map.filter _)).mpr fun f => ?_
    rw [mem_collected_keyOrder hd, List.mem_filter]

/-- The names of a key are the names of its columns, in the order of the key. -/
theorem primaryKeyOrder_perm {t : Table} (hd : Distinct t.fields) :
    (t.primaryKeyOrder.map Field.name).Perm (t.primaryKey.map Field.name) :=
  (orderedBy_primaryKeyOrder hd).perm.map _

theorem primaryKeyOrder_of_keyOrder_nil (hd : Distinct t.fields) (h : t.keyOrder = []) : t.primaryKeyOrder = t.primaryKey :=
  (h ▸ orderedBy_primaryKeyOrder hd).unique .nil

/-- The columns that a list of their names finds. -/
theorem filterMap_field?_names {t : Table} (hd : Distinct t.fields) {names : List String}
    (hnames : ∀ n ∈ names, ∃ f ∈ t.primaryKey, f.name = n) :
    (names.filterMap t.field?).map Field.name = names ∧ ∀ f ∈ names.filterMap t.field?, f ∈ t.primaryKey := by
  induction names with
  | nil => simp
  | cons n names ih =>
    obtain ⟨f, hf, rfl⟩ := hnames n List.mem_cons_self
    obtain ⟨hmap, hmem⟩ := ih fun m hm => hnames m (List.mem_cons_of_mem _ hm)
    have hfind := field?_of_mem hd (mem_primaryKey.mp hf).1
    rw [List.filterMap_cons, hfind]
    refine ⟨by rw [List.map_cons, hmap], ?_⟩
    intro g hg
    rcases List.mem_cons.mp hg with rfl | hg
    · exact hf
    · exact hmem g hg

/-- The declared order of a key, if there is one, is an order of its columns other than the order in the table. -/
def CanonicalKeyOrder (t : Table) : Prop :=
  t.keyOrder = [] ∨ t.keyOrder.Perm (t.primaryKey.map Field.name) ∧ t.keyOrder ≠ t.primaryKey.map Field.name

theorem distinct_of_perm {fs gs : List Field} (h : (fs.map Field.name).Perm (gs.map Field.name)) (hd : Distinct gs) :
    Distinct fs := by
  have hmap (hs : List Field) : hs.map (fun f => foldCase f.name) = (hs.map Field.name).map foldCase := by
    rw [List.map_map]; rfl
  rw [Distinct, hmap] at hd ⊢
  exact (h.map foldCase).nodup_iff.mpr hd

theorem map_name_primaryKeyOrder {t : Table} (hd : Distinct t.fields) (hk : t.CanonicalKeyOrder) :
    t.primaryKeyOrder.map Field.name = if t.keyOrder = [] then t.primaryKey.map Field.name else t.keyOrder := by
  by_cases hnil : t.keyOrder = []
  · rw [if_pos hnil, primaryKeyOrder_of_keyOrder_nil hd hnil]
  · obtain ⟨hperm, -⟩ := hk.resolve_left hnil
    obtain ⟨hmap, hmem⟩ := filterMap_field?_names hd fun n hn => List.mem_map.mp (hperm.mem_iff.mp hn)
    rw [if_neg hnil]
    generalize t.keyOrder.filterMap t.field? = keys at hmap hmem
    rw [← hmap] at hperm
    have hkeys : Distinct keys := distinct_of_perm hperm (distinct_primaryKey hd)
    have hall : keys.Perm t.primaryKey :=
      (List.subperm_of_subset hkeys.of_map hmem).perm_of_length_le (by simpa using Nat.le_of_eq hperm.length_eq.symm)
    have hlisted := (OrderedBy.columnNames hkeys).of_perm hall fun f hf => Field.isMentioned_columnNames hf
    rw [(orderedBy_primaryKeyOrder hd).unique (hmap ▸ hlisted), hmap]

/-- The order that the names of a key declare is the declared one. -/
theorem setPrimaryKeyOrder_names {t : Table} (hd : Distinct t.fields) (hk : t.CanonicalKeyOrder) :
    t.setPrimaryKeyOrder (t.primaryKeyOrder.map Field.name) = t := by
  rw [setPrimaryKeyOrder, map_name_primaryKeyOrder hd hk]
  by_cases hnil : t.keyOrder = []
  · rw [if_pos hnil, if_pos rfl, ← hnil]
  · rw [if_neg hnil, if_neg (Ne.symm (hk.resolve_left hnil).2)]

/-! ## Edits -/

/-- Another name in the place of the first one takes no column from the place at which it is first mentioned. -/
theorem mention_replaceFirst (hd : Distinct t.fields) (hf : f ∈ t.fields) {new : String}
    (hother : ∀ g ∈ t.fields, g ≠ f → g.isNamed new = false) {names : List String}
    (hfresh : ∀ n ∈ names, sameName n new = false) {g : Field} (hg : g ∈ t.fields) :
    (f.afterRename new g).mention (replaceFirst f.isNamed new names) = g.mention names := by
  unfold Field.mention
  induction names with
  | nil => rfl
  | cons n names ih =>
    obtain ⟨hn, hnames⟩ := List.forall_mem_cons.mp hfresh
    rw [replaceFirst]
    by_cases hgf : g = f
    · subst hgf
      have hnew : (g.renamed new).isNamed n = false := (sameName_comm new n).trans hn
      rw [Field.afterRename_self] at ih ⊢
      by_cases hgn : g.isNamed n = true
      · have hself : (g.renamed new).isNamed new = true := sameName_refl new
        rw [if_pos hgn, List.findIdx_cons, List.findIdx_cons, hgn, hself, cond_true, cond_true]
      · rw [if_neg hgn, List.findIdx_cons, List.findIdx_cons, hnew, Bool.eq_false_iff.mpr hgn, ih hnames]
    · rw [Field.afterRename_of_ne new hgf] at ih ⊢
      by_cases hfn : f.isNamed n = true
      · have hgn : g.isNamed n = false := Bool.eq_false_iff.mpr fun h => hgf (eq_of_isNamed_both hd hg hf h hfn)
        rw [if_pos hfn, List.findIdx_cons, List.findIdx_cons, hother g hg hgf, hgn]
      · rw [if_neg hfn, List.findIdx_cons, List.findIdx_cons, ih hnames]

theorem length_replaceFirst {α : Type} (p : α → Bool) (b : α) (as : List α) : (replaceFirst p b as).length = as.length := by
  induction as with
  | nil => rfl
  | cons a as ih =>
    rw [replaceFirst]
    split
    · rfl
    · rw [List.length_cons, List.length_cons, ih]

theorem Renames.primaryKeyOrder {new : String} (h : t.Renames f new u) (hd : Distinct t.fields) (hf : f ∈ t.fields)
    (hother : ∀ g ∈ t.fields, g ≠ f → g.isNamed new = false) (hfresh : ∀ n ∈ t.keyOrder, sameName n new = false) :
    u.primaryKeyOrder = t.primaryKeyOrder.map (f.afterRename new) := by
  have hu : Distinct u.fields := h.fields ▸ (distinct_map_afterRename_iff hd hf new).mpr hother
  refine (orderedBy_primaryKeyOrder hu).unique ?_
  rw [h.primaryKey, h.keyOrder]
  exact (orderedBy_primaryKeyOrder hd).map (length_replaceFirst _ _ _) fun g hg =>
    mention_replaceFirst hd hf hother hfresh (mem_primaryKey.mp hg).1

theorem Removes.primaryKeyOrder (h : t.Removes f u) (hd : Distinct t.fields) (hf : f ∈ t.fields) :
    u.primaryKeyOrder = t.primaryKeyOrder.filter (· != f) := by
  have hu : Distinct u.fields := h.fields ▸ hd.sublist (List.filter_sublist.map _)
  refine (orderedBy_primaryKeyOrder hu).unique ?_
  rw [h.primaryKey, h.keyOrder]
  refine (orderedBy_primaryKeyOrder hd).filter fun g hg hne n hgn => ?_
  simp only [Bool.not_eq_true', Bool.eq_false_iff]
  exact fun hfn => bne_iff_ne.mp hne (eq_of_isNamed_both hd (mem_primaryKey.mp hg).1 hf hgn hfn)

theorem orderedBy_setPrimaryKeyOrder (hd : Distinct t.fields) (names : List String) :
    OrderedBy names t.primaryKey (t.setPrimaryKeyOrder names).primaryKeyOrder := by
  have horder := orderedBy_primaryKeyOrder (t := t.setPrimaryKeyOrder names) hd
  by_cases hcolumns : t.primaryKey.map Field.name = names
  · -- the order of the columns is not kept, and is what a key without a declared order has
    have hnil : (t.setPrimaryKeyOrder names).keyOrder = [] := if_pos hcolumns
    rw [primaryKeyOrder_of_keyOrder_nil (t := t.setPrimaryKeyOrder names) hd hnil, ← hcolumns]
    exact .columnNames (distinct_primaryKey hd)
  · rwa [show (t.setPrimaryKeyOrder names).keyOrder = names from if_neg hcolumns] at horder

/-- The key has each key column once and no other. A declared order puts the columns it mentions first; a removed column
leaves the others in their order; and a column with a name that was not there before keeps its place. -/
theorem primaryKeyOrder_edits (hd : Distinct t.fields) :
    (t.primaryKeyOrder.Nodup ∧ ∀ f, f ∈ t.primaryKeyOrder ↔ f ∈ t.fields ∧ f.primaryKey = true) ∧
    (∀ names, OrderedBy names t.primaryKey (t.setPrimaryKeyOrder names).primaryKeyOrder) ∧
    (∀ name f, t.field? name = some f → ∃ u, t.removeField? name = some (f, u) ∧
      u.primaryKeyOrder = t.primaryKeyOrder.filter (· != f)) ∧
    ∀ i f new, t.fields[i]? = some f → (∀ g ∈ t.fields, g ≠ f → g.isNamed new = false) →
      (∀ n ∈ t.keyOrder, sameName n new = false) → ∃ u, t.setField? i (f.renamed new) = some (f, u) ∧
        u.primaryKeyOrder = t.primaryKeyOrder.map (f.afterRename new) := by
  have hperm := (orderedBy_primaryKeyOrder hd).perm
  refine ⟨⟨hperm.nodup_iff.mpr (distinct_primaryKey hd).of_map, fun f => ?_⟩, orderedBy_setPrimaryKeyOrder hd,
    fun name f hf => ?_, fun i f new hf hother hfresh => ?_⟩
  · rw [hperm.mem_iff, mem_primaryKey]
  · obtain ⟨u, hu, hremoves⟩ := exists_removes hd hf
    exact ⟨u, hu, hremoves.primaryKeyOrder hd ((field?_eq_some_iff hd).mp hf).1⟩
  · obtain ⟨u, hu, hrenames⟩ := exists_renames hd hf new
    exact ⟨u, hu, hrenames.primaryKeyOrder hd (List.mem_of_getElem? hf) hother hfresh⟩

/-- A key whose declared order names a column that is not there, one in capitals, one twice and one that is no key column. -/
def strewn : Table where
  name := "t"
  fields := [
    { name := "a", primaryKey := true }, { name := "b" }, { name := "c", primaryKey := true }, { name := "d", primaryKey := true }]
  keyOrder := ["nope", "C", "b", "a", "c"]

theorem primaryKeyOrder_edits_strewn : strewn.primaryKeyOrder.map Field.name = ["c", "a", "d"] ∧
    (∃ f u, strewn.removeField? "A" = some (f, u) ∧ u.primaryKeyOrder.map Field.name = ["c", "d"]) ∧
    ∃ f u, strewn.setField? 2 (f.renamed "z") = some (f, u) ∧ u.primaryKeyOrder.map Field.name = ["z", "a", "d"] := by
  have hd : Distinct strewn.fields := by unfold Distinct; decide
  obtain ⟨-, -, hremove, hrename⟩ := primaryKeyOrder_edits hd
  refine ⟨by decide, ?_, ?_⟩
  · obtain ⟨u, hu, horder⟩ := hremove "A" _ rfl
    exact ⟨_, u, hu, by rw [horder]; decide⟩
  · obtain ⟨u, hu, horder⟩ := hrename 2 _ "z" rfl (by decide) (by decide)
    exact ⟨_, u, hu, by rw [horder]; decide⟩

end Table

end SchemaEditor
