import SchemaEditor.Proofs.Database.Plans
import SchemaEditor.Proofs.Table.KeyOrder

/-!
# The key of a table whose column moves

A column that moves changes places with another one. A key whose order is declared in full stays as it is. A key column
that the declared order does not mention is placed by where it stands in the table, so the key changes as soon as such a
column passes another one; and a key in the order of the columns declares nothing.
-/

namespace SchemaEditor

/-! ## What stays in order -/

/-- Of two arrangements of a list, a part is in the same order in both if no two elements of it pass each other. -/
theorem filter_eq_filter_iff {α : Type} [DecidableEq α] {as bs : List α} (hn : as.Nodup) (hperm : bs.Perm as) (p : α → Bool) :
    bs.filter p = as.filter p ↔ as.Pairwise fun a b => p a = true → p b = true → bs.idxOf a < bs.idxOf b := by
  have hsorted : (bs.filter p).Pairwise fun a b => bs.idxOf a < bs.idxOf b := by
    have hbs := hperm.nodup_iff.mpr hn
    refine List.Pairwise.filter _ (List.pairwise_iff_getElem.mpr fun i j hi hj hij => ?_)
    rwa [hbs.idxOf_getElem, hbs.idxOf_getElem]
  rw [← List.pairwise_filter]
  constructor
  · intro h
    rwa [← h]
  · intro h
    exact List.Perm.eq_of_pairwise (fun a b _ _ hab hba => absurd hba (Nat.lt_asymm hab)) hsorted h (hperm.filter p)

/-! ## Names between quotes -/

/-- Text with its quotes doubled ends at the first quote that stands alone. -/
theorem eq_of_doubled {q : Char} {cs ds xs ys : List Char} (hx : xs.head? ≠ some q) (hy : ys.head? ≠ some q)
    (h : doubled q cs ++ q :: xs = doubled q ds ++ q :: ys) : cs = ds ∧ xs = ys := by
  induction cs generalizing ds with
  | nil => cases ds <;> grind [doubled]
  | cons c cs ih => cases ds <;> grind [doubled]

theorem eq_of_quoteIdentifier_append {n m : String} {xs ys : List Char} (hx : xs.head? ≠ some '\x60')
    (hy : ys.head? ≠ some '\x60') (h : (quoteIdentifier n).toList ++ xs = (quoteIdentifier m).toList ++ ys) :
    n = m ∧ xs = ys := by
  simp only [quoteIdentifier, quoteWith, String.toList_ofList, List.cons_append, List.cons.injEq, true_and, List.append_assoc,
    List.nil_append] at h
  obtain ⟨hname, hrest⟩ := eq_of_doubled hx hy h
  exact ⟨String.toList_inj.mp hname, hrest⟩

theorem toList_quoteIdentifierList_cons (n : String) (ns : List String) : (quoteIdentifierList (n :: ns)).toList =
    (quoteIdentifier n).toList ++ if ns = [] then [] else ',' :: (quoteIdentifierList ns).toList := by
  cases ns with
  | nil => simp [quoteIdentifierList]
  | cons m ms => simp [quoteIdentifierList, String.toList_intercalate]

theorem quoteIdentifierList_injective {ns ms : List String} (h : quoteIdentifierList ns = quoteIdentifierList ms) : ns = ms := by
  have hquote (n : String) (ns : List String) : quoteIdentifierList [] ≠ quoteIdentifierList (n :: ns) := fun h => by
    have := congrArg String.toList h
    rw [toList_quoteIdentifierList_cons] at this
    simp [quoteIdentifierList, quoteIdentifier, quoteWith] at this
  have hrest (ns : List String) : (if ns = [] then [] else ',' :: (quoteIdentifierList ns).toList).head? ≠ some '\x60' := by
    split <;> simp
  induction ns generalizing ms with
  | nil =>
    cases ms with
    | nil => rfl
    | cons m ms => exact absurd h (hquote m ms)
  | cons n ns ih =>
    cases ms with
    | nil => exact absurd h.symm (hquote n ns)
    | cons m ms =>
      have htext := congrArg String.toList h
      rw [toList_quoteIdentifierList_cons, toList_quoteIdentifierList_cons] at htext
      obtain ⟨rfl, htail⟩ := eq_of_quoteIdentifier_append (hrest ns) (hrest ms) htext
      by_cases hns : ns = [] <;> by_cases hms : ms = []
      · rw [hns, hms]
      · simp [hns, hms] at htail
      · simp [hns, hms] at htail
      · rw [if_neg hns, if_neg hms, List.cons.injEq] at htail
        rw [ih (String.toList_inj.mp htail.2)]

/-! ## The key after an exchange -/

theorem eq_of_map_name {fs keys keys' : List Field} (hd : Distinct fs) (hkeys : ∀ f ∈ keys, f ∈ fs)
    (hkeys' : ∀ f ∈ keys', f ∈ fs) (h : keys.map Field.name = keys'.map Field.name) : keys = keys' := by
  induction keys generalizing keys' with
  | nil => exact (List.map_eq_nil_iff.mp h.symm).symm
  | cons f keys ih =>
    obtain ⟨g, keys', rfl, hname, hrest⟩ := List.map_eq_cons_iff.mp h.symm
    obtain ⟨hf, hkeys⟩ := List.forall_mem_cons.mp hkeys
    obtain ⟨hg, hkeys'⟩ := List.forall_mem_cons.mp hkeys'
    rw [eq_of_isNamed hd hg hf (hname ▸ isNamed_self g), ih hkeys hkeys' hrest.symm]

/-- Names in other letter case mention the same columns. -/
theorem Field.mention_congr {names names' : List String} (h : names.map foldCase = names'.map foldCase) (f : Field) :
    f.mention names = f.mention names' := by
  have hfold (names : List String) : f.mention names = (names.map foldCase).findIdx (foldCase f.name == ·) := by
    rw [List.findIdx_map]
    rfl
  rw [hfold, hfold, h]

theorem map_foldCase_replaceFirst (f : Field) (names : List String) :
    (Table.replaceFirst f.isNamed f.name names).map foldCase = names.map foldCase := by
  induction names with
  | nil => rfl
  | cons n names ih =>
    rw [Table.replaceFirst]
    split
    · next hn => rw [List.map_cons, List.map_cons, isNamed_iff.mp hn]
    · rw [List.map_cons, List.map_cons, ih]

namespace Table

variable {t u : Table} {i j : Nat}

/-- A key column that has no place in the declared order. -/
def undeclaredKey (t : Table) (f : Field) : Bool := f.primaryKey && !f.isMentioned t.keyOrder

/-- When the columns at `i` and `j` change places, no two key columns without a declared place pass each other. -/
def OvertakesNone (t : Table) (i j : Nat) : Prop :=
  ∀ m n f g, m < n → t.fields[m]? = some f → t.fields[n]? = some g → t.undeclaredKey f = true → t.undeclaredKey g = true →
    Equiv.swap i j m < Equiv.swap i j n

/-- The columns of `u` are those of `t` in another order, and its key is declared in the same order. -/
structure Rearranges (u t : Table) : Prop where
  perm : u.fields.Perm t.fields
  keyOrder : u.keyOrder.map foldCase = t.keyOrder.map foldCase

theorem Rearranges.primaryKeyOrder_eq_iff (h : u.Rearranges t) (hd : Distinct t.fields) :
    u.primaryKeyOrder.map Field.name = t.primaryKeyOrder.map Field.name ↔
      u.fields.filter t.undeclaredKey = t.fields.filter t.undeclaredKey := by
  have hu : Distinct u.fields := (h.perm.map _).nodup_iff.mpr hd
  have hkey : u.primaryKey.Perm t.primaryKey := h.perm.filter _
  have horder : OrderedBy t.keyOrder u.primaryKey u.primaryKeyOrder := by
    have hlength : t.keyOrder.length = u.keyOrder.length := by simpa using congrArg List.length h.keyOrder.symm
    simpa using (orderedBy_primaryKeyOrder hu).map (r := id) hlength fun f _ => Field.mention_congr h.keyOrder.symm f
  have hundeclared (fs : List Field) :
      (fs.filter Field.primaryKey).filter (fun f => !f.isMentioned t.keyOrder) = fs.filter t.undeclaredKey := by
    rw [List.filter_filter]
    exact List.filter_congr fun f _ => Bool.and_comm _ _
  have heq := horder.eq_iff (orderedBy_primaryKeyOrder hd) hkey
  rw [primaryKey, primaryKey, hundeclared, hundeclared] at heq
  rw [← heq]
  refine ⟨eq_of_map_name hd (fun f hf => ?_) fun f hf => ?_, fun hkeys => by rw [hkeys]⟩
  · exact (mem_primaryKey.mp (hkey.mem_iff.mp (horder.perm.mem_iff.mp hf))).1
  · exact (mem_primaryKey.mp ((orderedBy_primaryKeyOrder hd).perm.mem_iff.mp hf)).1

theorem exists_key_of_hasInlineKey (h : t.hasInlineKey = true) : ∃ key, t.primaryKey = [key] := by
  unfold hasInlineKey at h
  split at h
  · next key hkey => exact ⟨key, hkey⟩
  · cases h

/-- The clause of the key is the same if the key has the same columns in the same order. -/
theorem Rearranges.keyClause_eq_iff (h : u.Rearranges t) (hd : Distinct t.fields) :
    u.keyClause = t.keyClause ↔ u.primaryKeyOrder.map Field.name = t.primaryKeyOrder.map Field.name := by
  have hu : Distinct u.fields := (h.perm.map _).nodup_iff.mpr hd
  have hkey : u.primaryKey.Perm t.primaryKey := h.perm.filter _
  by_cases hone : ∃ key, t.primaryKey = [key]
  · obtain ⟨key, hone⟩ := hone
    rw [hone, List.perm_singleton] at hkey
    have hinline : u.hasInlineKey = t.hasInlineKey := by rw [hasInlineKey, hasInlineKey, hkey, hone]
    have horder : u.primaryKeyOrder.map Field.name = t.primaryKeyOrder.map Field.name := by
      have ht := primaryKeyOrder_perm hd
      have hu := primaryKeyOrder_perm hu
      rw [hone, List.map_singleton, List.perm_singleton] at ht
      rw [hkey, List.map_singleton, List.perm_singleton] at hu
      rw [ht, hu]
    exact iff_of_true (by rw [keyClause, keyClause, hinline, horder]) horder
  · have ht : t.hasInlineKey = false := Bool.eq_false_iff.mpr fun ht => hone (exists_key_of_hasInlineKey ht)
    have hu : u.hasInlineKey = false := Bool.eq_false_iff.mpr fun hu => by
      obtain ⟨key, hu⟩ := exists_key_of_hasInlineKey hu
      exact hone ⟨key, List.perm_singleton.mp (hu ▸ hkey.symm)⟩
    rw [keyClause, keyClause, ht, hu]
    generalize u.primaryKeyOrder.map Field.name = ns
    generalize t.primaryKeyOrder.map Field.name = ms
    refine ⟨fun hclause => ?_, fun hsame => by rw [hsame]⟩
    cases ns <;> cases ms <;> simp at hclause ⊢
    simpa using quoteIdentifierList_injective hclause

/-- The key keeps its order in an exchange if and only if no column of it that has no declared place passes another one. -/
theorem Rearranges.overtakesNone_iff (h : u.Rearranges t) (hd : Distinct t.fields)
    (hfields : ∀ k : Nat, u.fields[k]? = t.fields[Equiv.swap i j k]?) :
    u.primaryKeyOrder.map Field.name = t.primaryKeyOrder.map Field.name ↔ t.OvertakesNone i j := by
  have hn := nodup_fields hd
  have hidx {m : Nat} {f : Field} (hf : t.fields[m]? = some f) : u.fields.idxOf f = Equiv.swap i j m := by
    have hu : u.fields[Equiv.swap i j m]? = some f := by rw [hfields, Equiv.swap_apply_self, hf]
    obtain ⟨hlt, rfl⟩ := List.getElem?_eq_some_iff.mp hu
    exact (h.perm.nodup_iff.mpr hn).idxOf_getElem _ hlt
  rw [h.primaryKeyOrder_eq_iff hd, filter_eq_filter_iff hn h.perm, List.pairwise_iff_getElem]
  constructor
  · intro hpairs m n f g hmn hf hg hkf hkg
    obtain ⟨hm, rfl⟩ := List.getElem?_eq_some_iff.mp hf
    obtain ⟨hn, rfl⟩ := List.getElem?_eq_some_iff.mp hg
    rw [← hidx hf, ← hidx hg]
    exact hpairs m n hm hn hmn hkf hkg
  · intro hnone m n hm hn hmn hkf hkg
    rw [hidx (List.getElem?_eq_getElem hm), hidx (List.getElem?_eq_getElem hn)]
    exact hnone m n _ _ hmn (List.getElem?_eq_getElem hm) (List.getElem?_eq_getElem hn) hkf hkg

theorem Rearranges.of_swapFields? (h : t.swapFields? i j = some u) : u.Rearranges t := by
  obtain ⟨heq, hperm, -⟩ := eq_of_swapFields? h
  exact ⟨hperm, by rw [heq]⟩

end Table

/-! ## The key of the rebuilt table -/

namespace RebuildPlan

/-- The column that the catalog gives is the one at the place of its name. -/
theorem getElem?_of_column? {c : Catalog} {table column : String} {f : Field} {t : Table} {discarded : List String} {i : Nat}
    (hf : c.column? table column = .ok f) (hdefinition : c.definition? table = .ok (t, discarded))
    (hfind : t.find? column = some i) : t.fields[i]? = some f := by
  obtain ⟨g, hg, -, hfield⟩ := Table.field?_of_find? hfind
  simp only [Catalog.column?, hdefinition, bind, Except.bind, hfield] at hf
  cases hf
  exact hg

/-- A column that moves changes places, and only the spelling of its name in the key order may change besides. -/
theorem rearranges_of_move {t rebuilt : Table} {c : ColumnChange} {i j : Nat} {f : Field} {columns : List String}
    (hc : c.replacement = some f) (hf : t.fields[i]? = some f) (h : rearrange? t c i j = some (columns, rebuilt)) :
    rebuilt.Rearranges t ∧ ∀ k : Nat, rebuilt.fields[k]? = t.fields[Equiv.swap i j k]? := by
  obtain ⟨exchanged, old, hexchanged, hset, -⟩ := rearrange?_exchange hc h
  obtain ⟨heq, hperm, hfields⟩ := Table.eq_of_swapFields? hexchanged
  have hmoved : exchanged.fields[j]? = some f := by rw [hfields, Equiv.swap_apply_right, hf]
  obtain ⟨-, hrebuilt⟩ := Prod.mk.inj (Option.some.inj ((Table.setField?_of_getElem? hmoved f).symm.trans hset))
  have hsame : rebuilt.fields = exchanged.fields := by
    obtain ⟨hlt, rfl⟩ := List.getElem?_eq_some_iff.mp hmoved
    rw [← hrebuilt]
    exact List.set_getElem_self hlt
  have hkeyOrder : rebuilt.keyOrder.map foldCase = t.keyOrder.map foldCase := by
    rw [← hrebuilt, heq]
    exact map_foldCase_replaceFirst f t.keyOrder
  exact ⟨⟨hsame ▸ hperm, hkeyOrder⟩, hsame ▸ hfields⟩

/-- An exchange of two columns leaves the key as it is if and only if no key column without a declared place passes another
one, and so does a column that is moved by a rebuild; the clause that declares the key is then the same as well. -/
theorem keepsKey_iff_overtakesNone (t : Table) :
    (Distinct t.fields → ∀ i j, i < t.fields.length → j < t.fields.length → ∃ u, t.swapFields? i j = some u ∧
      (u.primaryKeyOrder.map Field.name = t.primaryKeyOrder.map Field.name ↔ t.OvertakesNone i j)) ∧
    ∀ {c : Catalog} {table column : String} {offset : Int} {f : Field} {p : RebuildPlan} {discarded : List String},
      c.definition? table = .ok (t, discarded) → c.column? table column = .ok f →
      make c { table, column, replacement := some f, offset } = .ok p → ∃ i j : Nat,
        t.find? column = some i ∧ (j : Int) = i + offset ∧ j < t.fields.length ∧
        (p.rebuilt.primaryKeyOrder.map Field.name = t.primaryKeyOrder.map Field.name ↔ t.OvertakesNone i j) ∧
        (p.rebuilt.keyClause = t.keyClause ↔ t.OvertakesNone i j) := by
  refine ⟨fun hd i j hi hj => ?_, @fun c table column offset f p discarded hdefinition hf hmake => ?_⟩
  · obtain ⟨u, hu⟩ := Table.exists_swapFields? hi hj
    exact ⟨u, hu, (Table.Rearranges.of_swapFields? hu).overtakesNone_iff hd (Table.eq_of_swapFields? hu).2.2⟩
  · obtain ⟨_, _, i, j, hmade, hfind, hplace, -, -, hrearranged, hvalid, -⟩ := make_ok hmake
    cases hdefinition.symm.trans hmade
    have hmoving : t.fields[i]? = some f := getElem?_of_column? hf hdefinition hfind
    obtain ⟨hnamed, hfields⟩ := rearranges_of_move (t := { t with name := temporaryName c }) rfl hmoving hrearranged
    have hrearranges : p.rebuilt.Rearranges t := ⟨hnamed.perm, hnamed.keyOrder⟩
    have hd : Distinct t.fields :=
      (hrearranges.perm.map _).nodup_iff.mp (Table.valid_of_validate hvalid).distinct
    obtain ⟨hoffset, hlt⟩ := placeAt?_eq_some.mp hplace
    have hkey := hrearranges.overtakesNone_iff hd hfields
    exact ⟨i, j, hfind, hoffset, hlt, hkey, (hrearranges.keyClause_eq_iff hd).trans hkey⟩

/-- A key whose columns have another one between them, declared in the order of the columns. -/
def spacedKey : Table where
  name := "t"
  fields := [
    { name := "a", sqlType := "text", primaryKey := true },
    { name := "b", sqlType := "text" },
    { name := "c", sqlType := "text", primaryKey := true }]

def spacedCatalog : Catalog where
  objects := [{
    kind := .table, name := "t", tableName := "t", fields := spacedKey.fields
    sql := "CREATE TABLE t (a text, b text, c text, PRIMARY KEY (a, c))" }]

theorem definition?_spacedCatalog : spacedCatalog.definition? "t" = .ok (spacedKey, []) := by decide +kernel

/-- A key column may pass one that is none, but not one that is. -/
theorem overtakesNone_spacedKey : spacedKey.OvertakesNone 0 1 ∧ ¬spacedKey.OvertakesNone 0 2 := by
  constructor
  · intro m n f g hmn hf hg hkf hkg
    have hn : n < 3 := (List.getElem?_eq_some_iff.mp hg).1
    have hcases : (m = 0 ∧ n = 1) ∨ (m = 0 ∧ n = 2) ∨ (m = 1 ∧ n = 2) := by omega
    rcases hcases with ⟨rfl, rfl⟩ | ⟨rfl, rfl⟩ | ⟨rfl, rfl⟩
    · cases hg; cases hkg
    · decide
    · cases hf; cases hkf
  · exact fun h => absurd (h 0 2 _ _ (by decide) rfl rfl (by decide) (by decide)) (by decide)

/-- The first column, on its way to the end. -/
def leavingFirst : ColumnChange where
  table := "t"
  column := "A"
  replacement := some { name := "a", sqlType := "text", primaryKey := true }
  offset := 2

/-- Moved by one place the first column of the key stays the first, moved by two it becomes the last, in the clause as well. -/
theorem keepsKey_iff_overtakesNone_spaced :
    (∃ u, spacedKey.swapFields? 0 1 = some u ∧ u.primaryKeyOrder.map Field.name = ["a", "c"]) ∧
    (∃ u, spacedKey.swapFields? 0 2 = some u ∧ u.primaryKeyOrder.map Field.name ≠ ["a", "c"]) ∧
    ∃ p, make spacedCatalog leavingFirst = .ok p ∧ p.rebuilt.keyClause ≠ spacedKey.keyClause := by
  obtain ⟨hexchange, hmove⟩ := keepsKey_iff_overtakesNone spacedKey
  obtain ⟨hnone, hsome⟩ := overtakesNone_spacedKey
  have hd : Distinct spacedKey.fields := by unfold Distinct; decide
  have horder : spacedKey.primaryKeyOrder.map Field.name = ["a", "c"] := by decide
  refine ⟨?_, ?_, ?_⟩
  · obtain ⟨u, hu, hkey⟩ := hexchange hd 0 1 (by decide) (by decide)
    exact ⟨u, hu, (hkey.mpr hnone).trans horder⟩
  · obtain ⟨u, hu, hkey⟩ := hexchange hd 0 2 (by decide) (by decide)
    exact ⟨u, hu, fun h => hsome (hkey.mp (h.trans horder.symm))⟩
  · have hmade : (make spacedCatalog leavingFirst).isOk = true := by decide +kernel
    cases hmake : make spacedCatalog leavingFirst with
    | error e => rw [hmake] at hmade; cases hmade
    | ok p =>
      have hcolumn : spacedCatalog.column? "t" "A" = .ok { name := "a", sqlType := "text", primaryKey := true } := by decide +kernel
      obtain ⟨i, j, hfind, hoffset, -, -, hclause⟩ := hmove definition?_spacedCatalog hcolumn hmake
      cases (show spacedKey.find? "A" = some 0 by decide).symm.trans hfind
      obtain rfl : j = 2 := by omega
      exact ⟨p, rfl, fun h => hsome (hclause.mp h)⟩

end RebuildPlan

end SchemaEditor
