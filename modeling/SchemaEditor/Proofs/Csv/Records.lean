import SchemaEditor.Csv.Decoder
import SchemaEditor.Database.Transfer

/-!
# Records and rows

The fields of all records are cut into rows as wide as the first record. So the rows are the records only if no
record but the last has another width, and the last is no wider.
-/

namespace SchemaEditor

namespace Csv

/-! ## What is decoded -/

theorem Pending.record_ne_nil (p : Pending) : p.record ≠ [] := by
  simp [Pending.record, Pending.endField]

/-- Each record has a field. -/
theorem decodeFrom_ne_nil {o : Options} {l : Limit} {done : List (List String)} {p : Pending} {lines : List Line} {d : Decoded}
    (h : decodeFrom o l done p lines = .ok d) (hdone : ∀ r ∈ done, r ≠ []) : ∀ r ∈ d.recordList, r ≠ [] := by
  have hclose : ∀ (done : List (List String)) (p : Pending), (∀ r ∈ done, r ≠ []) →
      ∀ r ∈ (decodeFrom.close done p).recordList, r ≠ [] := by
    intro done p hdone r hr
    unfold decodeFrom.close at hr
    split at hr
    · rcases List.mem_cons.mp (List.mem_reverse.mp hr) with rfl | hr
      · exact Pending.record_ne_nil _
      · exact hdone r hr
    · exact hdone r (List.mem_reverse.mp hr)
  induction lines generalizing done p with
  | nil =>
    cases h
    exact hclose done p hdone
  | cons line lines ih =>
    unfold decodeFrom at h
    split at h
    · cases h
      exact hclose done p hdone
    · cases line with
      | none => cases h
      | some cs =>
        dsimp only at h
        split at h
        · exact ih h hdone
        · split at h
          · cases h
          · refine ih h fun r hr => ?_
            rcases List.mem_cons.mp hr with rfl | hr
            · exact Pending.record_ne_nil _
            · exact hdone r hr

theorem decodeLines_ne_nil {o : Options} {l : Limit} {lines : List Line} {d : Decoded} (h : decodeLines o l lines = .ok d) :
    ∀ r ∈ d.recordList, r ≠ [] :=
  decodeFrom_ne_nil h (by simp)

/-- Looking at a signal does not change what is read. -/
theorem decodeFrom_uncancelled {o : Options} {l : Limit} (hl : l.maxRecords = none) {done : List (List String)} {p : Pending}
    {lines : List Line} {d : Decoded} (h : decodeFrom o l done p lines = .ok d) : decodeFrom o {} done p lines = .ok d := by
  have hreached (l : Limit) (hl : l.maxRecords = none) (n : Nat) : l.reached n = false := by rw [Limit.reached, hl]
  induction lines generalizing done p with
  | nil => exact h
  | cons line lines ih =>
    unfold decodeFrom at h ⊢
    rw [hreached l hl] at h
    rw [hreached {} rfl]
    rw [if_neg Bool.false_ne_true] at h ⊢
    cases line with
    | none => cases h
    | some cs =>
      dsimp only at h ⊢
      by_cases hquotes : (p.scan o cs).inQuotes = true
      · rw [if_pos hquotes] at h ⊢
        exact ih h
      · rw [if_neg hquotes] at h ⊢
        rw [if_neg (show ¬({} : Limit).cancelled _ = true from Bool.false_ne_true)]
        split at h
        · cases h
        · exact ih h

/-! ## Rows of a width -/

/-- A record as a row: its fields, and NULL for those that are missing. -/
def recordRow (width : Nat) (r : List String) : List (Option String) := r.map some ++ List.replicate (width - r.length) none

/-- No record but the last has another width, and the last is no wider. -/
def Aligned (width : Nat) : List (List String) → Prop
  | [] => True
  | [r] => r.length ≤ width
  | r :: rs => r.length = width ∧ Aligned width rs

theorem Aligned.head_le {width : Nat} {r : List String} {rs : List (List String)} (h : Aligned width (r :: rs)) :
    r.length ≤ width := by
  cases rs with
  | nil => exact h
  | cons => exact Nat.le_of_eq h.1

@[simp] theorem length_paddedRow (width : Nat) (r : List String) : (paddedRow width r).length = width := by
  rw [paddedRow, List.length_map, List.length_range]

theorem getElem?_paddedRow {width k : Nat} (r : List String) (hk : k < width) : (paddedRow width r)[k]? = some r[k]? := by
  rw [paddedRow, List.getElem?_map, List.getElem?_range hk]
  rfl

theorem getElem?_recordRow {width k : Nat} (r : List String) (hk : k < width) : (recordRow width r)[k]? = some r[k]? := by
  rw [recordRow, List.getElem?_append, List.length_map, List.getElem?_map, List.getElem?_replicate]
  by_cases hr : k < r.length
  · rw [if_pos hr, List.getElem?_eq_getElem hr]
    rfl
  · rw [if_neg hr, if_pos (by omega), List.getElem?_eq_none (by omega)]

theorem length_recordRow {width : Nat} {r : List String} (h : r.length ≤ width) : (recordRow width r).length = width := by
  rw [recordRow, List.length_append, List.length_map, List.length_replicate]
  omega

theorem paddedRow_eq_recordRow {width : Nat} {r : List String} (h : r.length ≤ width) : paddedRow width r = recordRow width r := by
  apply List.ext_getElem?
  intro k
  by_cases hk : k < width
  · rw [getElem?_paddedRow r hk, getElem?_recordRow r hk]
  · rw [List.getElem?_eq_none (by rw [length_paddedRow]; omega), List.getElem?_eq_none (by rw [length_recordRow h]; omega)]

/-- A row has the width of its table, so it is not the row of a record that is wider. -/
theorem le_of_paddedRow_eq {width : Nat} {c r : List String} (h : paddedRow width c = recordRow width r) : r.length ≤ width := by
  have hlength := congrArg List.length h
  rw [length_paddedRow, recordRow, List.length_append, List.length_map, List.length_replicate] at hlength
  omega

theorem chunks_eq_cons {α : Type} {width : Nat} {as : List α} (has : as ≠ []) (h : 0 < width) :
    chunks width as = as.take width :: chunks width (as.drop width) := by
  cases as with
  | nil => exact absurd rfl has
  | cons a as =>
    obtain ⟨n, rfl⟩ : ∃ n, width = n + 1 := ⟨width - 1, by omega⟩
    rw [chunks]
    rfl

theorem chunks_ne_nil {α : Type} {width : Nat} {as : List α} (has : as ≠ []) : chunks width as ≠ [] := by
  cases as with
  | nil => exact absurd rfl has
  | cons a as => simp [chunks]

/-- Records of one width are cut apart as they were. -/
theorem chunks_flatten {width : Nat} (hwidth : 0 < width) {records : List (List String)}
    (h : ∀ r ∈ records, r.length = width) : chunks width records.flatten = records := by
  induction records with
  | nil => simp [chunks]
  | cons r rs ih =>
    have hr : r.length = width := h r List.mem_cons_self
    have hne : r ++ rs.flatten ≠ [] := by
      have hpos : 0 < r.length := hr ▸ hwidth
      simp [List.length_pos_iff.mp hpos]
    rw [List.flatten_cons, chunks_eq_cons hne hwidth, ← hr, List.take_left, List.drop_left, hr,
      ih fun q hq => h q (List.mem_cons_of_mem r hq)]

/-- Records become rows of their own exactly if they are aligned. -/
theorem chunks_rows_iff {width : Nat} {records : List (List String)} (hne : ∀ r ∈ records, r ≠ []) :
    (chunks width records.flatten).map (paddedRow width) = records.map (recordRow width) ↔ Aligned width records := by
  induction records with
  | nil => simp [chunks, Aligned]
  | cons r rs ih =>
    have hr : r ≠ [] := hne r List.mem_cons_self
    have hpos : 0 < r.length := List.length_pos_iff.mpr hr
    have hflat : r ++ rs.flatten ≠ [] := by simp [hr]
    rw [List.flatten_cons, List.map_cons]
    by_cases hle : r.length ≤ width
    · rw [chunks_eq_cons hflat (by omega), List.map_cons, List.cons.injEq]
      cases rs with
      | nil =>
        rw [List.flatten_nil, List.append_nil, List.take_of_length_le hle, List.drop_of_length_le hle]
        simp [chunks, Aligned, hle, paddedRow_eq_recordRow hle]
      | cons r₂ rs =>
        by_cases hfull : r.length = width
        · rw [← hfull, List.take_left, List.drop_left, hfull, ih fun q hq => hne q (List.mem_cons_of_mem r hq)]
          simp [Aligned, hfull, paddedRow_eq_recordRow hle]
        · -- the row goes on with a field of the next record where the record has none
          have hlt : r.length < width := by omega
          have hlonger : r.length < (r ++ (r₂ :: rs).flatten).length := by
            have := List.length_pos_iff.mpr (hne r₂ (by simp))
            simp only [List.length_append, List.flatten_cons]
            omega
          refine iff_of_false (fun h => ?_) fun h => hfull h.1
          have hfield := congrArg (fun row => row[r.length]?) h.1
          rw [getElem?_paddedRow _ hlt, getElem?_recordRow _ hlt, List.getElem?_take_of_lt hlt, List.getElem?_eq_getElem hlonger,
            List.getElem?_eq_none (Nat.le_refl _)] at hfield
          cases Option.some.inj hfield
    · refine iff_of_false (fun h => ?_) fun h => hle h.head_le
      cases hchunks : chunks width (r ++ rs.flatten) with
      | nil => exact chunks_ne_nil hflat hchunks
      | cons c cs =>
        rw [hchunks, List.map_cons, List.cons.injEq] at h
        exact hle (le_of_paddedRow_eq h.1)

/-! ## The data of an input -/

/-- The data records of an input: all but the header. -/
def Decoded.dataRecords (o : Options) (d : Decoded) : List (List String) := if o.header then d.recordList.tail else d.recordList

theorem mem_of_mem_dataRecords {o : Options} {d : Decoded} {r : List String} (h : r ∈ d.dataRecords o) : r ∈ d.recordList := by
  unfold Decoded.dataRecords at h
  split at h
  · exact List.mem_of_mem_tail h
  · exact h

/-- The header is a row of its own, so the other rows are cut from the data records. -/
theorem splitHeader_rows {o : Options} {d : Decoded} (hne : ∀ r ∈ d.recordList, r ≠ []) :
    (splitHeader o.header d.rows).2 = chunks d.columns (d.dataRecords o).flatten := by
  unfold splitHeader Decoded.dataRecords
  split
  · cases hrecords : d.recordList with
    | nil => simp [Decoded.rows, Decoded.fields, hrecords, chunks]
    | cons r rs =>
      have hr : r ≠ [] := hne r (by rw [hrecords]; exact List.mem_cons_self)
      have hcolumns : d.columns = r.length := by rw [Decoded.columns, hrecords]; rfl
      have hflat : r ++ rs.flatten ≠ [] := by simp [hr]
      have hcons := chunks_eq_cons hflat (List.length_pos_iff.mpr hr)
      rw [List.take_left, List.drop_left] at hcons
      rw [Decoded.rows, Decoded.fields, hrecords, hcolumns, List.flatten_cons, hcons]
      rfl
  · rfl

end Csv

end SchemaEditor
