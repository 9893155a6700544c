import Mathlib.Data.List.TakeWhile
import SchemaEditor.Proofs.Csv.RoundTrip
import SchemaEditor.Proofs.Text.Trim

/-!
# What fields keep

A field without carriage returns comes back as it was written, unless it was written without quotes and has spaces: it loses
these, though not all of its characters if it neither starts nor ends with one.
-/

namespace SchemaEditor

namespace Csv

variable {o : Options} {field : String}

theorem joinReturns_eq_self {cs : List Char} (h : '\r' ∉ cs) : joinReturns cs = cs := by
  induction cs using joinReturns.induct with
  | case1 => rfl
  | case2 cs => simp at h
  | case3 c cs hcrlf ih =>
    rw [joinReturns.eq_3 c cs hcrlf, ih fun hcs => h (List.mem_cons_of_mem c hcs)]

/-- A field without carriage returns loses its spaces, unless it was quoted. -/
theorem toList_readBack {q : Char} (hq : o.quote = some q) (hcr : '\r' ∉ field.toList) :
    (readBack o field).toList =
      if field.toList.any (isSpecial o) then field.toList else field.toList.filter fun c => c ≠ ' ' := by
  unfold readBack
  rw [hq]
  by_cases hspecial : field.toList.any (isSpecial o) = true
  · simp only [hspecial, if_true, String.toList_ofList, joinReturns_eq_self hcr]
  · simp only [hspecial, Bool.false_eq_true, if_false, String.toList_ofList]
    refine List.filter_congr fun c hc => ?_
    have hne : c ≠ '\r' := fun h => hcr (h ▸ hc)
    simp [hne]

theorem mem_of_mem_readBack {q : Char} (hq : o.quote = some q) (hcr : '\r' ∉ field.toList) {c : Char}
    (h : c ∈ (readBack o field).toList) : c ∈ field.toList := by
  rw [toList_readBack hq hcr] at h
  split at h
  · exact h
  · exact (List.mem_filter.mp h).1

theorem readBack_eq_self_iff {q : Char} (hq : o.quote = some q) (hcr : '\r' ∉ field.toList) :
    readBack o field = field ↔ (' ' ∈ field.toList → field.toList.any (isSpecial o) = true) := by
  rw [← String.toList_inj, toList_readBack hq hcr]
  by_cases hspecial : field.toList.any (isSpecial o) = true
  · simp [hspecial]
  · rw [if_neg hspecial, List.filter_eq_self]
    constructor
    · intro h hspace
      simpa using h ' ' hspace
    · intro h c hc
      have hne : c ≠ ' ' := fun hspace => hspecial (h (hspace ▸ hc))
      simpa using hne

/-- A name that has nothing to trim still has nothing to trim, and is not empty. -/
theorem trimmed_readBack {q : Char} (hq : o.quote = some q) (hcr : '\r' ∉ field.toList) (hne : field ≠ "")
    (htrimmed : Text.trimmed field = field) : Text.trimmed (readBack o field) = readBack o field ∧ readBack o field ≠ "" := by
  have htrim : Text.trim field.toList = field.toList := by
    rw [← String.toList_inj, Text.trimmed, String.toList_ofList] at htrimmed
    exact htrimmed
  suffices h : Text.trim (readBack o field).toList = (readBack o field).toList ∧ (readBack o field).toList ≠ [] by
    refine ⟨?_, fun hnil => h.2 (by rw [hnil]; rfl)⟩
    rw [Text.trimmed, h.1, String.ofList_toList]
  have hchars : field.toList ≠ [] := fun hnil => hne (String.toList_inj.mp hnil)
  rw [toList_readBack hq hcr]
  by_cases hspecial : field.toList.any (Csv.isSpecial o) = true
  · rw [if_pos hspecial]
    exact ⟨htrim, hchars⟩
  rw [if_neg hspecial]
  obtain ⟨hhead, hlast⟩ := Text.trim_eq_self.mp htrim
  have hkeeps {c : Char} (hc : Text.isBlank c = false) : c ≠ ' ' := by
    rintro rfl
    exact absurd hc (by decide)
  have hfirst : (field.toList.filter fun c => c ≠ ' ').head? = field.toList.head? := by
    obtain ⟨c, cs, hcs⟩ := List.exists_cons_of_ne_nil hchars
    have hc : c ≠ ' ' := hkeeps (hhead c (by rw [hcs]; rfl))
    rw [hcs]
    simp [hc]
  have hfinal : (field.toList.filter fun c => c ≠ ' ').getLast? = field.toList.getLast? := by
    obtain ⟨cs, c, hcs⟩ := List.eq_nil_or_concat field.toList |>.resolve_left hchars
    rw [List.concat_eq_append] at hcs
    have hc : c ≠ ' ' := hkeeps (hlast c (by simp [hcs]))
    rw [hcs]
    simp [List.filter_append, hc]
  refine ⟨Text.trim_eq_self.mpr ⟨?_, ?_⟩, fun hnil => ?_⟩
  · rw [hfirst]
    exact hhead
  · rw [hfinal]
    exact hlast
  · rw [hnil, List.head?_nil] at hfirst
    exact hchars (List.head?_eq_none_iff.mp hfirst.symm)

end Csv

end SchemaEditor
