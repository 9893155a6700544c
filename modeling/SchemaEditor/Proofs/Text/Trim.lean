import Mathlib.Data.List.TakeWhile
import SchemaEditor.Text.Blank

/-!
# What trimming leaves

A text is trimmed of blanks at both ends and of nothing else, and there is nothing left to trim.
-/

namespace SchemaEditor.Text

theorem dropWhile_eq_self {p : Char → Bool} {cs : List Char} : cs.dropWhile p = cs ↔ ∀ c, cs.head? = some c → p c = false := by
  rw [List.dropWhile_eq_self_iff]
  cases cs with
  | nil => simp
  | cons c cs => simp

/-- Nothing is trimmed from a text that neither starts nor ends with a blank. -/
theorem trim_eq_self {cs : List Char} : trim cs = cs ↔
    (∀ c, cs.head? = some c → isBlank c = false) ∧ ∀ c, cs.getLast? = some c → isBlank c = false := by
  have hend (cs : List Char) : trimEnd cs = cs ↔ ∀ c, cs.getLast? = some c → isBlank c = false := by
    rw [trimEnd, List.reverse_eq_iff, dropWhile_eq_self, List.head?_reverse]
  constructor
  · intro h
    have hlength : (trimEnd (trimStart cs)).length ≤ (trimStart cs).length := by
      simpa [trimEnd] using (List.dropWhile_suffix (l := (trimStart cs).reverse) isBlank).length_le
    have hstart : trimStart cs = cs := (List.dropWhile_suffix isBlank).eq_of_length_le (by
      have heq : (trimEnd (trimStart cs)).length = cs.length := congrArg List.length h
      exact heq ▸ hlength)
    refine ⟨dropWhile_eq_self.mp hstart, (hend cs).mp ?_⟩
    rw [trim, hstart] at h
    exact h
  · rintro ⟨hhead, hlast⟩
    rw [trim, show trimStart cs = cs from dropWhile_eq_self.mpr hhead]
    exact (hend cs).mpr hlast

/-- What is trimmed are blanks around what is left. -/
theorem exists_trim (cs : List Char) :
    ∃ l r, cs = l ++ (trim cs ++ r) ∧ (∀ c ∈ l, isBlank c = true) ∧ ∀ c ∈ r, isBlank c = true := by
  refine ⟨cs.takeWhile isBlank, ((trimStart cs).reverse.takeWhile isBlank).reverse, ?_, ?_, ?_⟩
  · rw [trim, trimEnd, ← List.reverse_append, List.takeWhile_append_dropWhile, List.reverse_reverse, trimStart,
      List.takeWhile_append_dropWhile]
  · intro c hc
    exact List.mem_takeWhile_imp hc
  · intro c hc
    exact List.mem_takeWhile_imp (List.mem_reverse.mp hc)

theorem trim_trim (cs : List Char) : trim (trim cs) = trim cs := by
  rw [trim_eq_self]
  have hprefix : trimEnd (trimStart cs) <+: trimStart cs := by
    rw [trimEnd, ← List.reverse_suffix, List.reverse_reverse]
    exact List.dropWhile_suffix isBlank
  constructor
  · intro c hc
    obtain ⟨r, hr⟩ := hprefix
    have hhead : (trimStart cs).head? = some c := by
      rw [← hr, List.head?_append]
      show (trim cs).head?.or _ = _
      rw [hc]
      rfl
    have hnot := List.head?_dropWhile_not isBlank cs
    rw [show cs.dropWhile isBlank = trimStart cs from rfl, hhead] at hnot
    simpa using hnot
  · intro c hc
    have hlast : ((trimStart cs).reverse.dropWhile isBlank).head? = some c := by
      rw [← List.getLast?_reverse]
      exact hc
    have hnot := List.head?_dropWhile_not isBlank (trimStart cs).reverse
    rw [hlast] at hnot
    simpa using hnot

end SchemaEditor.Text
