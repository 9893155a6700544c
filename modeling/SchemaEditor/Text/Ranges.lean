/-!
# Ranges of code points

A character class beyond ASCII is a list of closed ranges of code points. The classes themselves are
in the modules named for them; this one has the test for membership and its two laws.
-/

namespace SchemaEditor.Text

def inRanges (ranges : List (Nat × Nat)) (n : Nat) : Bool :=
  ranges.any fun r => decide (r.1 ≤ n) && decide (n ≤ r.2)

theorem inRanges_eq_true_iff {ranges : List (Nat × Nat)} {n : Nat} :
    inRanges ranges n = true ↔ ∃ r ∈ ranges, r.1 ≤ n ∧ n ≤ r.2 := by
  simp [inRanges]

/-- A number below every range is in none of them. -/
theorem inRanges_eq_false_of_lt {ranges : List (Nat × Nat)} {n : Nat}
    (h : ∀ r ∈ ranges, n < r.1) : inRanges ranges n = false := by
  cases hn : inRanges ranges n with
  | false => rfl
  | true =>
    obtain ⟨r, hr, hle, -⟩ := inRanges_eq_true_iff.mp hn
    exact absurd (h r hr) (Nat.not_lt.mpr hle)

end SchemaEditor.Text
