import SchemaEditor.Proofs.Sql.Returns
import SchemaEditor.Proofs.Table.Layout

/-!
# Definitions without carriage returns

A table is read from its stored SQL without carriage returns. That is the table of the statement, but for the layout of
its types, if the tokens of the statement are the same without them. They are where each carriage return belongs to a line
end between two tokens; one inside a quoted name or a string is lost with its meaning, and without one that parts two words
these are one.
-/

namespace SchemaEditor.Table

variable {s : String} {t : Table}

theorem tokens_withoutReturns_iff (s : String) :
    (tokenize (withoutReturns s)).map Token.form = (tokenize s).map (Token.form ∘ Token.slim) ↔ Apart (tokenize s) := by
  rw [tokenize_withoutReturns]
  exact map_form_dropReturns_iff s.toList 0 0

theorem map_bare_withoutReturns (h : Apart (tokenize s)) :
    (tokenize s).map Token.bare = (tokenize (withoutReturns s)).map Token.bare := by
  have hforms := (tokens_withoutReturns_iff s).mpr h
  rw [← List.map_map] at hforms
  rw [map_bare_of_map_form hforms, List.map_map]
  rfl

/-- Without carriage returns a statement keeps its tokens if and only if every token stands before the next one as it is, and
then it is read as the same table but for the layout of types. -/
theorem parse_withoutReturns (h : parse s = .ok t) :
    ((tokenize (withoutReturns s)).map Token.form = (tokenize s).map (Token.form ∘ Token.slim) ↔ Apart (tokenize s)) ∧
      (Apart (tokenize s) → ∃ t', parse (withoutReturns s) = .ok t' ∧ t.SameLayout t') :=
  ⟨tokens_withoutReturns_iff s, fun hapart => exists_parse_of_tokens (map_bare_withoutReturns hapart) h⟩

/-- A carriage return in a string is lost, and with it the default value of the column. -/
theorem parse_withoutReturns_string :
    parse "CREATE TABLE t (a DEFAULT 'x\ry')" = .ok { name := "t", fields := [{ name := "a", defaultValue := "'x\ry'" }] } ∧
      (tokenize (withoutReturns "CREATE TABLE t (a DEFAULT 'x\ry')")).map Token.form ≠
        (tokenize "CREATE TABLE t (a DEFAULT 'x\ry')").map (Token.form ∘ Token.slim) ∧
      parse (withoutReturns "CREATE TABLE t (a DEFAULT 'x\ry')") =
        .ok { name := "t", fields := [{ name := "a", defaultValue := "'xy'" }] } := by
  have hparse : parse "CREATE TABLE t (a DEFAULT 'x\ry')" =
      .ok { name := "t", fields := [{ name := "a", defaultValue := "'x\ry'" }] } := by decide +kernel
  have hapart : ¬Apart (tokenize "CREATE TABLE t (a DEFAULT 'x\ry')") := by decide +kernel
  exact ⟨hparse, mt (parse_withoutReturns hparse).1.mp hapart, by decide +kernel⟩

/-- Carriage returns of line ends between tokens leave the table as it is, but for the layout of types. -/
theorem parse_withoutReturns_of_lineEnds (hlines : returnsEndLines s.toList = true)
    (htokens : ∀ u ∈ tokenize s, '\r' ∉ u.text) (herrors : ∀ u ∈ tokenize s, ∀ e, u.kind ≠ .error e) (h : parse s = .ok t) :
    ∃ t', parse (withoutReturns s) = .ok t' ∧ t.SameLayout t' :=
  exists_parse_of_tokens (map_bare_withoutReturns (apart_of_returnsEndLines hlines htokens herrors)) h

end SchemaEditor.Table
