/-!
# Lines

A line ends at a line feed, which is not part of it, nor is one carriage return right before it. What
follows the last line feed is a line if it is not empty, and it keeps its carriage return. The definition
serves characters and bytes alike.
-/

namespace SchemaEditor.Text

variable {α : Type} [DecidableEq α]

/-- Drops one `cr` from a line that is held backwards. -/
def dropReturn (cr : α) : List α → List α
  | [] => []
  | c :: line => if c = cr then line else c :: line

/-- The lines of `line.reverse ++ cs`, where `line` holds no line feed. -/
def linesFrom (lf cr : α) (line : List α) : List α → List (List α)
  | [] => if line.isEmpty then [] else [line.reverse]
  | c :: cs =>
    if c = lf then (dropReturn cr line).reverse :: linesFrom lf cr [] cs
    else linesFrom lf cr (c :: line) cs

def linesBy (lf cr : α) (cs : List α) : List (List α) := linesFrom lf cr [] cs

def lines (cs : List Char) : List (List Char) := linesBy '\n' '\r' cs

theorem linesFrom_append_lf (lf cr : α) (line cs rest : List α) (h : lf ∉ cs) :
    linesFrom lf cr line (cs ++ lf :: rest) =
      (dropReturn cr (cs.reverse ++ line)).reverse :: linesFrom lf cr [] rest := by
  induction cs generalizing line with
  | nil => simp [linesFrom]
  | cons c cs ih =>
    simp only [List.mem_cons, not_or] at h
    simp [linesFrom, Ne.symm h.1, ih (c :: line) h.2]

end SchemaEditor.Text
