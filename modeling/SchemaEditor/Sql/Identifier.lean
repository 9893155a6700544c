/-!
# Quoted identifiers

A name goes into a statement between backticks, or between double quotes for a savepoint, and the quote
inside it is written twice. So any text is a name, and none reaches beyond its quotes.
-/

namespace SchemaEditor

/-- `name` with each `q` doubled. -/
def doubled (q : Char) : List Char → List Char
  | [] => []
  | c :: cs => if c = q then q :: q :: doubled q cs else c :: doubled q cs

def quoteWith (q : Char) (name : String) : String :=
  String.ofList (q :: doubled q name.toList ++ [q])

def quoteIdentifier (name : String) : String := quoteWith '\x60' name

def quoteIdentifierList (names : List String) : String :=
  ",".intercalate (names.map quoteIdentifier)

theorem doubled_append (q : Char) (cs ds : List Char) : doubled q (cs ++ ds) = doubled q cs ++ doubled q ds := by
  induction cs with
  | nil => rfl
  | cons c cs ih => by_cases h : c = q <;> simp [doubled, h, ih]

theorem doubled_eq_self {q : Char} {cs : List Char} (h : q ∉ cs) : doubled q cs = cs := by
  induction cs with
  | nil => rfl
  | cons c cs ih =>
    simp only [List.mem_cons, not_or] at h
    simp [doubled, Ne.symm h.1, ih h.2]

end SchemaEditor
