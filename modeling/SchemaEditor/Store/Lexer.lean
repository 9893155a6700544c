import SchemaEditor.Sql.Lexer

/-!
# The store's tokens

The store cuts a text into the same tokens as the rest of the library, with some differences. Only the five
ASCII blanks and byte order marks separate tokens, every character beyond ASCII can stand in a word, words are
all names (which of them are reserved depends on where they stand), underscores may divide the digits of a
number, a parameter is one token with its name or number, and a text ends at its first NUL.
-/

namespace SchemaEditor.Store

/-! ## Characters -/

def isByteOrderMark (c : Char) : Bool := c == '\uFEFF'

def isBlank (c : Char) : Bool := c == ' ' || c == '\t' || c == '\n' || c == '\x0C' || c == '\r'

def isWordStart (c : Char) : Bool := c.isAlpha || c == '_' || (decide (0x80 ≤ c.toNat) && !isByteOrderMark c)

def isWordChar (c : Char) : Bool := c.isAlpha || c == '_' || decide (0x80 ≤ c.toNat) || c.isDigit || c == '$'

/-! ## Gaps -/

/-- Splits off blanks and comments, and stops where neither continues. At the very end of a text no comment
opens between lines. -/
def splitGap : GapState → List Char → List Char × List Char
  | .blank, '-' :: '-' :: cs => let (gap, rest) := splitGap .line cs; ('-' :: '-' :: gap, rest)
  | .blank, '/' :: '*' :: c :: cs => let (gap, rest) := splitGap .block (c :: cs); ('/' :: '*' :: gap, rest)
  | .blank, c :: cs =>
    if isBlank c || isByteOrderMark c then let (gap, rest) := splitGap .blank cs; (c :: gap, rest) else ([], c :: cs)
  | .line, c :: cs =>
    let (gap, rest) := splitGap (if c = '\n' then .blank else .line) cs; (c :: gap, rest)
  | .block, '*' :: '/' :: cs => let (gap, rest) := splitGap .blank cs; ('*' :: '/' :: gap, rest)
  | .block, c :: cs => let (gap, rest) := splitGap .block cs; (c :: gap, rest)
  | _, [] => ([], [])

theorem length_splitGap (s : GapState) (cs : List Char) : (splitGap s cs).2.length ≤ cs.length := by
  fun_induction splitGap s cs <;> simp_all <;> omega

/-! ## Numbers -/

/-- Takes digits and underscores. -/
def digitRun (isDigit : Char → Bool) (cs : List Char) : List Char × List Char :=
  let continues (c : Char) : Bool := isDigit c || c == '_'
  (cs.takeWhile continues, cs.dropWhile continues)

/-- The part of a number from its exponent mark on, which digits have to follow. -/
def exponentRun (cs : List Char) : List Char × List Char :=
  match cs with
  | c :: rest =>
    let (sign, digits) := splitSign rest
    if (c = 'e' ∨ c = 'E') ∧ digits.head?.any Char.isDigit then
      let (run, rest) := digitRun Char.isDigit digits
      (c :: sign ++ run, rest)
    else ([], cs)
  | [] => ([], [])

/-- The part of a number from its point on. -/
def fractionRun : List Char → List Char × List Char
  | '.' :: cs => let (run, rest) := digitRun Char.isDigit cs; ('.' :: run, rest)
  | cs => ([], cs)

/-- What follows the first character of a decimal number, which is a digit or a point. -/
def decimalRun (c : Char) (cs : List Char) : List Char × List Char :=
  let (whole, rest) := digitRun Char.isDigit cs
  let (fraction, rest) := if c = '.' then ([], rest) else fractionRun rest
  let (exponent, rest) := exponentRun rest
  (whole ++ fraction ++ exponent, rest)

/-- What follows the first character of a number. -/
def numberRun (c : Char) (cs : List Char) : List Char × List Char :=
  match cs with
  | x :: d :: rest =>
    if c = '0' ∧ (x = 'x' ∨ x = 'X') ∧ isHexDigit d then
      let (run, rest) := digitRun isHexDigit (d :: rest)
      (x :: run, rest)
    else decimalRun c cs
  | _ => decimalRun c cs

/-- Whether each underscore stands between digits. -/
def isDivided (isDigit : Char → Bool) : List Char → Bool
  | a :: '_' :: b :: cs => isDigit a && isDigit b && isDivided isDigit (b :: cs)
  | [_, '_'] => false
  | _ :: cs => isDivided isDigit cs
  | [] => true

def isHexadecimal : List Char → Bool
  | '0' :: x :: _ => x == 'x' || x == 'X'
  | _ => false

/-- The number at the front of `c :: cs`. One that runs into a word, or is divided badly, is none. -/
def numberLexeme (c : Char) (cs : List Char) : Lexeme :=
  let (run, rest) := numberRun c cs
  let text := c :: run
  let isDigit := if isHexadecimal text then isHexDigit else Char.isDigit
  let excess := rest.takeWhile isWordChar
  if excess.isEmpty && isDivided isDigit text then ⟨.number, text, rest⟩
  else ⟨.error (.unexpected c), text ++ excess, rest.dropWhile isWordChar⟩

theorem length_digitRun (isDigit : Char → Bool) (cs : List Char) : (digitRun isDigit cs).2.length ≤ cs.length :=
  (List.dropWhile_sublist _).length_le

theorem length_exponentRun (cs : List Char) : (exponentRun cs).2.length ≤ cs.length := by
  unfold exponentRun
  split
  · next c rest =>
    have h := congrArg List.length (splitSign_append rest)
    have hr := length_digitRun Char.isDigit (splitSign rest).2
    simp only [List.length_append] at h
    dsimp only
    split <;> simp only [List.length_cons] <;> omega
  · simp

theorem length_fractionRun (cs : List Char) : (fractionRun cs).2.length ≤ cs.length := by
  unfold fractionRun
  split
  · next cs =>
    have h := length_digitRun Char.isDigit cs
    simp only [List.length_cons]
    omega
  · simp

theorem length_decimalRun (c : Char) (cs : List Char) : (decimalRun c cs).2.length ≤ cs.length := by
  unfold decimalRun
  dsimp only
  have h := length_digitRun Char.isDigit cs
  split
  · exact Nat.le_trans (length_exponentRun _) h
  · exact Nat.le_trans (length_exponentRun _) (Nat.le_trans (length_fractionRun _) h)

theorem length_numberRun (c : Char) (cs : List Char) : (numberRun c cs).2.length ≤ cs.length := by
  unfold numberRun
  split
  · next x d rest =>
    split
    · have h := length_digitRun isHexDigit (d :: rest)
      simp only [List.length_cons] at h ⊢
      omega
    · exact length_decimalRun _ _
  · exact length_decimalRun _ _

theorem length_numberLexeme (c : Char) (cs : List Char) : (numberLexeme c cs).rest.length ≤ cs.length := by
  have h := length_numberRun c cs
  simp only [numberLexeme]
  split
  all_goals split
  all_goals first
    | exact h
    | exact Nat.le_trans (List.dropWhile_sublist _).length_le h

/-! ## Parameters -/

/-- Blanks as they end a name in parentheses. -/
def isSpace (c : Char) : Bool := c == ' ' || ('\t' ≤ c && c ≤ '\r')

/-- The name of a parameter: what stands in it, what follows, and whether it is one. It may hold pairs of colons, and something
in parentheses at its end, whatever that is. -/
def parameterRun (isNamed : Bool) : List Char → List Char × List Char × Bool
  | ':' :: ':' :: cs => let (run, rest) := parameterRun isNamed cs; (':' :: ':' :: run, rest)
  | c :: cs =>
    if isWordChar c then let (run, rest) := parameterRun true cs; (c :: run, rest)
    else if c = '(' ∧ isNamed then
      let continues (c : Char) : Bool := !isSpace c && c != ')'
      match cs.dropWhile continues with
      | ')' :: rest => (c :: cs.takeWhile continues ++ [')'], rest, true)
      | rest => (c :: cs.takeWhile continues, rest, false)
    else ([], c :: cs, isNamed)
  | [] => ([], [], isNamed)

/-- The parameter that begins with the mark `c`. -/
def parameterLexeme (c : Char) (cs : List Char) : Lexeme :=
  if c = '?' then ⟨.question, c :: cs.takeWhile Char.isDigit, cs.dropWhile Char.isDigit⟩
  else
    let (run, rest, isNamed) := parameterRun false cs
    ⟨if isNamed then .dollar else .error (.unexpected c), c :: run, rest⟩

theorem length_parameterRun (isNamed : Bool) (cs : List Char) : (parameterRun isNamed cs).2.1.length ≤ cs.length := by
  fun_induction parameterRun isNamed cs with
  | case1 isNamed cs run rest hrun ih =>
    rw [hrun] at ih
    exact Nat.le_succ_of_le (Nat.le_succ_of_le ih)
  | case2 isNamed c cs _ hc run rest hrun ih =>
    rw [hrun] at ih
    exact Nat.le_succ_of_le ih
  | case3 isNamed c cs _ _ _ continues rest hrest =>
    have h := (List.dropWhile_sublist (l := cs) continues).length_le
    rw [hrest] at h
    exact Nat.le_succ_of_le (Nat.le_of_succ_le h)
  | case4 => exact Nat.le_succ_of_le (List.dropWhile_sublist _).length_le
  | case5 => exact Nat.le_refl _
  | case6 => exact Nat.le_refl _

theorem length_parameterLexeme (c : Char) (cs : List Char) : (parameterLexeme c cs).rest.length ≤ cs.length := by
  unfold parameterLexeme
  split
  · exact (List.dropWhile_sublist _).length_le
  · exact length_parameterRun false cs

/-! ## Tokens -/

def isParameterMark (c : Char) : Bool := ['?', '$', '@', ':', '#'].contains c

def wordLexeme (c : Char) (cs : List Char) : Lexeme :=
  let text := c :: cs.takeWhile isWordChar
  ⟨.identifier (String.ofList text), text, cs.dropWhile isWordChar⟩

/-- The token at the front of `c :: cs`. -/
def lexeme (c : Char) (cs : List Char) : Lexeme :=
  if isWordStart c ∧ ¬((c = 'x' ∨ c = 'X') ∧ cs.head? = some '\'') then wordLexeme c cs
  else if c.isDigit ∨ (c = '.' ∧ cs.head?.any Char.isDigit) then numberLexeme c cs
  else if isParameterMark c then parameterLexeme c cs
  else SchemaEditor.lexeme c cs

theorem length_lexeme (c : Char) (cs : List Char) : (lexeme c cs).rest.length ≤ cs.length := by
  unfold lexeme
  split
  · exact (List.dropWhile_sublist _).length_le
  split
  · exact length_numberLexeme c cs
  split
  · exact length_parameterLexeme c cs
  · exact SchemaEditor.length_lexeme c cs

def tokensFrom (pos : Nat) (cs : List Char) : List Token :=
  let gap := (splitGap .blank cs).1
  let start := pos + byteLength gap
  match _h : (splitGap .blank cs).2 with
  | [] => [⟨.eof, ⟨start, start⟩, gap, []⟩]
  | c :: rest =>
    let l := lexeme c rest
    let stop := start + byteLength l.text
    ⟨l.kind, ⟨start, stop⟩, gap, l.text⟩ :: tokensFrom stop l.rest
termination_by cs.length
decreasing_by
  have h₁ := length_splitGap .blank cs
  have h₂ := length_lexeme c rest
  rw [_h, List.length_cons] at h₁
  omega

def tokens (sql : String) : List Token := tokensFrom 0 (sql.toList.takeWhile (· != '\x00'))

/-! ## Words -/

/-- A word that is not quoted, in capitals. -/
def bareWord? (t : Token) : Option String :=
  match t.kind with
  | .identifier name => if t.text = name.toList then some name.toUpper else none
  | _ => none

/-- Words that cannot name anything unless they are quoted. -/
def reservedWords : List String := [
  "ADD", "ALL", "ALTER", "AND", "AS", "AUTOINCREMENT", "BETWEEN", "CASE", "CHECK", "COLLATE", "COMMIT",
  "CONSTRAINT", "CREATE", "DEFAULT", "DEFERRABLE", "DELETE", "DISTINCT", "DROP", "ELSE", "ESCAPE", "EXCEPT",
  "EXISTS", "FOREIGN", "FROM", "GROUP", "HAVING", "IN", "INDEX", "INSERT", "INTERSECT", "INTO", "IS", "ISNULL",
  "JOIN", "LIMIT", "NOT", "NOTHING", "NOTNULL", "NULL", "ON", "OR", "ORDER", "PRIMARY", "REFERENCES",
  "RETURNING", "SELECT", "SET", "TABLE", "THEN", "TO", "TRANSACTION", "UNION", "UNIQUE", "UPDATE", "USING",
  "VALUES", "WHEN", "WHERE"]

/-- Words of joins: they can name things, but neither be part of a type nor a label without AS. -/
def joinWords : List String := ["CROSS", "FULL", "INDEXED", "INNER", "LEFT", "NATURAL", "OUTER", "RIGHT"]

/-- Words that can name things, but mean something else in some places. -/
def otherWords : List String := [
  "ABORT", "ACTION", "AFTER", "ALWAYS", "ANALYZE", "ASC", "ATTACH", "BEFORE", "BEGIN", "BY", "CASCADE", "CAST", "COLUMN",
  "CONFLICT", "CURRENT", "CURRENT_DATE", "CURRENT_TIME", "CURRENT_TIMESTAMP", "DATABASE", "DEFERRED", "DESC",
  "DETACH", "DO", "EACH", "END", "EXCLUDE", "EXCLUSIVE", "EXPLAIN", "FAIL", "FILTER", "FIRST", "FOLLOWING", "FOR",
  "GENERATED", "GLOB", "GROUPS", "IF", "IGNORE", "IMMEDIATE", "INITIALLY", "INSTEAD", "KEY", "LAST", "LIKE",
  "MATCH", "MATERIALIZED", "NO", "NULLS", "OF", "OFFSET", "OTHERS", "OVER", "PARTITION", "PLAN", "PRAGMA",
  "PRECEDING", "QUERY", "RAISE", "RANGE", "RECURSIVE", "REGEXP", "REINDEX", "RELEASE", "RENAME", "REPLACE", "RESTRICT",
  "ROLLBACK", "ROW", "ROWS", "SAVEPOINT", "TEMP", "TEMPORARY", "TIES", "TRIGGER", "UNBOUNDED", "VACUUM", "VIEW",
  "VIRTUAL", "WINDOW", "WITH", "WITHIN", "WITHOUT"]

def isKeyword (name : String) : Bool := (reservedWords ++ joinWords ++ otherWords).contains name.toUpper

/-- The name that a token spells, if it can be one. A text in single quotes can. -/
def nameOf? (t : Token) : Option String :=
  match t.kind with
  | .identifier name => if (bareWord? t).any reservedWords.contains then none else some name
  | .string value => some value
  | _ => none

/-- The name that a token spells where words of joins are none. -/
def plainNameOf? (t : Token) : Option String :=
  if (bareWord? t).any joinWords.contains then none else nameOf? t

/-- Whether a name can stand for a text if there is no such column. -/
def isLooseName (t : Token) : Bool := t.text.head? == some '"'

end SchemaEditor.Store
