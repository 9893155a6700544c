import SchemaEditor.Store.Stored

/-!
# Editing statements

Definitions are changed in the text of their statements. All else in a text stays as it is written.
-/

namespace SchemaEditor.Store

/-! ## Columns of tables -/

/-- All of the text that tokens were cut from, the text before the first one included. -/
def wholeText (ts : List Token) : List Char := ts.flatMap fun t => t.gap ++ t.text

def depthAfter (depth : Nat) (t : Token) : Nat :=
  match t.kind with
  | .leftParen => depth + 1
  | .rightParen => depth - 1
  | _ => depth

/-- Whether the columns of a table end before a token, where `depth` parentheses are open. -/
def endsColumns (depth : Nat) (t : Token) (ts : List Token) : Bool :=
  let atClause := (ts.head?.bind bareWord?).any Reader.startsTableClause
  depth == 1 && (t.kind == .rightParen || (t.kind == .comma && atClause))

/-- Writes a text after the last column of a table. -/
def insertColumn (text : List Char) (depth : Nat) : List Token → List Char
  | [] => []
  | t :: ts =>
    if endsColumns depth t ts then t.gap ++ text ++ t.text ++ wholeText ts
    else t.gap ++ t.text ++ insertColumn text (depthAfter depth t) ts

/-- The tokens of a table from the end of its columns on, where `depth` parentheses are open. -/
def afterColumns (depth : Nat) : List Token → List Token
  | [] => []
  | t :: ts => if endsColumns depth t ts then t :: ts else afterColumns (depthAfter depth t) ts

/-- The text of a table without the column at `i`. What is between its name and that of the next column goes with it
or, if it is the last, what is between the comma before it and the end of the columns. -/
def removeColumn (sql : String) (columns : List ColumnDefinition) (i : Nat) : String :=
  let isBefore (column : Option ColumnDefinition) (t : Token) : Bool :=
    column.all fun c => c.place != some t.span.start
  let ts := tokens sql
  let rest := ts.dropWhile (isBefore columns[i]?)
  let head := wholeText (ts.takeWhile (isBefore columns[i]?)) ++ (rest.head?.map Token.gap).getD []
  match columns[i + 1]? with
  | some next => String.ofList (head ++ Token.source (rest.dropWhile (isBefore (some next))))
  | none => String.ofList (((head.reverse.dropWhile (· != ',')).drop 1).reverse ++ Token.source (afterColumns 1 rest))

/-! ## Names -/

/-- Writes the tokens at some places anew. `write` also sees the character that follows a token. -/
def rewritten (write : Token → Option Char → List Char) (places : List Nat) : List Token → List Char
  | [] => []
  | t :: ts =>
    let next := ts.head?.bind fun u => (u.gap ++ u.text).head?
    t.gap ++ (if places.contains t.span.start then write t next else t.text) ++ rewritten write places ts

/-- A text in quotes, with a blank after it if another quote follows. -/
def inQuotes (quote : Char) (text : String) (next : Option Char) : List Char :=
  (quoteWith quote text).toList ++ if next == some quote then [' '] else []

/-- A new name for a table, which is always written in quotes. -/
def writtenTableName (new : String) : Token → Option Char → List Char := fun _ next => inQuotes '"' new next

/-- A new name for a column, which is written in quotes if it is given in quotes or replaces a name in quotes. -/
def writtenColumnName (new : String) (quoted : Bool) : Token → Option Char → List Char := fun t next =>
  if !quoted && t.text.head?.any isWordChar then new.toList else inQuotes '"' new next

/-- A text in double quotes, written in single quotes. -/
def writtenText : Token → Option Char → List Char := fun t next =>
  inQuotes '\'' ((nameOf? t).getD (String.ofList t.text)) next

def edited (write : Token → Option Char → List Char) (places : List Nat) (sql : String) : String :=
  if places.isEmpty then sql else String.ofList (rewritten write places (tokens sql))

end SchemaEditor.Store
