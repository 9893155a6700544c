import SchemaEditor.Sql.Token

/-!
# Errors in table definitions

An error has a cause and the span it was met at; its wording follows from the cause.
-/

namespace SchemaEditor

/-- What the grammar allows where something else was found. -/
inductive Expected where
  | kind (k : TokenKind)
  | keyword (k : Keyword)
  | word (w : String)
  | name
  | number
  | closing
  | defaultValue
  | tableConstraint
  | resolution
  | endOfStatement
deriving DecidableEq, Repr

def Expected.describe : Expected → String
  | kind k => k.describe
  | keyword k => k.word
  | word w => w
  | name => "name"
  | number => "number"
  | closing => ")"
  | defaultValue => "default value"
  | tableConstraint => "PRIMARY KEY, UNIQUE, CHECK or FOREIGN KEY"
  | resolution => "ROLLBACK, ABORT, FAIL, IGNORE or REPLACE"
  | endOfStatement => "end of statement"

inductive ParseFailure where
  | unexpected (expected : Expected) (found : TokenKind)
  | noColumns
  | unknownKeyColumn (name : String)
  | withoutRowidWithoutKey
deriving DecidableEq, Repr

structure ParseError where
  failure : ParseFailure
  span : Span
deriving DecidableEq, Repr

namespace ParseError

/-- What was expected, if the error is about a token. -/
def expected? (e : ParseError) : Option String :=
  match e.failure with
  | .unexpected expected _ => some expected.describe
  | _ => none

def found? (e : ParseError) : Option TokenKind :=
  match e.failure with
  | .unexpected _ found => some found
  | _ => none

/-- A token that is itself an error is reported by its own message. -/
def text (e : ParseError) : String :=
  match e.failure with
  | .unexpected expected .eof => "Unexpected end of input: expected " ++ expected.describe
  | .unexpected _ (.error lexical) => lexical.message
  | .unexpected expected found =>
    "Unexpected token: expected " ++ expected.describe ++ ", found " ++ found.describe
  | .noColumns => "CREATE TABLE ... AS SELECT has no column definitions"
  | .unknownKeyColumn name => "PRIMARY KEY references unknown column '" ++ name ++ "'"
  | .withoutRowidWithoutKey => "WITHOUT ROWID table has no PRIMARY KEY"

def message (e : ParseError) : String :=
  e.text ++ " at position " ++ toString e.span.start ++ ".." ++ toString e.span.stop

end ParseError

end SchemaEditor
