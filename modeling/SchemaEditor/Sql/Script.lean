import SchemaEditor.Sql.Lexer

/-!
# Scripts

A script is a list of statements with semicolons between them. A semicolon separates only outside
literals, names and comments, and outside the BEGIN ... END body of a CREATE TRIGGER statement.
Statements come back trimmed, and the empty ones not at all.
-/

namespace SchemaEditor.Script

/-- Whether the first keywords of a statement make it a CREATE TRIGGER statement. -/
def isTrigger : List (Option Keyword) → Bool
  | some .create :: some .trigger :: _ => true
  | [some .create, some .temp, some .trigger] => true
  | [some .create, some .temporary, some .trigger] => true
  | _ => false

/-- The first three tokens of a statement decide what it is; a token that is no keyword counts too. -/
def extendLeading (leading : List (Option Keyword)) (t : Token) : List (Option Keyword) :=
  if leading.length < 3 then leading ++ [t.keyword?] else leading

/-- The number of open blocks after a token, if `depth` are open before it. -/
def blockDepth (leading : List (Option Keyword)) (depth : Nat) (t : Token) : Nat :=
  if isTrigger leading then
    match t.keyword? with
    | some .begin | some .case => depth + 1
    | some .end => depth - 1
    | _ => depth
  else depth

/-- The stretches of text between separating semicolons. `text` is what the current one has so far. -/
def stretches (leading : List (Option Keyword)) (depth : Nat) (text : List Char) : List Token → List (List Char)
  | [] => [text]
  | t :: ts =>
    if t.kind = .eof then [text ++ t.gap]
    else if t.kind = .semicolon ∧ depth = 0 then (text ++ t.gap) :: stretches [] 0 [] ts
    else
      let leading := extendLeading leading t
      stretches leading (blockDepth leading depth t) (text ++ t.gap ++ t.text) ts

def statements (sql : String) : List String :=
  (((stretches [] 0 [] (tokenize sql)).map Text.trim).filter (!·.isEmpty)).map String.ofList

end SchemaEditor.Script
