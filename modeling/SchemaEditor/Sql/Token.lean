import SchemaEditor.Sql.Keyword
import SchemaEditor.Sql.Span
import SchemaEditor.Text.Quoted

/-!
# Tokens

A token has a kind, its own text, and the gap before it: the blanks and comments between it and the
token before. The gaps and texts of all tokens of a statement make up the statement, so the source text
of several neighbouring tokens is `Token.source`.
-/

namespace SchemaEditor

/-- What is wrong with a piece of text that is no token. -/
inductive LexError where
  | unexpected (c : Char)
  | unterminatedName
  | unterminatedBracket
  | unterminatedString
  | unterminatedBlob
  | blobCharacter
  | oddBlob
deriving DecidableEq, Repr

def LexError.message : LexError → String
  | unexpected c => "Unexpected character: " ++ c.toString
  | unterminatedName => "Unterminated quoted identifier"
  | unterminatedBracket => "Unterminated bracket identifier"
  | unterminatedString => "Unterminated string literal"
  | unterminatedBlob => "Unterminated blob literal"
  | blobCharacter => "Invalid character in blob literal"
  | oddBlob => "Odd number of hex digits in blob literal"

inductive TokenKind where
  | number
  | string (value : String)
  | blob (bytes : List UInt8)
  | identifier (name : String)
  | keyword (k : Keyword)
  | plus | minus | star | slash | percent
  | eq | notEq | lt | ltEq | gt | gtEq
  | concat | bitAnd | bitOr | bitNot | leftShift | rightShift
  | leftParen | rightParen | comma | semicolon | dot | colon | question | atSign | dollar
  | eof
  | error (e : LexError)
deriving DecidableEq, Repr

namespace TokenKind

/-- How a message shows a kind of token. -/
def describe : TokenKind → String
  | number => "Number"
  | string value => "String(" ++ Text.quoted value ++ ")"
  | blob bytes => "Blob([" ++ ", ".intercalate (bytes.map fun b => toString b.toNat) ++ "])"
  | identifier name => "Identifier(" ++ Text.quoted name ++ ")"
  | keyword k => "Keyword(" ++ k.capitalised ++ ")"
  | plus => "Plus"
  | minus => "Minus"
  | star => "Star"
  | slash => "Slash"
  | percent => "Percent"
  | eq => "Eq"
  | notEq => "NotEq"
  | lt => "Lt"
  | ltEq => "LtEq"
  | gt => "Gt"
  | gtEq => "GtEq"
  | concat => "Concat"
  | bitAnd => "BitAnd"
  | bitOr => "BitOr"
  | bitNot => "BitNot"
  | leftShift => "LeftShift"
  | rightShift => "RightShift"
  | leftParen => "LeftParen"
  | rightParen => "RightParen"
  | comma => "Comma"
  | semicolon => "Semicolon"
  | dot => "Dot"
  | colon => "Colon"
  | question => "Question"
  | atSign => "At"
  | dollar => "Dollar"
  | eof => "Eof"
  | error e => "Error(" ++ Text.quoted e.message ++ ")"

def keyword? : TokenKind → Option Keyword
  | keyword k => some k
  | _ => none

/-- Literals, names and keywords: two of these in a row need a blank between them. -/
def isWordLike : TokenKind → Bool
  | number | string _ | blob _ | identifier _ | keyword _ => true
  | _ => false

/-- Whether the kind is a name without a fixed meaning that spells `word`, in any case. -/
def isWord (word : String) : TokenKind → Bool
  | identifier name => name.toList.map Char.toUpper == word.toList.map Char.toUpper
  | _ => false

/-- Whether the tokens end here, properly or not. -/
def isEnd : TokenKind → Bool
  | eof | error _ => true
  | _ => false

end TokenKind

structure Token where
  kind : TokenKind
  span : Span
  gap : List Char
  text : List Char
deriving DecidableEq, Repr

namespace Token

def keyword? (t : Token) : Option Keyword := t.kind.keyword?

def isWordLike (t : Token) : Bool := t.kind.isWordLike

/-- The source of neighbouring tokens, from the first character of the first to the last of the last. -/
def source : List Token → List Char
  | [] => []
  | t :: ts => t.text ++ ts.flatMap fun t => t.gap ++ t.text

/-- The end of a text of `size` bytes, as a token. -/
def atEnd (size : Nat) : Token := ⟨.eof, ⟨size, size⟩, [], []⟩

end Token

end SchemaEditor
