import SchemaEditor.Sql.Lexer
import SchemaEditor.Store.Affinity

/-!
# Documents

A document is a JSON text, taken apart. Numbers and texts are kept as they are written. They may be written in ways
that JSON does not have, and are put into JSON when the document is printed.
-/

namespace SchemaEditor.Store

/-- How a text is written. -/
inductive TextForm where
  /-- As it is, without anything that JSON would write in another way. -/
  | plain
  /-- With the escapes of JSON. -/
  | escaped
  /-- With more escapes, and with characters that JSON would escape. -/
  | extended
  /-- As it is, with whatever characters. -/
  | raw
deriving DecidableEq, Repr

namespace TextForm

/-- Whether the content is the text itself. -/
def isLiteral (f : TextForm) : Bool := f == plain || f == raw

end TextForm

/-- A text as it is written. -/
structure WrittenText where
  form : TextForm
  content : List Char
deriving DecidableEq, Repr

inductive Document where
  | null
  | truth (b : Bool)
  | integer (literal : List Char)
  /-- An integer in hexadecimal digits. -/
  | hexadecimal (literal : List Char)
  | decimal (literal : List Char)
  /-- A number whose point has digits on one side only. -/
  | looseDecimal (literal : List Char)
  | text (t : WrittenText)
  | array (items : List Document)
  | object (members : List (WrittenText × Document))
deriving Repr

instance : Inhabited Document := ⟨.null⟩

namespace WrittenText

/-! ## Escapes -/

def hexValueOf (digits : List Char) : Nat := digits.foldl (fun n c => n * 16 + hexValue c) 0

def isLineSeparator (c : Char) : Bool := c == '\u2028' || c == '\u2029'

/-- The characters of a code point. Half of a pair is three bytes that are no text. -/
def ofCode (n : Nat) : List Char :=
  if 0xD800 ≤ n ∧ n < 0xE000 then List.replicate 3 '\uFFFD' else [Char.ofNat n]

def escapedChar : Char → Option Char
  | 'b' => some '\x08'
  | 'f' => some '\x0c'
  | 'n' => some '\n'
  | 'r' => some '\r'
  | 't' => some '\t'
  | 'v' => some '\x0b'
  | '0' => some '\x00'
  | c => if ['"', '\'', '/', '\\'].contains c then some c else none

/-- The text that is meant. -/
def unescape : List Char → List Char
  | '\\' :: 'u' :: a :: b :: c :: d :: '\\' :: 'u' :: e :: f :: g :: h :: cs =>
    let high := hexValueOf [a, b, c, d]
    let low := hexValueOf [e, f, g, h]
    if 0xD800 ≤ high ∧ high < 0xDC00 ∧ 0xDC00 ≤ low ∧ low < 0xE000 then
      Char.ofNat (0x10000 + (high - 0xD800) * 0x400 + (low - 0xDC00)) :: unescape cs
    else ofCode high ++ unescape ('\\' :: 'u' :: e :: f :: g :: h :: cs)
  | '\\' :: 'u' :: a :: b :: c :: d :: cs => ofCode (hexValueOf [a, b, c, d]) ++ unescape cs
  | '\\' :: 'x' :: a :: b :: cs => ofCode (hexValueOf [a, b]) ++ unescape cs
  | '\\' :: '\r' :: '\n' :: cs => unescape cs
  | '\\' :: e :: cs => (escapedChar e).toList ++ unescape cs
  | c :: cs => c :: unescape cs
  | [] => []

def literal (t : WrittenText) : List Char := if t.form.isLiteral then t.content else unescape t.content

/-- Whether two texts mean the same. -/
def isSame (a b : WrittenText) : Bool := a.literal == b.literal

/-! ## Printing -/

def lowHex (n : Nat) : Char := "0123456789abcdef".toList.getD n '0'

def printControl (c : Char) : List Char :=
  match c with
  | '\x08' => ['\\', 'b']
  | '\x0c' => ['\\', 'f']
  | '\n' => ['\\', 'n']
  | '\r' => ['\\', 'r']
  | '\t' => ['\\', 't']
  | c => ['\\', 'u', '0', '0', lowHex (c.toNat / 16), lowHex (c.toNat % 16)]

def printRawChar (c : Char) : List Char :=
  if c = '"' ∨ c = '\\' then ['\\', c] else if c.toNat < 0x20 then printControl c else [c]

/-- A text with more escapes than JSON has, in those of JSON. -/
def printExtended : List Char → List Char
  | '\\' :: '\r' :: '\n' :: cs => printExtended cs
  | '\\' :: 'x' :: a :: b :: cs => '\\' :: 'u' :: '0' :: '0' :: a :: b :: printExtended cs
  | '\\' :: e :: cs =>
    let own := match e with
      | '\'' => ['\'']
      | 'v' => "\\u0009".toList
      | '0' => "\\u0000".toList
      | e => if e = '\n' ∨ e = '\r' ∨ isLineSeparator e then [] else ['\\', e]
    own ++ printExtended cs
  | c :: cs => printRawChar c ++ printExtended cs
  | [] => []

def print (t : WrittenText) : List Char :=
  let content := match t.form with
    | .plain | .escaped => t.content
    | .extended => printExtended t.content
    | .raw => t.content.flatMap printRawChar
  '"' :: content ++ ['"']

end WrittenText

namespace Document

def ofText (s : String) : Document := .text ⟨.raw, s.toList⟩

/-- The number that hexadecimal digits with a sign spell, if it has 64 bits. -/
def printHexadecimal (literal : List Char) : List Char :=
  let (negative, rest) := Numeral.sign literal
  let n := WrittenText.hexValueOf (rest.drop 2)
  let shown := if n < 0x10000000000000000 then toString n else "9.0e999"
  (if negative then ['-'] else []) ++ shown.toList

/-- Puts a zero on the side of a point that has no digits. -/
def printLoose : List Char → List Char
  | '-' :: cs => '-' :: start cs
  | cs => start cs
where
  start : List Char → List Char
    | '.' :: cs => '0' :: rest ('.' :: cs)
    | cs => rest cs
  rest : List Char → List Char
    | '.' :: c :: cs => if c.isDigit then '.' :: c :: rest cs else '.' :: '0' :: c :: rest cs
    | ['.'] => ['.', '0']
    | c :: cs => c :: rest cs
    | [] => []

mutual

/-- The document as a JSON text without blanks. -/
def print : Document → List Char
  | null => "null".toList
  | truth true => "true".toList
  | truth false => "false".toList
  | integer literal | decimal literal => literal
  | hexadecimal literal => printHexadecimal literal
  | looseDecimal literal => printLoose literal
  | text t => t.print
  | array items => '[' :: printItems items ++ [']']
  | object members => '\x7b' :: printMembers members ++ ['\x7d']

def printItems : List Document → List Char
  | [] => []
  | [d] => d.print
  | d :: ds => d.print ++ ',' :: printItems ds

def printMembers : List (WrittenText × Document) → List Char
  | [] => []
  | [(label, d)] => label.print ++ ':' :: d.print
  | (label, d) :: ms => label.print ++ ':' :: d.print ++ ',' :: printMembers ms

end

mutual

/-- The document as a JSON text with a line for each item, indented by its depth. -/
def printPretty (indent : List Char) (margin : List Char) : Document → List Char
  | array [] => ['[', ']']
  | array items =>
    '[' :: '\n' :: printPrettyItems indent (margin ++ indent) items ++ '\n' :: margin ++ [']']
  | object [] => ['\x7b', '\x7d']
  | object members =>
    '\x7b' :: '\n' :: printPrettyMembers indent (margin ++ indent) members ++ '\n' :: margin ++ ['\x7d']
  | null => print null
  | truth b => print (truth b)
  | integer literal => print (integer literal)
  | hexadecimal literal => print (hexadecimal literal)
  | decimal literal => print (decimal literal)
  | looseDecimal literal => print (looseDecimal literal)
  | text t => print (text t)

def printPrettyItems (indent margin : List Char) : List Document → List Char
  | [] => []
  | [d] => margin ++ d.printPretty indent margin
  | d :: ds => margin ++ d.printPretty indent margin ++ ',' :: '\n' :: printPrettyItems indent margin ds

def printPrettyMembers (indent margin : List Char) : List (WrittenText × Document) → List Char
  | [] => []
  | [(label, d)] => margin ++ label.print ++ ':' :: ' ' :: d.printPretty indent margin
  | (label, d) :: ms =>
    margin ++ label.print ++ ':' :: ' ' :: d.printPretty indent margin ++ ',' :: '\n' :: printPrettyMembers indent margin ms

end

def shown (d : Document) : String := String.ofList d.print

/-! ## Values -/

def typeName : Document → String
  | null => "null"
  | truth true => "true"
  | truth false => "false"
  | integer _ | hexadecimal _ => "integer"
  | decimal _ | looseDecimal _ => "real"
  | text _ => "text"
  | array _ => "array"
  | object _ => "object"

def isContainer : Document → Bool
  | array _ | object _ => true
  | _ => false

def ofReal (literal : List Char) : Value := .real (((Numeral.scan literal).map fun (n, _) => n.toFloat).getD 0)

/-- The value that hexadecimal digits spell, if they are 64 bits. -/
def hexadecimalValue? (literal : List Char) : Option Value :=
  let (negative, rest) := Numeral.sign literal
  let n := WrittenText.hexValueOf (rest.drop 2)
  if 0x10000000000000000 ≤ n then none
  else
    let v := ofBits n
    some (.integer (if negative then ofBits ((-v) % 0x10000000000000000).toNat else v))

/-- The value that a document stands for. Arrays and objects stand for their text. -/
def value? : Document → Option Value
  | null => some .null
  | truth b => some (.ofTruth (some b))
  | integer literal =>
    let (negative, rest) := Numeral.sign literal
    let n : Int := if negative then -Numeral.ofDigits rest else Numeral.ofDigits rest
    some (if isInteger64 n then .integer n else ofReal literal)
  | hexadecimal literal => hexadecimalValue? literal
  | decimal literal | looseDecimal literal => some (ofReal literal)
  | text t => some (.text (String.ofList t.literal))
  | d => some (.text d.shown)

end Document

end SchemaEditor.Store
