import SchemaEditor.Name
import SchemaEditor.Store.Document.Node

/-!
# Reading documents

Besides JSON, the reader takes comments, more blanks, labels without quotes, texts in single quotes, commas after the
last item, more ways to write numbers, and words for numbers that JSON does not have. It notes whether it met any of
these. A text that is no document is refused at a place.
-/

namespace SchemaEditor.Store.Document

/-- What is left of a text, and whether all before it was JSON. -/
structure Rest where
  cs : List Char
  isStrict : Bool := true

/-- Reads something, or tells at which rest it failed. -/
abbrev Reader (α : Type) := Rest → Except (List Char) (α × Rest)

/-! ## Blanks -/

def isPlainBlank (c : Char) : Bool := c == ' ' || c == '\t' || c == '\n' || c == '\r'

def isOtherBlank (c : Char) : Bool :=
  ['\x0b', '\x0c', '\u00a0', '\u1680', '\u2028', '\u2029', '\u202f', '\u205f', '\u3000', '\ufeff'].contains c
    || (decide ('\u2000' ≤ c) && decide (c ≤ '\u200a'))

/-- What follows the end of a comment between stars. -/
def afterComment : List Char → Option (List Char)
  | '*' :: '/' :: cs => some cs
  | _ :: cs => afterComment cs
  | [] => none

def afterLine : List Char → List Char
  | [] => []
  | c :: cs => if c = '\n' ∨ c = '\r' ∨ WrittenText.isLineSeparator c then cs else afterLine cs

/-- Skips blanks and comments. -/
def skipBlanks : Nat → Rest → Rest
  | 0, r => r
  | fuel + 1, r =>
    match r.cs with
    | '/' :: '*' :: cs =>
      match afterComment cs with
      | some cs => skipBlanks fuel ⟨cs, false⟩
      | none => r
    | '/' :: '/' :: cs => skipBlanks fuel ⟨afterLine cs, false⟩
    | c :: cs =>
      if isPlainBlank c then skipBlanks fuel { r with cs }
      else if isOtherBlank c then skipBlanks fuel ⟨cs, false⟩
      else r
    | [] => r

def Rest.skip (r : Rest) : Rest := skipBlanks r.cs.length r

/-! ## Texts -/

def areHex (n : Nat) (cs : List Char) : Bool := (cs.take n).length == n && (cs.take n).all isHexDigit

/-- Reads a text up to its delimiter. -/
def textBody (delimiter : Char) : TextForm → List Char → List Char → Except (List Char) (WrittenText × List Char)
  | _, taken, '\\' :: '\r' :: '\n' :: cs => textBody delimiter .extended ('\n' :: '\r' :: '\\' :: taken) cs
  | form, taken, '\\' :: e :: cs =>
    let isPlain := ['"', '\\', '/', 'b', 'f', 'n', 'r', 't'].contains e || (e == 'u' && areHex 4 cs)
    let isExtended := ['\'', '0', 'v', '\n', '\r'].contains e || WrittenText.isLineSeparator e || (e == 'x' && areHex 2 cs)
    if isPlain then textBody delimiter (if form = .plain then .escaped else form) (e :: '\\' :: taken) cs
    else if isExtended then textBody delimiter .extended (e :: '\\' :: taken) cs
    else .error (e :: cs)
  | form, taken, c :: cs =>
    if c = delimiter then .ok (⟨form, taken.reverse⟩, cs)
    else if c = '\x00' ∨ c = '\\' then .error (c :: cs)
    else if c.toNat < 0x20 ∨ c = '"' then textBody delimiter .extended (c :: taken) cs
    else textBody delimiter form (c :: taken) cs
  | _, _, [] => .error []

def readText (delimiter : Char) (r : Rest) (cs : List Char) : Except (List Char) (WrittenText × Rest) := do
  let (t, cs) ← textBody delimiter .plain [] cs
  return (t, ⟨cs, r.isStrict && delimiter == '"' && t.form != .extended⟩)

/-! ## Numbers -/

/-- Whether a text starts with a word, in small letters or capitals. -/
def startsWith (word : String) (cs : List Char) : Bool :=
  foldCase word == (foldCase (String.ofList (cs.take word.length)))

/-- The exponent of a number. -/
def exponent : List Char → Except (List Char) (List Char × List Char)
  | c :: cs =>
    if c = 'e' ∨ c = 'E' then
      let (sign, digits) := match cs with
        | '+' :: cs => (['+'], cs)
        | '-' :: cs => (['-'], cs)
        | cs => ([], cs)
      if (digits.takeWhile Char.isDigit).isEmpty then .error (if sign.isEmpty then c :: cs else cs)
      else .ok (c :: sign ++ digits.takeWhile Char.isDigit, digits.dropWhile Char.isDigit)
    else .ok ([], c :: cs)
  | [] => .ok ([], [])

/-- Reads digits with a point and an exponent. -/
def plainNumber (sign cs : List Char) (isStrict : Bool) : Except (List Char) (Document × Rest) := do
  let whole := cs.takeWhile Char.isDigit
  match cs.dropWhile Char.isDigit with
  | '.' :: rest =>
    let places := rest.takeWhile Char.isDigit
    let (power, rest) ← exponent (rest.dropWhile Char.isDigit)
    if whole.isEmpty && places.isEmpty then throw rest
    let literal := sign ++ whole ++ '.' :: places ++ power
    if whole.isEmpty || places.isEmpty then return (.looseDecimal literal, ⟨rest, false⟩)
    else return (.decimal literal, ⟨rest, isStrict⟩)
  | rest =>
    let (power, rest) ← exponent rest
    let literal := sign ++ whole ++ power
    return (if power.isEmpty then .integer literal else .decimal literal, ⟨rest, isStrict⟩)

/-- Reads the number after a sign. -/
def number (sign : List Char) (isStrict : Bool) (cs : List Char) : Except (List Char) (Document × Rest) :=
  match cs with
  | '0' :: x :: h :: rest =>
    if (x = 'x' ∨ x = 'X') ∧ isHexDigit h then
      let digits := (h :: rest).takeWhile isHexDigit
      .ok (.hexadecimal (sign ++ '0' :: x :: digits), ⟨(h :: rest).dropWhile isHexDigit, false⟩)
    else if x.isDigit then .error (x :: h :: rest)
    else plainNumber sign cs isStrict
  | ['0', d] => if d.isDigit then .error [d] else plainNumber sign cs isStrict
  | cs => plainNumber sign cs isStrict

/-- Reads a number with a sign. -/
def signedNumber (sign : Char) (r : Rest) (cs : List Char) : Except (List Char) (Document × Rest) :=
  let kept := if sign = '-' then ['-'] else []
  let isStrict := r.isStrict && sign == '-'
  let starts (p : Char → Bool) : Bool := cs.head?.any p
  if starts Char.isDigit || starts (· == '.') then number kept isStrict cs
  else if startsWith "inf" cs then
    .ok (.decimal (kept ++ "9e999".toList), ⟨cs.drop (if startsWith "infinity" cs then 8 else 3), false⟩)
  else .error r.cs

/-! ## Words -/

/-- The words that stand for values, and whether JSON has them. -/
def words : List (String × Bool × Document) :=
  [("true", true, .truth true), ("false", true, .truth false), ("null", true, .null),
    ("inf", false, .decimal "9e999".toList), ("infinity", false, .decimal "9e999".toList),
    ("nan", false, .null), ("qnan", false, .null), ("snan", false, .null)]

def word (r : Rest) : Except (List Char) (Document × Rest) :=
  let isHere (w : String × Bool × Document) : Bool :=
    let isWritten := if w.2.1 then w.1.toList.isPrefixOf r.cs else startsWith w.1 r.cs
    isWritten && !((r.cs.drop w.1.length).head?.any Char.isAlphanum)
  match words.find? isHere with
  | some (w, isJson, d) => .ok (d, ⟨r.cs.drop w.length, r.isStrict && isJson⟩)
  | none => .error r.cs

/-- Whether a label without quotes can start with a character. -/
def startsLabel (c : Char) : Bool := c.isAlpha || c == '_' || c == '$' || decide (0x80 ≤ c.toNat)

/-- Reads a label without quotes. -/
def bareLabel : TextForm → List Char → List Char → WrittenText × List Char
  | form, taken, '\\' :: 'u' :: cs =>
    if areHex 4 cs then bareLabel .escaped ('u' :: '\\' :: taken) cs
    else (⟨form, taken.reverse⟩, '\\' :: 'u' :: cs)
  | form, taken, c :: cs =>
    if startsLabel c && !isOtherBlank c || (c.isDigit && !taken.isEmpty) then bareLabel form (c :: taken) cs
    else (⟨form, taken.reverse⟩, c :: cs)
  | form, taken, [] => (⟨form, taken.reverse⟩, [])

/-- Reads a label without quotes where no value is. -/
def otherLabel (r : Rest) (place : List Char) : Except (List Char) (WrittenText × Rest) :=
  let isEscape := "\\u".toList.isPrefixOf r.cs && areHex 4 (r.cs.drop 2)
  if r.cs.head?.any startsLabel || isEscape then
    let (t, cs) := bareLabel .plain [] r.cs
    .ok (t, ⟨cs, false⟩)
  else .error place

/-! ## Documents -/

/-- How deep documents can be nested. -/
def maxDepth : Nat := 1000

mutual

def value : (fuel depth : Nat) → Reader Document
  | 0, _, r => .error r.cs
  | fuel + 1, depth, r =>
    let r := r.skip
    match r.cs with
    | '[' :: cs => do
      if maxDepth ≤ depth then throw r.cs
      let (items, r) ← items fuel (depth + 1) [] { r with cs }
      return (.array items, r)
    | '\x7b' :: cs => do
      if maxDepth ≤ depth then throw r.cs
      let (members, r) ← members fuel (depth + 1) [] { r with cs }
      return (.object members, r)
    | '"' :: cs => do
      let (t, r) ← readText '"' r cs
      return (.text t, r)
    | '\'' :: cs => do
      let (t, r) ← readText '\'' r cs
      return (.text t, r)
    | '-' :: cs => signedNumber '-' r cs
    | '+' :: cs => signedNumber '+' r cs
    | '.' :: c :: _ => if c.isDigit then number [] r.isStrict r.cs else .error r.cs
    | c :: _ => if c.isDigit then number [] r.isStrict r.cs else word r
    | [] => .error []

/-- The items of an array up to its end. -/
def items : (fuel depth : Nat) → List Document → Reader (List Document)
  | 0, _, _, r => .error r.cs
  | fuel + 1, depth, done, r => do
    let r := r.skip
    if let ']' :: cs := r.cs then return (done.reverse, ⟨cs, r.isStrict && done.isEmpty⟩)
    let (d, r) ← value fuel depth r
    let r := r.skip
    match r.cs with
    | ',' :: cs => items fuel depth (d :: done) { r with cs }
    | ']' :: cs => return ((d :: done).reverse, { r with cs })
    | cs => throw cs

/-- The members of an object up to its end. -/
def members : (fuel depth : Nat) → List (WrittenText × Document) → Reader (List (WrittenText × Document))
  | 0, _, _, r => .error r.cs
  | fuel + 1, depth, done, start => do
    let r := start.skip
    if let '\x7d' :: cs := r.cs then return (done.reverse, ⟨cs, r.isStrict && done.isEmpty⟩)
    let (label, r) ← match value fuel depth r with
      | .ok (.text t, r) => pure (t, r)
      | .ok _ => throw start.cs
      | .error place => otherLabel r place
    let r := r.skip
    let ':' :: cs := r.cs | throw r.cs
    let (d, r) ← value fuel depth { r with cs }
    let r := r.skip
    match r.cs with
    | ',' :: cs => members fuel depth ((label, d) :: done) { r with cs }
    | '\x7d' :: cs => return (((label, d) :: done).reverse, { r with cs })
    | cs => throw cs

end

/-- Reads a text, and tells whether it is JSON. -/
def read (s : String) : Except (List Char) (Document × Bool) := do
  let cs := s.toList.takeWhile (· != '\x00')
  let (d, r) ← value (2 * cs.length + 2) 0 ⟨cs, true⟩
  let r := r.skip
  if r.cs.isEmpty then return (d, r.isStrict) else throw cs

end SchemaEditor.Store.Document
