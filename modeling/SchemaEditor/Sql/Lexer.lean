import SchemaEditor.Sql.Token
import SchemaEditor.Text.Blank
import SchemaEditor.Text.Letter

/-!
# From text to tokens

`tokenize` cuts a text into tokens. Each scanner takes the characters of one token from the front and
leaves the rest; that it loses none and takes at least one is `lexeme_append` and `lexeme_text_ne_nil`,
on which the end of the recursion rests too.
-/

namespace SchemaEditor

/-! ## Gaps -/

inductive GapState where
  | blank
  | line
  | block

/-- Splits off blanks and comments: from two hyphens to the end of the line, from slash and star to star
and slash. A comment that is left open reaches to the end of the text. -/
def splitGap : GapState → List Char → List Char × List Char
  | .blank, '-' :: '-' :: cs => let (gap, rest) := splitGap .line cs; ('-' :: '-' :: gap, rest)
  | .blank, '/' :: '*' :: cs => let (gap, rest) := splitGap .block cs; ('/' :: '*' :: gap, rest)
  | .blank, c :: cs =>
    if Text.isBlank c then let (gap, rest) := splitGap .blank cs; (c :: gap, rest) else ([], c :: cs)
  | .line, c :: cs =>
    let (gap, rest) := splitGap (if c = '\n' then .blank else .line) cs; (c :: gap, rest)
  | .block, '*' :: '/' :: cs => let (gap, rest) := splitGap .blank cs; ('*' :: '/' :: gap, rest)
  | .block, c :: cs => let (gap, rest) := splitGap .block cs; (c :: gap, rest)
  | _, [] => ([], [])

theorem splitGap_append (s : GapState) (cs : List Char) : (splitGap s cs).1 ++ (splitGap s cs).2 = cs := by
  fun_induction splitGap s cs <;> simp_all

theorem length_splitGap (s : GapState) (cs : List Char) : (splitGap s cs).2.length ≤ cs.length := by
  have h := congrArg List.length (splitGap_append s cs)
  simp only [List.length_append] at h
  omega

/-! ## Scanners -/

/-- A token taken from the front of a text. -/
structure Lexeme where
  kind : TokenKind
  text : List Char
  rest : List Char

/-- The inside of a quotation up to its closing quote: its value, in which a doubled quote counts once,
its text with the closing quote, and what follows. -/
structure Quotation where
  value : List Char
  text : List Char
  rest : List Char
  closed : Bool

def quotation (q : Char) : List Char → Quotation
  | [] => ⟨[], [], [], false⟩
  | [c] => if c = q then ⟨[], [c], [], true⟩ else ⟨[c], [c], [], false⟩
  | c :: d :: cs =>
    if c = q then
      if d = q then
        let r := quotation q cs
        ⟨q :: r.value, c :: d :: r.text, r.rest, r.closed⟩
      else ⟨[], [c], d :: cs, true⟩
    else
      let r := quotation q (d :: cs)
      ⟨c :: r.value, c :: r.text, r.rest, r.closed⟩

theorem quotation_append (q : Char) (cs : List Char) : (quotation q cs).text ++ (quotation q cs).rest = cs := by
  fun_induction quotation q cs <;> simp_all +zetaDelta

def stringLiteral (cs : List Char) : Lexeme :=
  let r := quotation '\'' cs
  ⟨if r.closed then .string (String.ofList r.value) else .error .unterminatedString, '\'' :: r.text, r.rest⟩

def quotedName (q : Char) (cs : List Char) : Lexeme :=
  let r := quotation q cs
  ⟨if r.closed then .identifier (String.ofList r.value) else .error .unterminatedName, q :: r.text, r.rest⟩

def bracketName (cs : List Char) : Lexeme :=
  let name := cs.takeWhile (· != ']')
  match cs.dropWhile (· != ']') with
  | [] => ⟨.error .unterminatedBracket, '[' :: name, []⟩
  | c :: rest => ⟨.identifier (String.ofList name), '[' :: name ++ [c], rest⟩

def isHexDigit (c : Char) : Bool :=
  c.isDigit || (decide ('a' ≤ c) && decide (c ≤ 'f')) || (decide ('A' ≤ c) && decide (c ≤ 'F'))

def hexValue (c : Char) : Nat :=
  if c.isDigit then c.toNat - '0'.toNat
  else if 'a' ≤ c then c.toNat - 'a'.toNat + 10
  else c.toNat - 'A'.toNat + 10

/-- The inside of a blob literal. Text that is no blob ends before the character that spoils it. -/
structure BlobBody where
  bytes : List UInt8
  text : List Char
  rest : List Char
  error? : Option LexError

def blobBody : List Char → BlobBody
  | [] => ⟨[], [], [], some .unterminatedBlob⟩
  | [c] =>
    if c = '\'' then ⟨[], [c], [], none⟩
    else if isHexDigit c then ⟨[], [c], [], some .unterminatedBlob⟩
    else ⟨[], [], [c], some .blobCharacter⟩
  | c :: d :: cs =>
    if c = '\'' then ⟨[], [c], d :: cs, none⟩
    else if isHexDigit c then
      if isHexDigit d then
        let r := blobBody cs
        ⟨UInt8.ofNat (hexValue c * 16 + hexValue d) :: r.bytes, c :: d :: r.text, r.rest, r.error?⟩
      else if d = '\'' then ⟨[], [c], d :: cs, some .oddBlob⟩
      else ⟨[], [c], d :: cs, some .blobCharacter⟩
    else ⟨[], [], c :: d :: cs, some .blobCharacter⟩

theorem blobBody_append (cs : List Char) : (blobBody cs).text ++ (blobBody cs).rest = cs := by
  fun_induction blobBody cs <;> simp_all +zetaDelta

def blobLiteral (x : Char) (cs : List Char) : Lexeme :=
  let r := blobBody cs
  ⟨match r.error? with | none => .blob r.bytes | some e => .error e, x :: '\'' :: r.text, r.rest⟩

/-- The part of a number from its point on. -/
def splitFraction : List Char → List Char × List Char
  | '.' :: cs => ('.' :: cs.takeWhile Char.isDigit, cs.dropWhile Char.isDigit)
  | cs => ([], cs)

def splitSign : List Char → List Char × List Char
  | c :: cs => if c = '+' ∨ c = '-' then ([c], cs) else ([], c :: cs)
  | [] => ([], [])

/-- The part of a number from its exponent mark on; digits after the mark are not required. -/
def splitExponent : List Char → List Char × List Char
  | c :: cs =>
    if c = 'e' ∨ c = 'E' then
      let (sign, cs) := splitSign cs
      (c :: sign ++ cs.takeWhile Char.isDigit, cs.dropWhile Char.isDigit)
    else ([], c :: cs)
  | [] => ([], [])

def splitDecimal (cs : List Char) : List Char × List Char :=
  let (fraction, rest) := splitFraction (cs.dropWhile Char.isDigit)
  let (exponent, rest) := splitExponent rest
  (cs.takeWhile Char.isDigit ++ fraction ++ exponent, rest)

def splitNumber : List Char → List Char × List Char
  | '0' :: x :: cs =>
    if x = 'x' ∨ x = 'X' then ('0' :: x :: cs.takeWhile isHexDigit, cs.dropWhile isHexDigit)
    else splitDecimal ('0' :: x :: cs)
  | cs => splitDecimal cs

theorem splitFraction_append (cs : List Char) : (splitFraction cs).1 ++ (splitFraction cs).2 = cs := by
  unfold splitFraction; split <;> simp

theorem splitSign_append (cs : List Char) : (splitSign cs).1 ++ (splitSign cs).2 = cs := by
  unfold splitSign; split <;> (try split) <;> simp

theorem splitExponent_append (cs : List Char) : (splitExponent cs).1 ++ (splitExponent cs).2 = cs := by
  unfold splitExponent
  split
  · split
    · simp [splitSign_append]
    · simp
  · simp

theorem splitDecimal_append (cs : List Char) : (splitDecimal cs).1 ++ (splitDecimal cs).2 = cs := by
  simp only [splitDecimal, List.append_assoc, splitExponent_append, splitFraction_append,
    List.takeWhile_append_dropWhile]

theorem splitNumber_append (cs : List Char) : (splitNumber cs).1 ++ (splitNumber cs).2 = cs := by
  unfold splitNumber
  split
  · split
    · simp
    · exact splitDecimal_append _
  · exact splitDecimal_append _

def numberLiteral (cs : List Char) : Lexeme :=
  let (text, rest) := splitNumber cs
  ⟨.number, text, rest⟩

def isWordChar (c : Char) : Bool := Text.isAlphanumeric c || c == '_' || c == '$'

def word (cs : List Char) : Lexeme :=
  let text := cs.takeWhile isWordChar
  ⟨match Keyword.ofWord? text with
    | some k => .keyword k
    | none => .identifier (String.ofList text),
    text, cs.dropWhile isWordChar⟩

/-- The operators of two characters. -/
def pairKind? : Char → Char → Option TokenKind
  | '=', '=' => some .eq
  | '<', '=' => some .ltEq
  | '<', '>' => some .notEq
  | '<', '<' => some .leftShift
  | '>', '=' => some .gtEq
  | '>', '>' => some .rightShift
  | '!', '=' => some .notEq
  | '|', '|' => some .concat
  | _, _ => none

/-- The operators and delimiters of one character. -/
def singleKind? : Char → Option TokenKind
  | '(' => some .leftParen
  | ')' => some .rightParen
  | ',' => some .comma
  | ';' => some .semicolon
  | '+' => some .plus
  | '-' => some .minus
  | '*' => some .star
  | '/' => some .slash
  | '%' => some .percent
  | '~' => some .bitNot
  | '?' => some .question
  | '@' => some .atSign
  | '$' => some .dollar
  | ':' => some .colon
  | '&' => some .bitAnd
  | '.' => some .dot
  | '=' => some .eq
  | '<' => some .lt
  | '>' => some .gt
  | '|' => some .bitOr
  | _ => none

def operator (c : Char) (cs : List Char) : Lexeme :=
  match cs.head?.bind (pairKind? c), cs with
  | some kind, d :: rest => ⟨kind, [c, d], rest⟩
  | _, cs => ⟨(singleKind? c).getD (.error (.unexpected c)), [c], cs⟩

/-- The token at the front of `c :: cs`, where `c` starts no gap. -/
def lexeme (c : Char) (cs : List Char) : Lexeme :=
  if c = '\'' then stringLiteral cs
  else if c = '"' ∨ c = '\x60' then quotedName c cs
  else if c = '[' then bracketName cs
  else if (c = 'x' ∨ c = 'X') ∧ cs.head? = some '\'' then blobLiteral c cs.tail
  else if c.isDigit ∨ (c = '.' ∧ (cs.head?.any Char.isDigit) = true) then numberLiteral (c :: cs)
  else if Text.isAlphabetic c ∨ c = '_' then word (c :: cs)
  else operator c cs

theorem lexeme_append (c : Char) (cs : List Char) : (lexeme c cs).text ++ (lexeme c cs).rest = c :: cs := by
  unfold lexeme
  split
  · next h => simp [stringLiteral, quotation_append, h]
  split
  · simp [quotedName, quotation_append]
  split
  · next h =>
    have hsplit := List.takeWhile_append_dropWhile (p := (· != ']')) (l := cs)
    unfold bracketName
    split
    · next hrest => rw [hrest] at hsplit; simp_all
    · next hrest => rw [hrest] at hsplit; simp_all
  split
  · next h =>
    obtain ⟨-, hq⟩ := h
    cases cs with
    | nil => simp at hq
    | cons d cs => simp at hq; simp [blobLiteral, blobBody_append, hq]
  split
  · exact splitNumber_append _
  split
  · exact List.takeWhile_append_dropWhile
  · unfold operator; split <;> simp_all

theorem lexeme_text_ne_nil (c : Char) (cs : List Char) : (lexeme c cs).text ≠ [] := by
  unfold lexeme
  split
  · simp [stringLiteral]
  split
  · simp [quotedName]
  split
  · unfold bracketName; split <;> simp
  split
  · simp [blobLiteral]
  split
  · next h =>
    intro hnil
    have happ := splitNumber_append (c :: cs)
    have hnil : (splitNumber (c :: cs)).1 = [] := hnil
    unfold splitNumber at hnil
    split at hnil
    · split at hnil
      · simp at hnil
      · simp [splitDecimal] at hnil
    · rcases h with h | ⟨rfl, h⟩
      · simp [splitDecimal, h] at hnil
      · simp [splitDecimal, splitFraction] at hnil
  split
  · next h =>
    have hw : isWordChar c = true := by
      rcases h with h | rfl
      · simp [isWordChar, Text.isAlphanumeric_of_isAlphabetic h]
      · simp [isWordChar]
    simp [word, hw]
  · unfold operator; split <;> simp

theorem length_lexeme (c : Char) (cs : List Char) : (lexeme c cs).rest.length ≤ cs.length := by
  have h := congrArg List.length (lexeme_append c cs)
  have hpos := List.length_pos_iff.mpr (lexeme_text_ne_nil c cs)
  simp only [List.length_append, List.length_cons] at h
  omega

/-! ## Tokens -/

/-- The tokens of a text that starts at byte `pos`, the end included. -/
def tokensFrom (pos : Nat) (cs : List Char) : List Token :=
  let gap := (splitGap .blank cs).1
  let start := pos + byteLength gap
  match _h : (splitGap .blank cs).2 with
  | [] => [⟨.eof, ⟨start, start⟩, gap, []⟩]
  | c :: rest =>
    let l := lexeme c rest
    let stop := start + byteLength l.text
    ⟨l.kind, ⟨start, stop⟩, gap, l.text⟩ :: tokensFrom stop l.rest
termination_by cs.length
decreasing_by
  have h₁ := length_splitGap .blank cs
  have h₂ := length_lexeme c rest
  rw [_h, List.length_cons] at h₁
  omega

def tokenize (s : String) : List Token := tokensFrom 0 s.toList

end SchemaEditor
