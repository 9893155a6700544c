import SchemaEditor.Store.Comparison
import SchemaEditor.Store.Failure

/-!
# Templates

A template is a text with directives that start with a percent sign. Each takes its values from a list, and writes
them in its own way into a field of some width. A template ends where a directive makes no sense.
-/

namespace SchemaEditor.Store

/-- What stands between the percent sign and the letter that says what is written. -/
structure Directive where
  left : Bool := false
  /-- What is written before a number that is not negative. -/
  plus : Option Char := none
  alternate : Bool := false
  /-- Whether lengths are counted in characters, and numbers keep a digit after the point. -/
  exact : Bool := false
  zeros : Bool := false
  grouped : Bool := false
  width : Nat := 0
  precision : Option Nat := none

namespace Directive

/-! ## Reading -/

/-- The directive with a mark, if the character is one. -/
def marked? (d : Directive) : Char → Option Directive
  | '-' => some { d with left := true }
  | '+' => some { d with plus := some '+' }
  | ' ' => some { d with plus := some ' ' }
  | '#' => some { d with alternate := true }
  | '!' => some { d with exact := true }
  | '0' => some { d with zeros := true }
  | ',' => some { d with grouped := true }
  | _ => none

def readMarks (d : Directive) : List Char → Directive × List Char
  | [] => (d, [])
  | c :: cs =>
    match d.marked? c with
    | some d => readMarks d cs
    | none => (d, c :: cs)

/-- The number that digits at the front spell, or the next value if a star stands there. -/
def readNumber (cs : List Char) (values : List Value) : Int × List Char × List Value :=
  match cs with
  | '*' :: rest => ((values.headD .null).toInteger, rest, values.tail)
  | cs => (Numeral.ofDigits (cs.takeWhile Char.isDigit), cs.dropWhile Char.isDigit, values)

/-- Reads a directive up to its letter. A width below zero moves what is written to the left. -/
def read (cs : List Char) (values : List Value) : Directive × List Char × List Value :=
  let (d, rest) := readMarks {} cs
  let (width, rest, values) := readNumber rest values
  let d := { d with left := d.left || decide (width < 0), width := width.natAbs }
  let (d, rest, values) := match rest with
    | '.' :: rest =>
      let (precision, rest, values) := readNumber rest values
      ({ d with precision := some precision.natAbs }, rest, values)
    | rest => (d, rest, values)
  let rest := if rest.head? = some 'l' then rest.tail else rest
  (d, if rest.head? = some 'l' then rest.tail else rest, values)

/-! ## Fields -/

/-- Puts what is written, which counts as this long, into the field. -/
def pad (d : Directive) (length : Nat) (cs : List Char) : List Char :=
  let blanks := List.replicate (d.width - length) ' '
  if d.left then cs ++ blanks else blanks ++ cs

def lengthOf (d : Directive) (cs : List Char) : Nat :=
  if d.exact then cs.length else cs.foldl (fun n c => n + c.utf8Size) 0

/-- The characters that fit into so many bytes; what is left of one that does not fit cannot be shown. -/
def cutBytes : Nat → List Char → List Char
  | _, [] => []
  | n, c :: cs => if c.utf8Size ≤ n then c :: cutBytes (n - c.utf8Size) cs else if n = 0 then [] else ['\uFFFD']

def cut (d : Directive) (cs : List Char) : List Char :=
  match d.precision with
  | none => cs
  | some n => if d.exact then cs.take n else cutBytes n cs

/-- A text ends at its first NUL here. -/
def textOf (v : Value) : List Char := v.shown.toList.takeWhile (· != '\x00')

def text (d : Directive) (v : Value) : List Char := let cs := d.cut (textOf v); d.pad (d.lengthOf cs) cs

/-- A text with its quotation marks doubled. -/
def quoted (d : Directive) (mark : Char) (whole : Bool) (v : Value) : List Char :=
  let shown := d.cut (if v = .null then (if whole then "NULL" else "(NULL)").toList else textOf v)
  let inner := shown.flatMap fun c => if c = mark then [c, c] else [c]
  let written := if whole && v != .null then mark :: inner ++ [mark] else inner
  d.pad (d.lengthOf written) written

/-- The first character of a text, as often as the precision says. -/
def character (d : Directive) (v : Value) : List Char :=
  let cs := List.replicate (max 1 (d.precision.getD 1)) ((textOf v).headD '\x00')
  d.pad cs.length cs

/-! ## Integers -/

/-- Puts commas between groups of three digits. -/
def group (digits : List Char) : List Char :=
  (digits.zipIdx.flatMap fun (c, i) =>
    if i ≠ 0 ∧ (digits.length - i) % 3 = 0 then [',', c] else [c])

def ordinalEnding (n : Nat) : List Char :=
  if n / 10 % 10 = 1 then ['t', 'h'] else match n % 10 with
    | 1 => ['s', 't']
    | 2 => ['n', 'd']
    | 3 => ['r', 'd']
    | _ => ['t', 'h']

/-- Writes the digits of an integer after its sign and an announcement of its base. -/
def integer (d : Directive) (sign : Option Char) (announcement digits : List Char) : List Char :=
  let least := d.precision.getD 0
  let least := if d.zeros then max least (d.width - sign.toList.length) else least
  let digits := List.replicate (least - digits.length) '0' ++ digits
  let cs := (if d.alternate then announcement else []) ++ sign.toList ++ if d.grouped then group digits else digits
  d.pad cs.length cs

def signed (d : Directive) (ending : Nat → List Char) (n : Int) : List Char :=
  d.integer (if n < 0 then some '-' else d.plus) [] ((toString n.natAbs).toList ++ ending n.natAbs)

def unsigned (d : Directive) (base : Nat) (capital : Bool) (announcement : String) (n : Int) : List Char :=
  let n := (n % 0x10000000000000000).toNat
  let digits := Nat.toDigits base n
  d.integer none (if n = 0 then [] else announcement.toList) (if capital then digits.map Char.toUpper else digits)

/-! ## Real numbers -/

inductive RealStyle where
  | plain
  | exponential
  /-- Whichever of the two is short. -/
  | general
deriving DecidableEq

/-- The digits of a number that is not negative, and where the point is among them. -/
structure Digits where
  digits : List Char
  point : Int

/-- The first digits of a fraction, as many as `count` says if the point is at that place, but at most `most`. Halves
are rounded up. -/
def Digits.ofFraction (num den most : Nat) (count : Int → Int) : Digits :=
  if num = 0 then ⟨['0'], 1⟩
  else
    let power := Decimal.leadingPower num den
    let n := min (count (power + 1)) most
    let (a, b) := Decimal.scaled num den (power + 1 - n)
    let rounded := if n < 0 then 0 else (2 * a + b) / (2 * b)
    let digits := (toString rounded).toList
    ⟨Decimal.trimZeros digits, if n < digits.length then power + 2 else power + 1⟩

/-- The digits from a place on, of which some are not written. -/
def Digits.slice (x : Digits) (start length : Nat) : List Char :=
  let cs := (x.digits.drop start).take length
  cs ++ List.replicate (length - cs.length) '0'

/-- The part of a number after the point. -/
def Digits.fraction (x : Digits) (point : Int) (precision : Nat) : List Char :=
  let zeros := min precision (-point).toNat
  List.replicate zeros '0' ++ x.slice point.toNat (precision - zeros)

/-- Removes zeros after a point, and the point if nothing is left behind it. -/
def trimFraction (d : Directive) (cs : List Char) : List Char :=
  let cs := Decimal.trimZeros cs
  if cs.getLast? = some '.' then (if d.exact then cs ++ ['0'] else cs.dropLast) else cs

def exponentPart (mark : Char) (exponent : Int) : List Char :=
  mark :: (if exponent < 0 then '-' else '+') :: (Decimal.twoDigits exponent.natAbs).toList

def layoutReal (d : Directive) (style : RealStyle) (mark : Char) (precision : Nat) (x : Digits) : List Char :=
  let exponent := x.point - 1
  let isExponential := style = .exponential ∨ (style = .general ∧ (exponent < -4 ∨ (precision : Int) - 1 < exponent))
  let precision :=
    if style ≠ .general then precision
    else if isExponential then precision - 1 else ((precision : Int) - 1 - exponent).toNat
  let trims := if style = .general then !d.alternate else d.exact
  let point : Int := if isExponential then 1 else x.point
  let whole := if point ≤ 0 then ['0'] else x.slice 0 point.toNat
  let whole := if d.grouped then group whole else whole
  let hasPoint := precision != 0 || d.alternate || d.exact
  let cs := if hasPoint then whole ++ '.' :: x.fraction point precision else whole
  (if trims && hasPoint then d.trimFraction cs else cs) ++ if isExponential then exponentPart mark exponent else []

def real (d : Directive) (style : RealStyle) (mark : Char) (x : Float) : List Char :=
  let precision := d.precision.getD 6
  let precision := if style = .general then max 1 precision else precision
  let count (point : Int) : Int :=
    match style with
    | .plain => point + precision
    | .exponential => precision + 1
    | .general => precision
  let negative := decide (x < 0)
  let sign := if negative then some '-' else d.plus
  if Decimal.isInfinite x && !d.zeros then
    let cs := sign.toList ++ "Inf".toList
    d.pad cs.length cs
  else
    let (num, den) := (Decimal.parts x).fraction
    let digits := if Decimal.isInfinite x then ⟨['9'], 1000⟩
      else Digits.ofFraction num den (if d.exact then 26 else 16) count
    let cs := d.layoutReal style mark precision digits
    let zeros := if d.zeros && !d.left then d.width - (cs.length + sign.toList.length) else 0
    let cs := sign.toList ++ List.replicate zeros '0' ++ cs
    d.pad cs.length cs

/-! ## Letters -/

def ungrouped (d : Directive) : Directive := { d with grouped := false }

/-- What a directive with this letter writes for a value, if the letter means anything. -/
def write? (d : Directive) (v : Value) : Char → Option (List Char)
  | 'd' | 'i' => some (d.signed (fun _ => []) v.toInteger)
  | 'r' => some (d.ungrouped.signed ordinalEnding v.toInteger)
  | 'u' => some (d.unsigned 10 false "" v.toInteger)
  | 'x' => some (d.ungrouped.unsigned 16 false "0x" v.toInteger)
  | 'p' => some (d.ungrouped.unsigned 16 true "0x" v.toInteger)
  | 'X' => some (d.ungrouped.unsigned 16 true "0X" v.toInteger)
  | 'o' => some (d.ungrouped.unsigned 8 false "0" v.toInteger)
  | 'f' => some (d.real .plain 'e' v.toFloat)
  | 'e' => some (d.real .exponential 'e' v.toFloat)
  | 'E' => some (d.real .exponential 'E' v.toFloat)
  | 'g' => some (d.real .general 'e' v.toFloat)
  | 'G' => some (d.real .general 'E' v.toFloat)
  | 's' | 'z' => some (d.text v)
  | 'c' => some (d.character v)
  | 'q' => some (d.quoted '\'' false v)
  | 'Q' => some (d.quoted '\'' true v)
  | 'w' => some (d.quoted '"' false v)
  | _ => none

end Directive

/-- Fills in a template that has at most so many characters. -/
def fillUpTo : Nat → List Char → List Value → List Char
  | 0, _, _ => []
  | fuel + 1, cs, values =>
    let plain := cs.takeWhile (· != '%')
    match cs.dropWhile (· != '%') with
    | [] => plain
    | [c] => plain ++ [c]
    | _ :: rest =>
      let (d, rest, values) := Directive.read rest values
      match rest with
      | [] => plain
      | '%' :: rest => plain ++ d.pad 1 ['%'] ++ fillUpTo fuel rest values
      | 'n' :: rest => plain ++ fillUpTo fuel rest values
      | c :: rest =>
        match d.write? (values.headD .null) c with
        | some cs => plain ++ cs ++ fillUpTo fuel rest values.tail
        | none => plain

/-- Fills values into a template. -/
def fill (template : List Char) (values : List Value) : List Char := fillUpTo (template.length + 1) template values

end SchemaEditor.Store
