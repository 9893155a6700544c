import SchemaEditor.Sql.Lexer
import SchemaEditor.Store.Comparison
import SchemaEditor.Store.Failure
import SchemaEditor.Store.Pattern
import SchemaEditor.Store.Time

/-!
# Functions

The functions that expressions can call: which there are, with how many arguments, and what they give. Those of
documents are only named here.
-/

namespace SchemaEditor.Store

/-! ## Signatures -/

structure Signature where
  name : String
  least : Nat
  /-- The largest number of arguments, if there is one. -/
  most : Option Nat
  /-- Whether equal arguments always give the same. -/
  isSteady : Bool := true

namespace Signature

def accepts (s : Signature) (arguments : Nat) : Bool :=
  decide (s.least ≤ arguments) && s.most.all fun most => decide (arguments ≤ most)

def exactly (n : Nat) (names : List String) : List Signature := names.map fun name => ⟨name, n, some n, true⟩

def atLeast (n : Nat) (names : List String) : List Signature := names.map fun name => ⟨name, n, none, true⟩

def between (least most : Nat) (names : List String) : List Signature :=
  names.map fun name => ⟨name, least, some most, true⟩

def unsteady (s : Signature) : Signature := { s with isSteady := false }

/-- The functions of single values. -/
def scalars : List Signature :=
  exactly 1 ["abs", "hex", "length", "likely", "lower", "octet_length", "quote", "sign", "soundex", "typeof", "unicode",
      "unlikely", "upper", "zeroblob", "json", "jsonb", "json_error_position", "json_quote", "subtype"]
    ++ exactly 2 ["glob", "ifnull", "instr", "likelihood", "nullif", "timediff", "json_patch", "jsonb_patch"]
    ++ exactly 3 ["iif", "replace"]
    ++ between 1 2 ["ltrim", "round", "rtrim", "trim", "unhex", "json_array_length", "json_pretty", "json_type", "json_valid"]
    ++ between 2 3 ["like", "substr", "substring"]
    ++ atLeast 0 ["char", "format", "printf", "date", "time", "datetime", "julianday", "strftime", "unixepoch",
      "json_array", "json_extract", "json_insert", "json_object", "json_remove", "json_replace", "json_set",
      "jsonb_array", "jsonb_extract", "jsonb_insert", "jsonb_object", "jsonb_remove", "jsonb_replace", "jsonb_set"]
    ++ atLeast 1 ["concat"]
    ++ atLeast 2 ["coalesce", "concat_ws", "max", "min"]
    ++ (exactly 0 ["changes", "current_date", "current_time", "current_timestamp", "last_insert_rowid", "random",
      "sqlite_source_id", "sqlite_version", "total_changes"]).map unsteady
    ++ (exactly 1 ["randomblob", "sqlite_compileoption_get", "sqlite_compileoption_used"]).map unsteady

/-- The functions of groups of rows. -/
def aggregates : List Signature :=
  exactly 1 ["avg", "max", "min", "sum", "total", "json_group_array", "jsonb_group_array"]
    ++ exactly 2 ["json_group_object", "jsonb_group_object", "string_agg"]
    ++ between 0 1 ["count"]
    ++ between 1 2 ["group_concat"]

/-- The functions that make sense only in a window of rows. -/
def windows : List Signature :=
  exactly 0 ["cume_dist", "dense_rank", "percent_rank", "rank", "row_number"]
    ++ exactly 1 ["first_value", "last_value", "ntile"]
    ++ exactly 2 ["nth_value"]
    ++ between 1 3 ["lag", "lead"]

def find? (signatures : List Signature) (name : String) (arguments : Nat) : Option Signature :=
  signatures.find? fun s => sameName s.name name && s.accepts arguments

def isKnown (name : String) : Bool := (scalars ++ aggregates ++ windows).any fun s => sameName s.name name

end Signature

/-! ## Texts -/

namespace Function

/-- A part of a sequence. The first place is one, places below zero count from the end, and a length below zero
reaches backwards. -/
def part {α : Type} (cs : List α) (start : Int) (length : Option Int) : List α :=
  let size : Int := cs.length
  let (from_, count) : Int × Option Int :=
    if start < 0 then
      if size + start < 0 then (0, length.map fun n => if 0 ≤ n then max 0 (n + (size + start)) else n)
      else (size + start, length)
    else if 0 < start then (start - 1, length)
    else (0, length.map fun n => if 0 < n then n - 1 else n)
  match count with
  | none => cs.drop from_.toNat
  | some n =>
    if 0 ≤ n then (cs.drop from_.toNat).take n.toNat
    else
      let first := from_ + n
      if first < 0 then cs.take from_.toNat else (cs.drop first.toNat).take n.natAbs

/-- Where a sequence first occurs in another, counted from one; zero if it does not. -/
def indexIn {α : Type} [BEq α] (pattern : List α) : Nat → List α → Nat
  | n, [] => if pattern.isEmpty then n else 0
  | n, c :: cs => if pattern.isPrefixOf (c :: cs) then n else indexIn pattern (n + 1) cs

/-- Replaces each occurrence of a text that is not empty. `skipped` characters still belong to the last one. -/
def replaceAll (pattern replacement : List Char) : Nat → List Char → List Char
  | _, [] => []
  | skipped + 1, _ :: cs => replaceAll pattern replacement skipped cs
  | 0, c :: cs =>
    if pattern.isPrefixOf (c :: cs) then replacement ++ replaceAll pattern replacement (pattern.length - 1) cs
    else c :: replaceAll pattern replacement 0 cs

def trimStart (set cs : List Char) : List Char := cs.dropWhile set.contains

def trimEnd (set cs : List Char) : List Char := (cs.reverse.dropWhile set.contains).reverse

def hexDigit (n : Nat) : Char := "0123456789ABCDEF".toList.getD n '0'

def hex (bytes : List UInt8) : String :=
  String.ofList (bytes.flatMap fun b => [hexDigit (b.toNat / 16), hexDigit (b.toNat % 16)])

/-- The bytes that hexadecimal digits spell; some characters may stand between the pairs. -/
def unhex? (ignored : List Char) : List Char → Option (List UInt8)
  | [] => some []
  | [c] => if ignored.contains c then some [] else none
  | c :: d :: cs =>
    if isHexDigit c && isHexDigit d then
      (unhex? ignored cs).map (UInt8.ofNat (hexValue c * 16 + hexValue d) :: ·)
    else if ignored.contains c then unhex? ignored (d :: cs)
    else none

/-- A value as it is written in a statement. -/
def quote : Value → String
  | .null => "NULL"
  | .text s => "'" ++ String.ofList (s.toList.flatMap fun c => if c = '\'' then [c, c] else [c]) ++ "'"
  | .blob bytes => "X'" ++ hex bytes ++ "'"
  | v => v.shown

def typeName : Value → String
  | .null => "null"
  | .integer _ => "integer"
  | .real _ => "real"
  | .text _ => "text"
  | .blob _ => "blob"

def soundexCode (c : Char) : Nat :=
  let groups := ["BFPV", "CGJKQSXZ", "DT", "L", "MN", "R"]
  ((groups.findIdx? fun g => g.toList.contains c.toUpper).map (· + 1)).getD 0

/-- The digits of a text for its sound; letters of one group in a row count once. -/
def soundexDigits : Nat → List Char → List Char
  | _, [] => []
  | last, c :: cs =>
    let code := soundexCode c
    if code = 0 then soundexDigits (if c.isAlpha then 0 else last) cs
    else if code = last then soundexDigits last cs
    else hexDigit code :: soundexDigits code cs

def soundex (s : String) : String :=
  match s.toList.dropWhile (!·.isAlpha) with
  | [] => "?000"
  | c :: cs => String.ofList ((c.toUpper :: soundexDigits (soundexCode c) cs ++ ['0', '0', '0']).take 4)

/-- A number rounded to some decimal places, halves away from zero. -/
def round (x : Float) (places : Nat) : Float :=
  let p := Decimal.parts x
  let (num, den) := p.fraction
  let n := (2 * num * Nat.pow 10 places + den) / (2 * den)
  let y := Float.ofScientific n true places
  if p.negative then -y else y

/-! ## Application -/

/-- The greatest or least of some values, in the order `isBetter`. -/
def best (isBetter : Value → Value → Bool) : List Value → Value
  | [] => .null
  | v :: vs => vs.foldl (fun best v => if isBetter v best then v else best) v

def like (pattern subject : Value) (escape : Option Char) : Value :=
  .ofTruth (some (Pattern.like escape pattern.shown.toList subject.shown.toList))

def abs : Value → Except Failure Value
  | .null => .ok .null
  | .integer n => if n = minInteger then .error .integerOverflow else .ok (.integer n.natAbs)
  | v => .ok (.real v.toFloat.abs)

def length : Value → Value
  | .null => .null
  | .blob bytes => .integer bytes.length
  | v => .integer (v.shown.toList.takeWhile (· != '\x00')).length

def substring (v start : Value) (length : Option Value) : Value :=
  let size := length.map Value.toInteger
  match v with
  | .blob bytes => .blob (part bytes start.toInteger size)
  | v => .text (String.ofList (part v.shown.toList start.toInteger size))

def position : Value → Value → Value
  | .blob a, .blob b => .integer (indexIn b 1 a)
  | a, b => .integer (indexIn b.shown.toList 1 a.shown.toList)

/-- The character of a code point. -/
def character (v : Value) : Char :=
  let n := v.toInteger
  if 0 ≤ n ∧ n.toNat.isValidChar then Char.ofNat n.toNat else '\uFFFD'

def sign (v : Value) : Value :=
  let number := match v with
    | .integer _ | .real _ => some v
    | .text s => spelledNumber? s
    | _ => none
  match number with
  | some n =>
    match compareValues .binary n (.integer 0) with
    | .lt => .integer (-1)
    | .eq => .integer 0
    | .gt => .integer 1
  | none => .null

def rounded (v : Value) (places : Int) : Value := .real (round v.toFloat (min 30 places.toNat))

def mapText (f : String → String) : Value → Value
  | .null => .null
  | v => .text (f v.shown)

def trimmed (trim : List Char → List Char → List Char) (v set : Value) : Value :=
  mapText (fun s => String.ofList (trim set.shown.toList s.toList)) v

def trimBoth (set cs : List Char) : List Char := trimEnd set (trimStart set cs)

/-- The number of bytes that a value can have. -/
def maxLength : Nat := 1000000000

/-- Functions that give NULL whenever an argument is NULL. -/
def applyStrict (name : String) (arguments : List Value) : Except Failure Value :=
  match name, arguments with
  | "abs", [v] => abs v
  | "glob", [pattern, v] => .ok (.ofTruth (some (Pattern.glob pattern.shown.toList v.shown.toList)))
  | "like", [pattern, v] => .ok (like pattern v none)
  | "like", [pattern, v, escape] =>
    match escape.shown.toList with
    | [c] => .ok (like pattern v (some c))
    | _ => .error (.invalid "ESCAPE expression must be a single character")
  | "instr", [v, pattern] => .ok (position v pattern)
  | "length", [v] => .ok (length v)
  | "octet_length", [v] => .ok (.integer v.toBytes.length)
  | "lower", [v] => .ok (mapText String.toLower v)
  | "upper", [v] => .ok (mapText String.toUpper v)
  | "ltrim", [v] => .ok (trimmed trimStart v (.text " "))
  | "ltrim", [v, set] => .ok (trimmed trimStart v set)
  | "rtrim", [v] => .ok (trimmed trimEnd v (.text " "))
  | "rtrim", [v, set] => .ok (trimmed trimEnd v set)
  | "trim", [v] => .ok (trimmed trimBoth v (.text " "))
  | "trim", [v, set] => .ok (trimmed trimBoth v set)
  | "replace", [v, pattern, replacement] =>
    if pattern.shown.isEmpty then .ok (.text v.shown)
    else .ok (mapText (fun s => String.ofList (replaceAll pattern.shown.toList replacement.shown.toList 0 s.toList)) v)
  | "round", [v] => .ok (rounded v 0)
  | "round", [v, places] => .ok (rounded v places.toInteger)
  | "sign", [v] => .ok (sign v)
  | "substr", [v, start] | "substring", [v, start] => .ok (substring v start none)
  | "substr", [v, start, size] | "substring", [v, start, size] => .ok (substring v start (some size))
  | "unhex", [v] => .ok (((unhex? [] v.shown.toList).map .blob).getD .null)
  | "unhex", [v, ignored] => .ok (((unhex? ignored.shown.toList v.shown.toList).map .blob).getD .null)
  | "unicode", [v] => .ok ((v.shown.toList.head?.map fun c => .integer c.toNat).getD .null)
  | _, _ => .ok .null

/-- Applies a function of single values. Arguments are compared as `k` has it. -/
def apply (k : Collation) (name : String) (arguments : List Value) : Except Failure Value :=
  match name.toLower, arguments with
  | "char", vs => .ok (.text (String.ofList (vs.map character)))
  | "coalesce", vs | "ifnull", vs => .ok ((vs.find? (· != .null)).getD .null)
  | "concat", vs => .ok (.text (String.join (vs.map Value.shown)))
  | "concat_ws", separator :: vs =>
    if separator = .null then .ok .null
    else .ok (.text (separator.shown.intercalate ((vs.filter (· != .null)).map Value.shown)))
  | "hex", [v] => .ok (.text (hex v.toBytes))
  | "iif", [condition, v, w] => .ok (if condition.truth = some true then v else w)
  | "likely", [v] | "unlikely", [v] | "likelihood", [v, _] => .ok v
  | "max", vs =>
    .ok (if vs.contains .null then .null else best (fun v w => compareValues k v w == .gt) vs)
  | "min", vs =>
    .ok (if vs.contains .null then .null else best (fun v w => compareValues k v w == .lt) vs)
  | "nullif", [v, w] => .ok (if v != .null && compareValues k v w == .eq then .null else v)
  | "quote", [v] => .ok (.text (quote v))
  | "soundex", [v] => .ok (.text (soundex v.shown))
  | "typeof", [v] => .ok (.text (typeName v))
  | "zeroblob", [v] =>
    if maxLength < v.toInteger.toNat then .error (.invalid "string or blob too big")
    else .ok (.blob (List.replicate v.toInteger.toNat 0))
  | "random", [] => .ok (.integer 0)
  | "format", template :: vs | "printf", template :: vs =>
    .ok (if template = .null then .null else .text (String.ofList (fill (Directive.textOf template) vs)))
  | "sqlite_version", [] => .ok (.text "3.46.0")
  | name, vs =>
    if Moment.functions.contains name then .ok (Moment.apply name vs)
    else if vs.contains .null then .ok .null
    else applyStrict name vs

end Function

end SchemaEditor.Store
