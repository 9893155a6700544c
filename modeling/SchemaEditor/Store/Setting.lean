import SchemaEditor.Name
import SchemaEditor.Sql.Lexer
import SchemaEditor.Store.Affinity

/-!
# Settings

Settings of a connection that nothing else depends on, or hardly anything. Each has a value before it is set, and reads
the texts that it is set to in its own way.
-/

namespace SchemaEditor.Store

structure Setting where
  name : String
  /-- The name of the column that shows it. -/
  heading : String := name
  initial : Value
  /-- The value that a text sets it to; none leaves it as it is. -/
  read : String → Option Value := fun _ => none
  /-- Whether it is shown when it is set, too. -/
  isEcho : Bool := false
  /-- Whether it can be set only as long as the store is new. -/
  isLasting : Bool := false

namespace Setting

/-! ## Reading texts -/

def ofBool (b : Bool) : Value := .ofTruth (some b)

def isSmall (n : Int) : Bool := decide (-0x80000000 ≤ n) && decide (n ≤ 0x7FFFFFFF)

/-- The number that a text starts with. -/
def leadingNumber (value : String) : Int :=
  match hexDigits value.toList with
  | some cs => (cs.takeWhile isHexDigit).foldl (fun n c => n * 16 + hexValue c) 0
  | none =>
    let (negative, digits) := Numeral.sign value.toList
    let n : Int := Numeral.ofDigits (digits.takeWhile Char.isDigit)
    if negative then -n else n

/-- The number of 32 bits that a text starts with, or zero. -/
def readNumber (value : String) : Int :=
  let n := leadingNumber value
  if isSmall n then n else 0

def startsWithDigit (value : String) : Bool := (value.toList.head?).any Char.isDigit

def readSwitch (value : String) : Bool :=
  if startsWithDigit value then readNumber value % 256 != 0 else ["on", "yes", "true"].any (sameName value)

/-- A level of care; the least that can be set is one, shown as zero. -/
def readCare (value : String) : Int :=
  let words : List (String × Int) :=
    [("on", 1), ("yes", 1), ("true", 1), ("off", 0), ("no", 0), ("false", 0), ("full", 2), ("extra", 3)]
  let level : Int :=
    if startsWithDigit value then readNumber value % 256
    else (words.find? fun (w, _) => sameName w value).elim 1 Prod.snd
  max 0 ((level + 1) % 8 - 1)

/-- The place of a word, or a number up to the last place. Any other text stands for the first one. -/
def readChoice (words : List String) (value : String) : Int :=
  match words.findIdx? (sameName value) with
  | some i => i
  | none =>
    let n := readNumber value
    if 0 ≤ n ∧ n < words.length then n else 0

/-- Where temporary objects are kept: a word or the digit that the text starts with. Any other text stands for the first
place. -/
def readPlace (value : String) : Int :=
  match value.toList.head? with
  | some '1' => 1
  | some '2' => 2
  | _ => if sameName value "file" then 1 else if sameName value "memory" then 2 else 0

/-- A whole text as a number that is not negative. -/
def readAmount (value : String) : Option Int :=
  let digits := match value.toList with
    | '+' :: cs => cs
    | cs => cs
  let isNumber := (hexDigits value.toList).any (fun cs => cs.all isHexDigit) || (!digits.isEmpty && digits.all Char.isDigit)
  let n := leadingNumber value
  if isNumber && decide (n ≤ maxInteger) then some n else none

/-! ## The settings -/

def switch (initial : Bool) (name : String) : Setting :=
  { name, initial := ofBool initial, read := fun v => some (ofBool (readSwitch v)) }

/-- A setting that always has the same value. -/
def fixed (name : String) (initial : Value) : Setting := { name, initial }

/-- A number that is shown when it is set. -/
def echoed (name : String) (initial : Int) (read : String → Option Int) : Setting :=
  { name, initial := .integer initial, read := fun v => (read v).map .integer, isEcho := true }

/-- Up to half of the integers of 32 bits. -/
def low (n : Int) : Int := n % 0x80000000

def pageSize? (value : String) : Option Value :=
  let n := readNumber value
  if [512, 1024, 2048, 4096, 8192, 16384, 32768, 65536].contains n then some (.integer n) else none

def all : List Setting :=
  [switch false "cell_size_check", switch false "checkpoint_fullfsync", switch false "count_changes",
    switch false "empty_result_callbacks", switch false "full_column_names", switch false "fullfsync",
    switch false "ignore_check_constraints", switch false "query_only", switch false "read_uncommitted",
    switch false "reverse_unordered_selects", switch false "writable_schema", switch true "automatic_index",
    switch true "short_column_names", switch true "trusted_schema",
    { name := "cache_size", initial := .integer (-2000), read := fun v => some (.integer (readNumber v)) },
    { name := "synchronous", initial := .integer 2, read := fun v => some (.integer (readCare v)) },
    { name := "temp_store", initial := .integer 0, read := fun v => some (.integer (readPlace v)) },
    { name := "page_size", initial := .integer 4096, read := pageSize?, isLasting := true },
    { name := "auto_vacuum", initial := .integer 0, isLasting := true
      read := fun v => some (.integer (readChoice ["none", "full", "incremental"] v)) },
    { name := "locking_mode", initial := .text "normal", isEcho := true
      read := fun v => (["normal", "exclusive"].find? (sameName v)).map .text },
    { echoed "busy_timeout" 5000 (fun v => some (max 0 (readNumber v))) with heading := "timeout" },
    echoed "secure_delete" 0 fun v => some (if sameName v "fast" then 2 else if readSwitch v then 1 else 0),
    echoed "max_page_count" 0xFFFFFFFE fun v =>
      let n := (readNumber v).natAbs
      if n = 0 then none else some n,
    echoed "journal_size_limit" (-1) fun v => some (max (-1) (leadingNumber v)),
    echoed "wal_autocheckpoint" 1000 fun v => some (max 0 (readNumber v)),
    echoed "threads" 0 fun v => (readAmount v).map fun n => min 8 (low n),
    echoed "analysis_limit" 0 fun v => (readAmount v).map low,
    echoed "soft_heap_limit" 0 readAmount,
    echoed "hard_heap_limit" 0 fun _ => none,
    echoed "freelist_count" 0 fun _ => none,
    echoed "data_version" 1 fun _ => none,
    fixed "encoding" (.text "UTF-8")]

def find? (name : String) : Option Setting := all.find? fun s => sameName s.name name

end Setting

end SchemaEditor.Store
