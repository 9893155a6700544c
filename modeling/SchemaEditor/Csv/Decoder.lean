import SchemaEditor.Csv.Options
import SchemaEditor.Text.Utf8

/-!
# Reading delimited text

The decoder goes over the lines of a file. A quote switches quoting on and off wherever it stands, and a
doubled quote inside quotes is a quote; spaces outside quotes are dropped if quoting is in use. A record
ends with its line, unless a quote is open: then the line break belongs to the field.
-/

namespace SchemaEditor.Csv

inductive Error where
  /-- A line is not UTF-8. -/
  | encoding
  | cancelled
deriving DecidableEq, Repr

def Error.message : Error → String
  | encoding => "failed to read CSV input: stream did not contain valid UTF-8"
  | cancelled => "CSV decoding cancelled"

/-- A line of a file, or `none` for a line that is not UTF-8. -/
abbrev Line := Option (List Char)

/-- The record that is being read. Fields and characters are held with the last one first. -/
structure Pending where
  fields : List String := []
  field : List Char := []
  inQuotes : Bool := false

namespace Pending

def push (p : Pending) (c : Char) : Pending := { p with field := c :: p.field }

def endField (p : Pending) : Pending :=
  { p with fields := String.ofList p.field.reverse :: p.fields, field := [] }

def toggle (p : Pending) : Pending := { p with inQuotes := !p.inQuotes }

/-- The record, once its last field has ended. -/
def record (p : Pending) : List String := p.endField.fields.reverse

/-- What a character by itself does to the record. -/
def step (o : Options) (p : Pending) (c : Char) : Pending :=
  if some c = o.quote then p.toggle
  else if some c = o.separator ∧ ¬p.inQuotes then p.endField
  else if c = ' ' then if p.inQuotes ∨ o.quote = none then p.push c else p
  else if (c = '\r' ∨ c = '\n') ∧ ¬p.inQuotes then p
  else p.push c

/-- What a line does to the record: `step`, and a doubled quote inside quotes. -/
def scan (o : Options) (p : Pending) : List Char → Pending
  | [] => p
  | [c] => p.step o c
  | c :: d :: cs =>
    if some c = o.quote ∧ p.inQuotes ∧ d = c then scan o (p.push c) cs else scan o (p.step o c) (d :: cs)

end Pending

/-- What was read: a list of records. The views below flatten it, as a table of fixed width has it. -/
structure Decoded where
  recordList : List (List String)
deriving DecidableEq, Repr

namespace Decoded

def fields (d : Decoded) : List String := d.recordList.flatten

def records (d : Decoded) : Nat := d.recordList.length

/-- The width of the first record. -/
def columns (d : Decoded) : Nat := (d.recordList.head?.map List.length).getD 0

def isEmpty (d : Decoded) : Bool := d.records == 0

end Decoded

/-- Cuts a list into rows of `width` elements; the last row may be shorter. -/
def chunks {α : Type} (width : Nat) (as : List α) : List (List α) :=
  match as with
  | [] => []
  | a :: as => (a :: as.take (width - 1)) :: chunks width (as.drop (width - 1))
termination_by as.length
decreasing_by simp only [List.length_drop, List.length_cons]; omega

/-- All fields in rows as wide as the first record. -/
def Decoded.rows (d : Decoded) : List (List String) := chunks d.columns d.fields

/-- How a reading is limited: by a number of records, and by a signal that is looked at whenever a line has
ended a record, with the number of records so far. -/
structure Limit where
  maxRecords : Option Nat := none
  cancelled : Nat → Bool := fun _ => false

def Limit.reached (l : Limit) (records : Nat) : Bool :=
  match l.maxRecords with
  | some n => decide (n ≤ records)
  | none => false

/-- Reads lines after `done`, the records so far with the last one first, while `p` is pending. An open
record at the end of the file is closed, and loses its last line break. -/
def decodeFrom (o : Options) (l : Limit) (done : List (List String)) (p : Pending) :
    List Line → Except Error Decoded
  | [] => .ok (close done p)
  | line :: lines =>
    if l.reached done.length then .ok (close done p)
    else
      match line with
      | none => .error .encoding
      | some cs =>
        let p := p.scan o cs
        if p.inQuotes then decodeFrom o l done (p.push '\n') lines
        else
          let done := p.record :: done
          if l.cancelled done.length then .error .cancelled else decodeFrom o l done {} lines
where
  close (done : List (List String)) (p : Pending) : Decoded :=
    if p.inQuotes then ⟨({ p with field := p.field.tail }.record :: done).reverse⟩ else ⟨done.reverse⟩

def decodeLines (o : Options) (l : Limit) (lines : List Line) : Except Error Decoded :=
  decodeFrom o l [] {} lines

def linesOfText (text : String) : List Line := (Text.lines text.toList).map some

def linesOfBytes (bytes : List UInt8) : List Line := Text.Utf8.lines bytes

def decodeText (o : Options) (text : String) : Except Error Decoded := decodeLines o {} (linesOfText text)

end SchemaEditor.Csv
