import SchemaEditor.Store.Document.Binary
import SchemaEditor.Store.Document.Path
import SchemaEditor.Store.Document.Reader
import SchemaEditor.Store.Failure

/-!
# Functions of documents

Documents are given as JSON texts or in bytes. A text that a function of documents gives is a part of a document, and
not a text of it, when another such function takes it.
-/

namespace SchemaEditor.Store.Document

/-- A value, and whether it is a part of a document. -/
structure Argument where
  value : Value
  isPart : Bool := false

def malformedText : Failure := .invalid "malformed JSON"

def heldBytes : Failure := .invalid "JSON cannot hold BLOB values"

def badPath (path : String) : Failure :=
  .invalid ("bad JSON path: '" ++ String.ofList (path.toList.flatMap fun c => if c = '\'' then [c, c] else [c]) ++ "'")

/-! ## Arguments -/

def parse (s : String) : Except Failure Document :=
  match read s with
  | .ok (d, _) => .ok d
  | .error _ => .error malformedText

/-- The document that a value is; NULL is none. -/
def ofValue? (v : Value) : Except Failure (Option Document) := do
  match v with
  | .null => return none
  | .blob bytes =>
    if isPacked bytes then
      match ofBytes? bytes with
      | some d => return some d
      | none => throw malformedText
    else return some (← parse v.shown)
  | v => return some (← parse v.shown)

def partOfBytes (bytes : List UInt8) : Except Failure Document :=
  match isPacked bytes, ofBytes? bytes with
  | true, some d => .ok d
  | true, none => .error malformedText
  | false, _ => .error heldBytes

/-- A value as a part of a document. -/
def ofArgument (a : Argument) : Except Failure Document :=
  match a.value with
  | .null => .ok .null
  | .integer n => .ok (.integer (toString n).toList)
  | .real x =>
    let sign := if x < 0 then ['-'] else []
    .ok (.decimal (if Decimal.isInfinite x then sign ++ "9e999".toList else (Decimal.print x).toList))
  | .text s => if a.isPart then parse s else .ok (ofText s)
  | .blob bytes => partOfBytes bytes

/-- A value as it is written in a document. -/
def printArgument (a : Argument) : Except Failure (List Char) :=
  match a.value with
  | .real x =>
    let sign := if x < 0 then ['-'] else []
    .ok (if Decimal.isInfinite x then sign ++ "9.0e+999".toList else (Decimal.print x).toList)
  | .text s => .ok (if a.isPart then s.toList else (ofText s).print)
  | _ => do return (← ofArgument a).print

/-! ## Results -/

/-- Gives a document as bytes or as a text. -/
def give (inBytes : Bool) (d : Document) : Argument :=
  if inBytes then ⟨.blob d.toBytes, false⟩ else ⟨.text d.shown, true⟩

def givePrinted (inBytes : Bool) (cs : List Char) : Except Failure Argument :=
  if inBytes then return give true (← parse (String.ofList cs)) else .ok ⟨.text (String.ofList cs), true⟩

def nothing : Argument := ⟨.null, false⟩

def plainValue (d : Document) : Except Failure Argument :=
  match d.value? with
  | some v => .ok ⟨v, false⟩
  | none => .error malformedText

/-- Puts items between brackets, with commas. -/
def bracketed (first last : Char) (items : List (List Char)) : List Char :=
  first :: [','].intercalate items ++ [last]

def arrayText (items : List Argument) : Except Failure (List Char) :=
  return bracketed '[' ']' (← items.mapM printArgument)

/-! ## Parts -/

/-- What follows the sign for the document itself in a path. -/
def stepsOf? (path : String) : Option (List Char) :=
  match path.toList with
  | '$' :: steps => some (steps.takeWhile (· != '\x00'))
  | _ => none

/-- The part that a path leads to, if it leads to one. -/
def part? (d : Document) (path : String) (steps : Option (List Char)) : Except Failure (Option Document) :=
  match steps with
  | none => .error (badPath path)
  | some steps =>
    match lookUp steps.length steps d with
    | .ok d => .ok (some d)
    | .error .missing => .ok none
    | .error .badPath => .error (badPath path)

/-- The steps that an operator takes its right side for: a place, a label or a path. -/
def shortSteps (v : Value) : Option (List Char) :=
  let cs := v.shown.toList
  if cs.head? == some '$' then stepsOf? v.shown
  else
    match v with
    | .integer _ => some ('[' :: cs ++ [']'])
    | _ =>
      if cs.all Char.isAlphanum then some ('.' :: cs)
      else if cs.head? == some '[' && decide (3 ≤ cs.length) && cs.getLast? == some ']' then some cs
      else some ('.' :: '"' :: cs ++ ['"'])

/-- A part of a document as a document. -/
def member (v path : Value) : Except Failure Argument := do
  match ← ofValue? v, path with
  | none, _ | _, .null => return nothing
  | some d, path => return ((← d.part? path.shown (shortSteps path)).map (give false)).getD nothing

/-- A part of a document as a value. -/
def memberValue (v path : Value) : Except Failure Argument := do
  match ← ofValue? v, path with
  | none, _ | _, .null => return nothing
  | some d, path =>
    match ← d.part? path.shown (shortSteps path) with
    | some part => part.plainValue
    | none => return nothing

def extractOne (inBytes : Bool) (d : Document) (path : Value) : Except Failure Argument := do
  if path == .null then return nothing
  match ← d.part? path.shown (stepsOf? path.shown) with
  | none => return nothing
  | some part => if part.isContainer then return give inBytes part else part.plainValue

def extract (inBytes : Bool) (d : Document) : List Value → Except Failure Argument
  | [] => .ok nothing
  | [path] => d.extractOne inBytes path
  | paths => do
    if paths.contains .null then return nothing
    let parts ← paths.mapM fun path => d.part? path.shown (stepsOf? path.shown)
    givePrinted inBytes (bracketed '[' ']' (parts.map fun part => (part.getD .null).print))

/-- What a function tells about a document, or about the part that a path leads to. -/
def describe (f : Document → Value) (d : Document) : List Argument → Except Failure Argument
  | [] => .ok ⟨f d, false⟩
  | path :: _ => do
    if path.value == .null then return nothing
    return ((← d.part? path.value.shown (stepsOf? path.value.shown)).map fun part => ⟨f part, false⟩).getD nothing

def itemCount : Document → Value
  | array items => .integer items.length
  | _ => .integer 0

/-! ## Changes -/

/-- Changes what a path leads to; nothing may be left. -/
def changed (e : Edit) (path : String) (d : Document) : Except Failure (Option Document) :=
  match stepsOf? path with
  | none => .error (badPath path)
  | some steps =>
    match change e steps.length steps d with
    | .ok d => .ok d
    | .error .missing => .ok (some d)
    | .error .badPath => .error (badPath path)

def removeAll (inBytes : Bool) (d : Document) : List Value → Except Failure Argument
  | [] => .ok (give inBytes d)
  | path :: paths => do
    if path == .null then return nothing
    match ← d.changed .remove path.shown with
    | some d => removeAll inBytes d paths
    | none => return nothing

/-- Applies changes that each are a path and a value. -/
def changeAll (inBytes : Bool) (edit : Document → Edit) (d : Document) : List Argument → Except Failure Argument
  | path :: v :: rest => do
    if path.value == .null then return ← changeAll inBytes edit d rest
    if (stepsOf? path.value.shown).isNone then throw (badPath path.value.shown)
    match ← d.changed (edit (← ofArgument v)) path.value.shown with
    | some d => changeAll inBytes edit d rest
    | none => return nothing
  | _ => .ok (give inBytes d)

def oddNumber (name : String) : Failure := .invalid ("json_" ++ name ++ "() needs an odd number of arguments")

/-- A function that changes a document. -/
def changeWith (inBytes : Bool) (name : String) (edit : Document → Edit) : List Argument → Except Failure Argument
  | [] => .ok nothing
  | a :: changes => do
    if changes.length % 2 = 1 then throw (oddNumber name)
    match ← ofValue? a.value with
    | some d => d.changeAll inBytes edit changes
    | none => return nothing

/-! ## New documents -/

def memberTexts : List Argument → Except Failure (List (List Char))
  | label :: a :: rest => do
    let .text s := label.value | throw (.invalid "json_object() labels must be TEXT")
    return ((ofText s).print ++ ':' :: (← printArgument a)) :: (← memberTexts rest)
  | _ => return []

def objectText (arguments : List Argument) : Except Failure (List Char) := do
  if arguments.length % 2 = 1 then throw (.invalid "json_object() requires an even number of arguments")
  return bracketed '\x7b' '\x7d' (← memberTexts arguments)

/-! ## Checks -/

/-- Whether a value is a document in one of the ways that the bits of `ways` tell: strict JSON, JSON with more, bytes that
look like a document, and bytes that are one. -/
def isValid (v : Value) (ways : Int) : Except Failure Value := do
  if ways < 1 || 15 < ways then
    throw (.invalid "FLAGS parameter to json_valid() must be between 1 and 15")
  let asks (bit : Nat) : Bool := ways.toNat / bit % 2 == 1
  let asText : Bool :=
    match read v.shown with
    | .ok (_, isStrict) => asks 2 || (asks 1 && isStrict)
    | .error _ => false
  match v with
  | .null => return .null
  | .blob bytes =>
    if isPacked bytes then return .ofTruth (some (asks 4 || (asks 8 && (ofBytes? bytes).isSome)))
    else return .ofTruth (some asText)
  | _ => return .ofTruth (some asText)

/-- Where a text stops being a document, counted from one; zero if it is one. -/
def errorPosition (v : Value) : Value :=
  match v with
  | .null => .null
  | .blob bytes =>
    if isPacked bytes then .integer (if (ofBytes? bytes).isSome then 0 else 1) else ofShown
  | _ => ofShown
where
  ofShown : Value :=
    let s := v.shown
    match read s with
    | .ok _ => .integer 0
    | .error rest => .integer (s.toList.length - rest.length + 1 : Nat)

/-! ## Application -/

/-- Applies a function to a document and further arguments. NULL is no document. -/
def withDocument (a : Argument) (f : Document → Except Failure Argument) : Except Failure Argument := do
  match ← ofValue? a.value with
  | some d => f d
  | none => return nothing

/-- Applies a function of documents that gives them as texts or in bytes. -/
def applyTo (inBytes : Bool) (name : String) (arguments : List Argument) : Except Failure Argument :=
  match name, arguments with
  | "json", [a] => withDocument a fun d => .ok (give inBytes d)
  | "json_array", items => do givePrinted inBytes (← arrayText items)
  | "json_object", items => do givePrinted inBytes (← objectText items)
  | "json_extract", a :: path :: paths =>
    withDocument a fun d => d.extract inBytes ((path :: paths).map Argument.value)
  | "json_remove", a :: paths => withDocument a fun d => d.removeAll inBytes (paths.map Argument.value)
  | "json_insert", as => changeWith inBytes "insert" .insert as
  | "json_replace", as => changeWith inBytes "replace" .replace as
  | "json_set", as => changeWith inBytes "set" .put as
  | "json_patch", [a, b] => do
    let some d ← ofValue? a.value | return nothing
    let some changes ← ofValue? b.value | return nothing
    return give inBytes (patch changes.depth d changes)
  | "json_array_length", a :: path => withDocument a fun d => d.describe itemCount path
  | "json_type", a :: path => withDocument a fun d => d.describe (fun d => .text d.typeName) path
  | "json_pretty", [a] => withDocument a fun d => .ok ⟨.text (String.ofList (d.printPretty (List.replicate 4 ' ') [])), false⟩
  | "json_pretty", [a, indent] =>
    withDocument a fun d =>
      let step := if indent.value == .null then List.replicate 4 ' ' else indent.value.shown.toList
      .ok ⟨.text (String.ofList (d.printPretty step [])), false⟩
  | "json_quote", [a] => do return ⟨.text (String.ofList (← printArgument a)), true⟩
  | "json_valid", [a] => do
    if a.value == .null then return nothing
    return ⟨← isValid a.value 1, false⟩
  | "json_valid", [a, ways] => do return ⟨← isValid a.value ways.value.toInteger, false⟩
  | "json_error_position", [a] => .ok ⟨errorPosition a.value, false⟩
  | "subtype", [a] => .ok ⟨.integer (if a.isPart then 74 else 0), false⟩
  | _, _ => .ok nothing

/-- Applies a function of documents. Those that give bytes have names of their own. -/
def apply (name : String) (arguments : List Argument) : Except Failure Argument :=
  if name.startsWith "jsonb" then applyTo true ("json" ++ (name.drop 5).toString) arguments
  else applyTo false name arguments

def isFunction (name : String) : Bool := name.startsWith "json" || name == "subtype"

/-! ## Groups -/

/-- Applies a function of documents to the rows of a group. -/
def applyToGroup (name : String) (rows : List (List Argument)) : Except Failure Argument := do
  let inBytes := name.startsWith "jsonb"
  if name.endsWith "array" then givePrinted inBytes (← arrayText (rows.filterMap List.head?))
  else
    let members ← rows.filterMapM fun r => do
      let [label, a] := r | return none
      let key := if label.value == .null then [] else (ofText label.value.shown).print
      return some (key ++ ':' :: (← printArgument a))
    givePrinted inBytes (bracketed '\x7b' '\x7d' members)

end SchemaEditor.Store.Document
