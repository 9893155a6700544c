/-!
# Options

How the words of a command line are read as options and operands. A long option takes its value after an
equals sign or from the next word, a short one also from the rest of its own word, and `--` ends the
options. A value from the next word must not look like an option.
-/

namespace SchemaEditor.Command

structure OptionRule where
  name : String
  short : Option Char := none
  takesValue : Bool := true
  repeatable : Bool := false
deriving DecidableEq, Repr

/-- What the words of a command can be. -/
structure Grammar where
  options : List OptionRule
  /-- The least and the greatest number of operands. -/
  required : Nat := 0
  operands : Nat := 0
  /-- The place of an operand that may look like an option. -/
  dashed : Option Nat := none
  /-- Words that end the options and start a command. -/
  commands : List String := []
deriving DecidableEq, Repr

structure Words where
  /-- The options with their values; a switch has the empty value. -/
  options : List (String × String) := []
  operands : List String := []
  /-- The command and the words after it. -/
  command : Option (String × List String) := none
deriving DecidableEq, Repr

namespace Words

def add (w : Words) (rule : OptionRule) (value : String) : Words :=
  { w with options := w.options ++ [(rule.name, value)] }

def addOperand (w : Words) (operand : String) : Words := { w with operands := w.operands ++ [operand] }

def values (w : Words) (name : String) : List String := (w.options.filter fun o => o.1 == name).map Prod.snd

def value? (w : Words) (name : String) : Option String := (w.values name).head?

def isSet (w : Words) (name : String) : Bool := (w.value? name).isSome

end Words

/-- What a word is, by its dashes. -/
inductive Shape where
  | end
  | long (name : String) (value : Option String)
  | short (letters : List Char)
  | operand

def shape (word : String) : Shape :=
  match word.toList with
  | ['-', '-'] => .end
  | '-' :: '-' :: cs =>
    let name := String.ofList (cs.takeWhile (· != '='))
    match cs.dropWhile (· != '=') with
    | [] => .long name none
    | _ :: value => .long name (some (String.ofList value))
  | '-' :: c :: cs => .short (c :: cs)
  | _ => .operand

/-- Whether a word can be the value of the option before it. -/
def canBeValue (word : String) : Bool := shape word matches .operand

/-- What a word of options comes to: it is complete, or its last option waits for a value. -/
inductive Taken where
  | complete (w : Words)
  | waiting (w : Words) (rule : OptionRule)

namespace Grammar

def rule? (g : Grammar) (p : OptionRule → Bool) : Option OptionRule := g.options.find? p

def takeLong (g : Grammar) (w : Words) (name : String) (value : Option String) : Option Taken := do
  let rule ← g.rule? fun r => r.name == name
  match rule.takesValue, value with
  | true, some v => some (.complete (w.add rule v))
  | true, none => some (.waiting w rule)
  | false, none => some (.complete (w.add rule ""))
  | false, some _ => none

/-- Takes short options: switches, and at the end an option with its value. -/
def takeShort (g : Grammar) (w : Words) : List Char → Option Taken
  | [] => some (.complete w)
  | c :: cs => do
    let rule ← g.rule? fun r => r.short == some c
    if !rule.takesValue then g.takeShort (w.add rule "") cs
    else
      match cs with
      | [] => some (.waiting w rule)
      | '=' :: value => some (.complete (w.add rule (String.ofList value)))
      | value => some (.complete (w.add rule (String.ofList value)))

/-- Reads words after those that are read already. -/
def readFrom (g : Grammar) (w : Words) (words : List String) : Option Words :=
  match words with
  | [] => some w
  | word :: rest =>
    let dashed := g.dashed == some w.operands.length
    let taken : Option Taken :=
      match shape word with
      | .long name value => if dashed then some (.complete (w.addOperand word)) else g.takeLong w name value
      | .short letters => if dashed then some (.complete (w.addOperand word)) else g.takeShort w letters
      | _ => none
    match shape word, taken with
    | .end, _ => if g.commands.isEmpty then some { w with operands := w.operands ++ rest } else none
    | .operand, _ =>
      if g.commands.isEmpty then g.readFrom (w.addOperand word) rest
      else if g.commands.contains word then some { w with command := some (word, rest) }
      else none
    | _, some (.complete w) => g.readFrom w rest
    | _, some (.waiting w rule) =>
      match rest with
      | value :: rest => if canBeValue value then g.readFrom (w.add rule value) rest else none
      | [] => none
    | _, none => none
termination_by words.length

/-- Whether no option is given twice that may be given only once. -/
def hasNoRepetition (g : Grammar) (w : Words) : Bool :=
  g.options.all fun r => r.repeatable || (w.values r.name).length ≤ 1

/-- Reads all words of a command. -/
def read (g : Grammar) (words : List String) : Option Words := do
  let w ← g.readFrom {} words
  if g.hasNoRepetition w && decide (g.required ≤ w.operands.length) && decide (w.operands.length ≤ g.operands) then
    some w
  else none

end Grammar

end SchemaEditor.Command
