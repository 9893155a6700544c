/-!
# Patterns

The two languages of patterns for texts. LIKE has marks for any text and for any character, and does not tell
the case of ASCII letters; GLOB has other marks, and sets of characters too.
-/

namespace SchemaEditor.Store.Pattern

/-- A text and all that is left of it when characters are taken from its front. -/
def suffixes : List Char → List (List Char)
  | [] => [[]]
  | c :: cs => (c :: cs) :: suffixes cs

/-- Whether a text is of the form of a LIKE pattern. A character after `escape` stands for itself. -/
def like (escape : Option Char) : List Char → List Char → Bool
  | [], text => text.isEmpty
  | p :: ps, text =>
    if some p = escape then literally text ps
    else if p = '%' then (suffixes text).any (like escape ps)
    else
      match text with
      | [] => false
      | c :: cs => (p = '_' || p.toLower == c.toLower) && like escape ps cs
where
  literally (text : List Char) : List Char → Bool
    | [] => false
    | q :: ps =>
      match text with
      | [] => false
      | c :: cs => q.toLower == c.toLower && like escape ps cs

/-- A part of a GLOB pattern. -/
inductive Part where
  | any
  | one
  | char (c : Char)
  /-- A character among some ranges, or none of them. -/
  | set (negated : Bool) (ranges : List (Char × Char))

def Part.accepts : Part → Char → Bool
  | .any, _ => false
  | .one, _ => true
  | .char d, c => c == d
  | .set negated ranges, c => negated != ranges.any fun (low, high) => decide (low ≤ c) && decide (c ≤ high)

/-- The ranges of a set up to its closing bracket, and what follows it. A hyphen at an end stands for itself. -/
def ranges : List Char → Option (List (Char × Char) × List Char)
  | [] => none
  | ']' :: cs => some ([], cs)
  | low :: '-' :: high :: cs =>
    if high = ']' then some ([(low, low), ('-', '-')], cs)
    else (ranges cs).map fun (rs, rest) => ((low, high) :: rs, rest)
  | c :: cs => (ranges cs).map fun (rs, rest) => ((c, c) :: rs, rest)

/-- A set, after its opening bracket. A closing bracket that comes first stands for itself. -/
def set (cs : List Char) : Option (Part × List Char) :=
  let (negated, cs) := match cs with
    | '^' :: cs => (true, cs)
    | cs => (false, cs)
  match cs with
  | ']' :: cs => (ranges cs).map fun (rs, rest) => (.set negated ((']', ']') :: rs), rest)
  | cs => (ranges cs).map fun (rs, rest) => (.set negated rs, rest)

/-- The parts of a GLOB pattern, which has no more of them than characters; none if a set is left open. -/
def partsUpTo : Nat → List Char → Option (List Part)
  | _, [] => some []
  | 0, _ :: _ => none
  | n + 1, c :: cs =>
    if c = '[' then do
      let (p, rest) ← set cs
      return p :: (← partsUpTo n rest)
    else do
      let p := if c = '*' then .any else if c = '?' then .one else .char c
      return p :: (← partsUpTo n cs)

def matchParts : List Part → List Char → Bool
  | [], text => text.isEmpty
  | .any :: ps, text => (suffixes text).any (matchParts ps)
  | _ :: _, [] => false
  | p :: ps, c :: cs => p.accepts c && matchParts ps cs

def glob (pattern text : List Char) : Bool :=
  ((partsUpTo pattern.length pattern).map fun ps => matchParts ps text).getD false

end SchemaEditor.Store.Pattern
