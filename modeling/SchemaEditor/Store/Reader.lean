import SchemaEditor.Store.Failure
import SchemaEditor.Store.Lexer

/-!
# Reading tokens

The building blocks of the store's grammar: single tokens, words, names and lists.
-/

namespace SchemaEditor.Store

abbrev Reader := StateT (List Token) (Except Failure)

namespace Reader

variable {α : Type}

/-! ## Tokens -/

def peek : Reader Token := return (← get).headD (.atEnd 0)

def skip : Reader Unit := modify List.tail

def fail : Reader α := do
  let t ← peek
  match t.kind with
  | .error _ => throw (.unrecognizedToken (String.ofList t.text))
  | _ => throw (.syntaxError (String.ofList t.text))

def atWord (w : String) : Reader Bool := return bareWord? (← peek) == some w

/-- Whether these words follow. -/
def atWords (ws : List String) : Reader Bool := return ((← get).take ws.length).map bareWord? == ws.map some

def atKind (k : TokenKind) : Reader Bool := return (← peek).kind == k

/-- Whether tokens of these kinds follow, without gaps between them. -/
def atKinds (ks : List TokenKind) : Reader Bool := do
  let ts := (← get).take ks.length
  return ts.map Token.kind == ks && ts.tail.all fun t => t.gap.isEmpty

def takeWord (w : String) : Reader Bool := do
  let found ← atWord w
  if found then skip
  return found

def takeKind (k : TokenKind) : Reader Bool := do
  let found ← atKind k
  if found then skip
  return found

def expect (w : String) : Reader Unit := do
  if !(← takeWord w) then fail

def expectAll (ws : List String) : Reader Unit := ws.forM expect

def kind (k : TokenKind) : Reader Unit := do
  if !(← takeKind k) then fail

/-- Reads one of several words, if it stands here. -/
def takeOneOf (ws : List String) : Reader (Option String) := do
  match (bareWord? (← peek)).filter ws.contains with
  | some w =>
    skip
    return some w
  | none => return none

/-! ## Names -/

def takeName : Reader (Option String) := do
  let n := nameOf? (← peek)
  if n.isSome then skip
  return n

def name : Reader String := do
  match ← takeName with
  | some n => return n
  | none => fail

/-- Reads a name that is no word of joins. -/
def takePlainName : Reader (Option String) := do
  let n := plainNameOf? (← peek)
  if n.isSome then skip
  return n

def plainName : Reader String := do
  match ← takePlainName with
  | some n => return n
  | none => fail

/-! ## Combinations -/

/-- Goes on as long as a step has something to do, at most as often as there are tokens. -/
def repeatFrom (step : α → Reader (Option α)) (a : α) : Reader α := do go (← get).length a
where
  go : Nat → α → Reader α
    | 0, a => return a
    | n + 1, a => do
      match ← step a with
      | none => return a
      | some a => go n a

/-- Reads items as long as there are any. Each takes a token, so there are no more items than tokens. -/
def many (item : Reader (Option α)) : Reader (List α) := do
  let items ← repeatFrom (fun items => return (← item).map (· :: items)) []
  return items.reverse

def listOf (item : Reader α) : Reader (List α) := do
  let first ← item
  let others ← many do
    if ← takeKind .comma then return some (← item) else return none
  return first :: others

def parenthesized (item : Reader α) : Reader α := do
  kind .leftParen
  let a ← item
  kind .rightParen
  return a

/-- Reads an item if a word comes before it. -/
def after (w : String) (item : Reader α) : Reader (Option α) := do
  if ← takeWord w then return some (← item) else return none

/-- Also gives the tokens that were read. -/
def withTokens (item : Reader α) : Reader (α × List Token) := do
  let before ← get
  let a ← item
  return (a, before.take (before.length - (← get).length))

/-- Reads a list of names in parentheses, if there is one. -/
def names : Reader (List String) := do
  if ← atKind .leftParen then parenthesized (listOf name) else return []

def columnName : Reader ColumnName := do
  let place := (← peek).span.start
  return { name := ← name, place := some place }

/-- Reads a list of columns in parentheses, if there is one. -/
def columnNames : Reader (List ColumnName) := do
  if ← atKind .leftParen then parenthesized (listOf columnName) else return []

/-- Reads the name of a schema and the dot after it. -/
def schemaName : Reader (Option String) := do
  match ← get with
  | _ :: dot :: _ =>
    if dot.kind != .dot then return none
    let n ← name
    skip
    return some n
  | _ => return none

/-- Reads the name of an object without a schema. -/
def plainObject : Reader ObjectName := do
  let place := (← peek).span.start
  return { name := ← name, place := some place }

def objectName : Reader ObjectName := do
  let schema ← schemaName
  return { ← plainObject with schema }

end Reader

end SchemaEditor.Store
