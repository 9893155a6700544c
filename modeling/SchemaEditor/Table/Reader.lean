import SchemaEditor.Table.ParseError
import SchemaEditor.Sql.Lexer

/-!
# Reading tokens

A reader moves a cursor over the tokens of a statement and returns a value or an error. The cursor keeps
what was read and what was discarded, also when the reading fails. `Keeps` says that a reader never gains
tokens; a loop whose every turn takes one is `Reader.loop`, and ends because of that.
-/

namespace SchemaEditor

/-- A place between two tokens. -/
structure Cursor where
  /-- The tokens before the place, the last one first. -/
  read : List Token
  /-- The tokens after the place. -/
  rest : List Token
  /-- The length of the statement in bytes. -/
  size : Nat
  /-- The clauses that were read and have no place in the model, the last one first. -/
  discarded : List String

namespace Cursor

def start (s : String) : Cursor := ⟨[], tokenize s, byteLength s.toList, []⟩

def current (c : Cursor) : Token := c.rest.headD (.atEnd c.size)

/-- The token after the current one. -/
def following (c : Cursor) : Token := c.rest.tail.headD (.atEnd c.size)

def advance (c : Cursor) : Cursor := { c with read := c.current :: c.read, rest := c.rest.tail }

/-- Moves past `taken`, after which `rest` remains. -/
def jump (c : Cursor) (taken rest : List Token) : Cursor :=
  { c with read := taken.reverse ++ c.read, rest := rest }

/-- The source of what was read since the cursor had read `mark` tokens. -/
def sourceSince (c : Cursor) (mark : Nat) : String :=
  String.ofList (Token.source (c.read.take (c.read.length - mark)).reverse)

theorem length_advance (c : Cursor) : c.advance.rest.length ≤ c.rest.length := by simp [advance]

/-- Only the end of the statement has no successor. -/
theorem length_advance_lt {c : Cursor} (h : c.current.kind ≠ .eof) : c.advance.rest.length < c.rest.length := by
  cases hr : c.rest with
  | nil => simp [current, hr, Token.atEnd] at h
  | cons t ts => simp [advance, hr]

end Cursor

abbrev Reader := EStateM ParseError Cursor

namespace Reader

/-! ## Progress -/

/-- After a success no more tokens remain than before. -/
class Keeps {α : Type} (r : Reader α) : Prop where
  keeps : ∀ {c a c'}, r c = .ok a c' → c'.rest.length ≤ c.rest.length

instance {α : Type} (a : α) : Keeps (pure a : Reader α) := ⟨fun h => by cases h; exact Nat.le_refl _⟩

instance {α β : Type} (r : Reader α) (f : α → Reader β) [hr : Keeps r] [hf : ∀ a, Keeps (f a)] :
    Keeps (r >>= f) := by
  constructor
  intro c b c' h
  change EStateM.bind r f c = _ at h
  unfold EStateM.bind at h
  split at h
  · next a s hs => exact Nat.le_trans ((hf a).keeps h) (hr.keeps hs)
  · cases h

instance {α : Type} (p : Prop) [Decidable p] (r s : Reader α) [Keeps r] [Keeps s] :
    Keeps (if p then r else s) := by
  split <;> assumption

/-! ## Single tokens -/

def current : Reader Token := fun c => .ok c.current c

def following : Reader Token := fun c => .ok c.following c

def skip : Reader Unit := fun c => .ok () c.advance

def mark : Reader Nat := fun c => .ok c.read.length c

def sourceSince (mark : Nat) : Reader String := fun c => .ok (c.sourceSince mark) c

def discard (clause : String) : Reader Unit := fun c => .ok () { c with discarded := clause :: c.discarded }

/-- The current token is not one of those that may stand here. -/
def unexpected {α : Type} (expected : Expected) : Reader α := fun c =>
  .error ⟨.unexpected expected c.current.kind, c.current.span⟩ c

def fail {α : Type} (failure : ParseFailure) (span : Span) : Reader α := fun c => .error ⟨failure, span⟩ c

instance : Keeps current := ⟨fun h => by cases h; exact Nat.le_refl _⟩
instance : Keeps following := ⟨fun h => by cases h; exact Nat.le_refl _⟩
instance : Keeps skip := ⟨fun {c _ _} h => by cases h; exact c.length_advance⟩
instance : Keeps mark := ⟨fun h => by cases h; exact Nat.le_refl _⟩
instance (m : Nat) : Keeps (sourceSince m) := ⟨fun h => by cases h; exact Nat.le_refl _⟩
instance (clause : String) : Keeps (discard clause) := ⟨fun h => by cases h; exact Nat.le_refl _⟩
instance {α : Type} (e : Expected) : Keeps (unexpected e : Reader α) := ⟨fun h => by cases h⟩
instance {α : Type} (f : ParseFailure) (s : Span) : Keeps (fail f s : Reader α) := ⟨fun h => by cases h⟩

def atKind (k : TokenKind) : Reader Bool := return (← current).kind == k

def atKeyword (k : Keyword) : Reader Bool := return (← current).keyword? == some k

def atWord (w : String) : Reader Bool := return (← current).kind.isWord w

def expectKind (k : TokenKind) : Reader Unit := do
  if ← atKind k then skip else unexpected (.kind k)

def expectKeyword (k : Keyword) : Reader Unit := do
  if ← atKeyword k then skip else unexpected (.keyword k)

def expectWord (w : String) : Reader Unit := do
  if ← atWord w then skip else unexpected (.word w)

/-- The name that a token spells: names with or without quotes, string literals and keywords are names. -/
def nameOf? (t : Token) : Option String :=
  match t.kind with
  | .identifier name | .string name => some name
  | .keyword _ => some (String.ofList t.text)
  | _ => none

def expectName : Reader String := do
  match nameOf? (← current) with
  | some name => skip; return name
  | none => unexpected .name

instance (k : TokenKind) : Keeps (atKind k) := by unfold atKind; infer_instance
instance (k : Keyword) : Keeps (atKeyword k) := by unfold atKeyword; infer_instance
instance (w : String) : Keeps (atWord w) := by unfold atWord; infer_instance
instance (k : TokenKind) : Keeps (expectKind k) := by unfold expectKind; infer_instance
instance (k : Keyword) : Keeps (expectKeyword k) := by unfold expectKeyword; infer_instance
instance (w : String) : Keeps (expectWord w) := by unfold expectWord; infer_instance

instance : Keeps expectName := by
  unfold expectName
  have (t : Token) : Keeps (match nameOf? t with
      | some name => do skip; return name
      | none => unexpected .name : Reader String) := by split <;> infer_instance
  infer_instance

/-! ## Balanced text -/

/-- How many parentheses are open after a token, if `depth` are open before it. -/
def depthAfter (depth : Nat) : TokenKind → Nat
  | .leftParen => depth + 1
  | .rightParen => depth - 1
  | _ => depth

/-- The tokens before the first one outside parentheses that satisfies `stop`, or before the end. -/
def takeBalanced (stop : TokenKind → Bool) (depth : Nat) : List Token → List Token × List Token
  | [] => ([], [])
  | t :: ts =>
    if t.kind.isEnd || (depth == 0 && stop t.kind) then ([], t :: ts)
    else
      let (inside, rest) := takeBalanced stop (depthAfter depth t.kind) ts
      (t :: inside, rest)

theorem takeBalanced_append (stop : TokenKind → Bool) (depth : Nat) (ts : List Token) :
    (takeBalanced stop depth ts).1 ++ (takeBalanced stop depth ts).2 = ts := by
  induction ts generalizing depth with
  | nil => rfl
  | cons t ts ih =>
    rw [takeBalanced]
    split
    · rfl
    · simp [ih]

/-- Reads up to a closing parenthesis that belongs to no parenthesis inside, and leaves it. -/
def inside : Reader (List Token) := fun c =>
  let (taken, rest) := takeBalanced (· == .rightParen) 0 c.rest
  let c := c.jump taken rest
  if c.current.kind.isEnd then .error ⟨.unexpected .closing c.current.kind, c.current.span⟩ c
  else .ok taken c

/-- Reads a group in parentheses, both of them included. -/
def parenthesized : Reader Unit := do
  expectKind .leftParen
  let _ ← inside
  skip

/-- Reads up to the comma or parenthesis that ends a definition. -/
def toNextDefinition : Reader Unit := fun c =>
  let (taken, rest) := takeBalanced (fun k => k == .comma || k == .rightParen) 0 c.rest
  let c := c.jump taken rest
  if c.current.kind.isEnd then .error ⟨.unexpected .closing c.current.kind, c.current.span⟩ c
  else .ok () c

theorem length_takeBalanced (stop : TokenKind → Bool) (depth : Nat) (ts : List Token) :
    (takeBalanced stop depth ts).2.length ≤ ts.length := by
  have h := congrArg List.length (takeBalanced_append stop depth ts)
  simp only [List.length_append] at h
  omega

instance : Keeps inside := by
  constructor
  intro c a c' h
  unfold inside at h
  simp only at h
  split at h
  · cases h
  · cases h; exact length_takeBalanced ..

instance : Keeps toNextDefinition := by
  constructor
  intro c a c' h
  unfold toNextDefinition at h
  simp only at h
  split at h
  · cases h
  · cases h; exact length_takeBalanced ..

instance : Keeps parenthesized := by unfold parenthesized; infer_instance

/-! ## Loops -/

/-- What one turn of a loop comes to. -/
inductive Turn (α β : Type) where
  | again (a : α)
  | done (b : β)

/-- A turn that asks for another one has taken a token. -/
class Progresses {α β : Type} (r : Reader (Turn α β)) : Prop where
  progresses : ∀ {c a c'}, r c = .ok (.again a) c' → c'.rest.length < c.rest.length

instance {α β : Type} (b : β) : Progresses (pure (.done b) : Reader (Turn α β)) := ⟨fun h => by cases h⟩

instance {α β γ : Type} (r : Reader γ) (f : γ → Reader (Turn α β)) [hr : Keeps r] [hf : ∀ a, Progresses (f a)] :
    Progresses (r >>= f) := by
  constructor
  intro c b c' h
  change EStateM.bind r f c = _ at h
  unfold EStateM.bind at h
  split at h
  · next a s hs => exact Nat.lt_of_lt_of_le ((hf a).progresses h) (hr.keeps hs)
  · cases h

instance {α β : Type} (p : Prop) [Decidable p] (r s : Reader (Turn α β)) [Progresses r] [Progresses s] :
    Progresses (if p then r else s) := by
  split <;> assumption

/-- Repeats `step` until it is done. -/
def loop {α β : Type} (step : α → Reader (Turn α β)) [∀ a, Progresses (step a)] (a : α) : Reader β := fun c =>
  match _h : step a c with
  | .ok (.again a') c' => loop step a' c'
  | .ok (.done b) c' => .ok b c'
  | .error e c' => .error e c'
termination_by c => c.rest.length
decreasing_by exact Progresses.progresses _h

instance {α β : Type} (step : α → Reader (Turn α β)) [∀ a, Progresses (step a)] [hs : ∀ a, Keeps (step a)]
    (a : α) : Keeps (loop step a) := by
  constructor
  intro c b c' h
  induction hn : c.rest.length using Nat.strongRecOn generalizing a c with
  | ind n ih =>
    subst hn
    rw [loop] at h
    split at h
    · next a₁ c₁ h₁ =>
      have hlt := Progresses.progresses h₁
      exact Nat.le_of_lt (Nat.lt_of_le_of_lt (ih _ hlt a₁ h rfl) hlt)
    · next h₁ => cases h; exact (hs a).keeps h₁
    · cases h

/-- A reader that takes the current token and then keeps takes at least one, short of the end. -/
theorem length_skip_bind {α : Type} {r : Reader α} [hr : Keeps r] {c c' : Cursor} {a : α}
    (hc : c.current.kind ≠ .eof) (h : (skip >>= fun _ => r) c = .ok a c') : c'.rest.length < c.rest.length :=
  Nat.lt_of_le_of_lt (hr.keeps h) (Cursor.length_advance_lt hc)

/-- Asks for another turn if a comma follows, and takes the comma. -/
def turnAtComma {α : Type} (a : α) : Reader (Turn α α) := fun c =>
  if c.current.kind = .comma then .ok (.again a) c.advance else .ok (.done a) c

instance {α : Type} (a : α) : Progresses (turnAtComma a) := by
  constructor
  intro c a' c' h
  unfold turnAtComma at h
  split at h
  · next hk => cases h; exact Cursor.length_advance_lt (by simp [hk])
  · cases h

instance {α : Type} (a : α) : Keeps (turnAtComma a) := by
  constructor
  intro c a' c' h
  unfold turnAtComma at h
  split at h <;> cases h
  · exact c.length_advance
  · exact Nat.le_refl _

end Reader

end SchemaEditor
