/-!
# Spans

A span is a range of byte offsets into the UTF-8 form of a text. `Span.slice` gives the text of a span;
a span that is reversed, out of range or cuts a character in two has the empty text.
-/

namespace SchemaEditor

/-- The number of bytes of a text in UTF-8. -/
def byteLength : List Char → Nat
  | [] => 0
  | c :: cs => c.utf8Size + byteLength cs

@[simp] theorem byteLength_nil : byteLength [] = 0 := rfl

@[simp] theorem byteLength_cons (c : Char) (cs : List Char) :
    byteLength (c :: cs) = c.utf8Size + byteLength cs := rfl

@[simp] theorem byteLength_append (cs ds : List Char) :
    byteLength (cs ++ ds) = byteLength cs + byteLength ds := by
  induction cs with
  | nil => simp
  | cons c cs ih => simp [ih, Nat.add_assoc]

/-- Cuts a text at a byte offset, if a character ends there. -/
def cutAtByte : Nat → List Char → Option (List Char × List Char)
  | 0, cs => some ([], cs)
  | _ + 1, [] => none
  | n + 1, c :: cs =>
    if c.utf8Size ≤ n + 1 then (cutAtByte (n + 1 - c.utf8Size) cs).map fun (l, r) => (c :: l, r) else none

theorem cutAtByte_append (cs ds : List Char) : cutAtByte (byteLength cs) (cs ++ ds) = some (cs, ds) := by
  induction cs with
  | nil => simp [cutAtByte]
  | cons c cs ih =>
    have hc : 0 < c.utf8Size := c.utf8Size_pos
    obtain ⟨n, hn⟩ : ∃ n, byteLength (c :: cs) = n + 1 := ⟨c.utf8Size + byteLength cs - 1, by simp; omega⟩
    have hle : c.utf8Size ≤ n + 1 := by rw [← hn]; simp
    have hsub : n + 1 - c.utf8Size = byteLength cs := by rw [← hn]; simp
    simp [hn, cutAtByte, hle, hsub, ih]

structure Span where
  start : Nat
  stop : Nat
deriving DecidableEq, Repr, Inhabited

namespace Span

def length (s : Span) : Nat := s.stop - s.start

def isEmpty (s : Span) : Bool := s.start == s.stop

/-- From the start of one span to the end of another. -/
def through (first last : Span) : Span := ⟨first.start, last.stop⟩

def slice (s : Span) (text : List Char) : List Char :=
  if s.start ≤ s.stop then
    match cutAtByte s.start text with
    | some (_, rest) => ((cutAtByte (s.stop - s.start) rest).map Prod.fst).getD []
    | none => []
  else []

/-- A span that starts and ends between characters has the text between them. -/
theorem slice_append (cs ds es : List Char) :
    slice ⟨byteLength cs, byteLength cs + byteLength ds⟩ (cs ++ ds ++ es) = ds := by
  have h : cutAtByte (byteLength cs) (cs ++ (ds ++ es)) = some (cs, ds ++ es) := cutAtByte_append ..
  simp [slice, h, cutAtByte_append]

end Span

end SchemaEditor
