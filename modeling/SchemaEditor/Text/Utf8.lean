import SchemaEditor.Text.Lines

/-!
# UTF-8

Bytes are cut into pieces: a character, or a maximal sequence of bytes that begins no character. The
strict reading accepts bytes without such a sequence, the lossy one puts U+FFFD in the place of each.
-/

namespace SchemaEditor.Text.Utf8

/-- What the first byte of a sequence asks for: how many bytes follow, which values the second byte may
have, and the bits that the first byte carries. -/
structure Lead where
  following : Nat
  lo : UInt8
  hi : UInt8
  bits : Nat

def lead? (b : UInt8) : Option Lead :=
  if b < 0x80 then some ⟨0, 0x80, 0xBF, b.toNat⟩
  else if b < 0xC2 then none
  else if b < 0xE0 then some ⟨1, 0x80, 0xBF, b.toNat - 0xC0⟩
  else if b = 0xE0 then some ⟨2, 0xA0, 0xBF, 0⟩
  else if b = 0xED then some ⟨2, 0x80, 0x9F, 0xD⟩
  else if b < 0xF0 then some ⟨2, 0x80, 0xBF, b.toNat - 0xE0⟩
  else if b = 0xF0 then some ⟨3, 0x90, 0xBF, 0⟩
  else if b < 0xF4 then some ⟨3, 0x80, 0xBF, b.toNat - 0xF0⟩
  else if b = 0xF4 then some ⟨3, 0x80, 0x8F, 4⟩
  else none

/-- Reads `n` more bytes of a sequence, the first of them within `lo` and `hi`. Stops before the first
byte that does not continue the sequence. -/
def continuation (n : Nat) (lo hi : UInt8) (bits : Nat) (bytes : List UInt8) : Option Nat × List UInt8 :=
  match n, bytes with
  | 0, bytes => (some bits, bytes)
  | _ + 1, [] => (none, [])
  | n + 1, b :: rest =>
    if lo ≤ b ∧ b ≤ hi then continuation n 0x80 0xBF (bits * 64 + b.toNat % 64) rest else (none, b :: rest)

theorem length_continuation (n : Nat) (lo hi : UInt8) (bits : Nat) (bytes : List UInt8) :
    (continuation n lo hi bits bytes).2.length ≤ bytes.length := by
  fun_induction continuation n lo hi bits bytes with
  | case1 => simp
  | case2 => simp
  | case3 _ _ _ n b rest h ih => exact Nat.le_trans ih (by simp)
  | case4 => simp

/-- One piece from the front of `b :: rest`, and the bytes after it. -/
def piece (b : UInt8) (rest : List UInt8) : Option Char × List UInt8 :=
  match lead? b with
  | none => (none, rest)
  | some l =>
    let (code, rest) := continuation l.following l.lo l.hi l.bits rest
    (code.map Char.ofNat, rest)

theorem length_piece (b : UInt8) (rest : List UInt8) : (piece b rest).2.length ≤ rest.length := by
  unfold piece
  split
  · simp
  · exact length_continuation ..

def pieces : List UInt8 → List (Option Char)
  | [] => []
  | b :: rest => (piece b rest).1 :: pieces (piece b rest).2
termination_by bytes => bytes.length
decreasing_by exact Nat.lt_succ_of_le (length_piece b rest)

/-- The text that the bytes spell, if they are UTF-8. -/
def decode? (bytes : List UInt8) : Option (List Char) := (pieces bytes).mapM id

def decodeLossy (bytes : List UInt8) : List Char := (pieces bytes).map fun c => c.getD '\uFFFD'

/-- The lines of a file, each read by itself: `none` stands for a line that is not UTF-8. -/
def lines (bytes : List UInt8) : List (Option (List Char)) :=
  (linesBy 0x0A 0x0D bytes).map decode?

end SchemaEditor.Text.Utf8
