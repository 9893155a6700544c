import SchemaEditor.Text.Hidden
import SchemaEditor.Text.Ranges

/-!
# Text inside messages

A message shows a text between double quotes, on one line and with nothing in it that a reader cannot
see: a quote, a backslash and the usual line controls have a two-character form, other hidden characters
are written by their code point.
-/

namespace SchemaEditor.Text

/-- The code point of `c` in lower-case hexadecimal between braces. -/
def codePointEscape (c : Char) : List Char :=
  ['\\', 'u', '\x7b'] ++ Nat.toDigits 16 c.toNat ++ ['\x7d']

def isHidden (c : Char) : Bool :=
  if c.toNat < 0x80 then decide (c.toNat < 0x20) || c.toNat == 0x7F else inRanges hiddenRanges c.toNat

def escapeChar (c : Char) : List Char :=
  if c = '"' then ['\\', '"']
  else if c = '\\' then ['\\', '\\']
  else if c = '\n' then ['\\', 'n']
  else if c = '\t' then ['\\', 't']
  else if c = '\r' then ['\\', 'r']
  else if c = '\x00' then ['\\', '0']
  else if isHidden c then codePointEscape c
  else [c]

def quoted (s : String) : String :=
  String.ofList ('"' :: s.toList.flatMap escapeChar ++ ['"'])

end SchemaEditor.Text
