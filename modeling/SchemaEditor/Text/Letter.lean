import SchemaEditor.Text.Alphabetic
import SchemaEditor.Text.Numeric
import SchemaEditor.Text.Ranges

/-!
# Letters and digits

The classes a name is made of: `isAlphabetic` is the Unicode property Alphabetic, `isAlphanumeric` adds
the general categories Nd, Nl and No. On ASCII both agree with core's classes, which the lexer's laws use.
-/

namespace SchemaEditor.Text

def isAlphabetic (c : Char) : Bool :=
  if c.toNat < 0x80 then c.isAlpha else inRanges alphabeticRanges c.toNat

def isNumeric (c : Char) : Bool :=
  if c.toNat < 0x80 then c.isDigit else inRanges numericRanges c.toNat

def isAlphanumeric (c : Char) : Bool := isAlphabetic c || isNumeric c

theorem isAlphabetic_of_ascii {c : Char} (h : c.toNat < 0x80) : isAlphabetic c = c.isAlpha := by
  simp [isAlphabetic, h]

theorem isNumeric_of_ascii {c : Char} (h : c.toNat < 0x80) : isNumeric c = c.isDigit := by
  simp [isNumeric, h]

theorem isAlphanumeric_of_ascii {c : Char} (h : c.toNat < 0x80) : isAlphanumeric c = c.isAlphanum := by
  simp [isAlphanumeric, isAlphabetic_of_ascii h, isNumeric_of_ascii h, Char.isAlphanum]

theorem isAlphanumeric_of_isAlphabetic {c : Char} (h : isAlphabetic c = true) : isAlphanumeric c = true := by
  simp [isAlphanumeric, h]

end SchemaEditor.Text
