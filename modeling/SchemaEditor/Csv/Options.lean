/-!
# Formats of delimited text

Separator and quote are single characters, and either may be absent. The newline is written after every
record; reading takes the line ends of the file as they are.
-/

namespace SchemaEditor.Csv

structure Options where
  /-- Whether the first record holds column names. -/
  header : Bool := true
  separator : Option Char := some ','
  quote : Option Char := some '"'
  newline : String := "\n"
deriving DecidableEq, Repr, Inhabited

end SchemaEditor.Csv
