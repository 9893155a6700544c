import SchemaEditor.Text.Blank

/-!
# SQL in logs

A statement is logged with its control characters replaced, blanks excepted, and cut if it is very long.
-/

namespace SchemaEditor.Text

def loggedLimit : Nat := 2048

def isControl (c : Char) : Bool := decide (c.toNat < 0x20) || (decide (0x7F ≤ c.toNat) && decide (c.toNat ≤ 0x9F))

def loggedChar (c : Char) : Char := if isControl c && !isBlank c then '\uFFFD' else c

def logged (sql : String) : String :=
  String.ofList ((sql.toList.take loggedLimit).map loggedChar)
    ++ (if loggedLimit < sql.length then " [...]" else "")

end SchemaEditor.Text
