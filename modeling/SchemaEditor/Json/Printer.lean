import SchemaEditor.Json.Value

/-!
# Printing JSON

Objects and arrays are written over several lines, with two blanks for each level. A string is escaped no
more than JSON asks for.
-/

namespace SchemaEditor.Json

def escapeChar (c : Char) : List Char :=
  if c = '"' then ['\\', '"']
  else if c = '\\' then ['\\', '\\']
  else if c = '\n' then ['\\', 'n']
  else if c = '\t' then ['\\', 't']
  else if c = '\r' then ['\\', 'r']
  else if c = '\x08' then ['\\', 'b']
  else if c = '\x0c' then ['\\', 'f']
  else if c.toNat < 0x20 then
    ['\\', 'u', '0', '0'] ++ (if c.toNat < 0x10 then ['0'] else []) ++ Nat.toDigits 16 c.toNat
  else [c]

def quoted (s : String) : String := String.ofList ('"' :: s.toList.flatMap escapeChar ++ ['"'])

def indentation (depth : Nat) : String := "\n" ++ String.ofList (List.replicate (2 * depth) ' ')

/-- The elements of an array or object between its brackets, each on a line of its own. -/
def block (left right : String) (depth : Nat) (elements : List String) : String :=
  if elements.isEmpty then left ++ right
  else
    left ++ ",".intercalate (elements.map fun e => indentation (depth + 1) ++ e) ++ indentation depth ++ right

mutual

def print (depth : Nat) : Json → String
  | .null => "null"
  | .bool b => if b then "true" else "false"
  | .number literal => literal
  | .text s => quoted s
  | .array items => block "[" "]" depth (printItems (depth + 1) items)
  | .object members => block "\x7b" "\x7d" depth (printMembers (depth + 1) members)

def printItems (depth : Nat) : List Json → List String
  | [] => []
  | v :: vs => print depth v :: printItems depth vs

def printMembers (depth : Nat) : List (String × Json) → List String
  | [] => []
  | (name, v) :: ms => (quoted name ++ ": " ++ print depth v) :: printMembers depth ms

end

end SchemaEditor.Json
