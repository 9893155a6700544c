/-!
# JSON values

The values of a JSON text. Numbers are kept as written.
-/

namespace SchemaEditor

inductive Json where
  | null
  | bool (b : Bool)
  | number (literal : String)
  | text (s : String)
  | array (items : List Json)
  | object (members : List (String × Json))

namespace Json

def text? : Json → Option String
  | text s => some s
  | _ => none

def items? : Json → Option (List Json)
  | array items => some items
  | _ => none

end Json

end SchemaEditor
