import SchemaEditor.Name
import SchemaEditor.Text.Blank

/-!
# Columns

The definition of one column. Type, default value and check are kept as SQL text, and an empty text
stands for a part that is not there.
-/

namespace SchemaEditor

structure Field where
  name : String := ""
  sqlType : String := ""
  notNull : Bool := false
  primaryKey : Bool := false
  autoIncrement : Bool := false
  unique : Bool := false
  defaultValue : String := ""
  check : String := ""
deriving DecidableEq, Repr, Inhabited

namespace Field

def asNotNull (f : Field) : Field := { f with notNull := true }

def asPrimaryKey (f : Field) : Field := { f with primaryKey := true }

/-- A column that counts up is a primary key. -/
def asAutoIncrement (f : Field) : Field := { f with autoIncrement := true, primaryKey := true }

def asUnique (f : Field) : Field := { f with unique := true }

def renamed (f : Field) (name : String) : Field := { f with name := name }

def isNamed (f : Field) (name : String) : Bool := sameName f.name name

/-- A column of exactly this type can stand for the row number. -/
def isInteger (f : Field) : Bool := sameName (Text.trimmed f.sqlType) "integer"

end Field

end SchemaEditor
