import SchemaEditor.Command.Files
import SchemaEditor.Table.ParseError

/-!
# Failures of commands

Why a command failed, as the user is told: the failure, and below it what caused it.
-/

namespace SchemaEditor.Command

inductive Failure where
  | database (e : SchemaError)
  | noObject (name : String)
  | notOneColumn (definition : String)
  | invalidColumns (definitions : String) (e : ParseError)
  | cannotOpen (path : String) (e : FileError)
  | cannotCreate (path : String) (e : FileError)
  | cannotRead (path : String) (e : FileError)
  | standardInput (e : FileError)

namespace Failure

def message : Failure → String
  | database e => e.message
  | noObject name => "no object named '" ++ name ++ "'"
  | notOneColumn definition => "expected exactly one column definition, got '" ++ definition ++ "'"
  | invalidColumns definitions _ => "invalid column definition in: " ++ definitions
  | cannotOpen path _ => "cannot open " ++ path
  | cannotCreate path _ => "cannot create " ++ path
  | cannotRead path _ => "cannot read " ++ path
  | standardInput e => e.message

def causes : Failure → List String
  | database e => e.causes
  | invalidColumns _ e => [e.message]
  | cannotOpen _ e | cannotCreate _ e | cannotRead _ e => [e.message]
  | noObject _ | notOneColumn _ | standardInput _ => []

/-- A cause, with each of its lines indented. -/
def indented (cause : String) : String := "\n    ".intercalate (cause.splitOn "\n")

/-- What is written to the error output. -/
def report (f : Failure) : String :=
  "Error: " ++ f.message ++ (match f.causes with
    | [] => ""
    | causes => "\n\nCaused by:" ++ String.join (causes.map fun c => "\n    " ++ indented c)) ++ "\n"

end Failure

end SchemaEditor.Command
