/-!
# Keywords

The words that the grammar of table definitions, of triggers and of scripts turns on. A keyword is
recognised in any case, of ASCII letters only.
-/

namespace SchemaEditor

inductive Keyword where
  | create | table | view | index | trigger | select | as
  | temp | temporary | «if» | not | «exists»
  | constraint | primary | key | asc | desc | autoincrement | null | unique | check | default | collate
  | references | foreign | generated
  | on | conflict | rollback | abort | fail | ignore | replace
  | without
  | begin | case | «end»
deriving DecidableEq, Repr

namespace Keyword

/-- The word in upper case. -/
def word : Keyword → String
  | create => "CREATE"
  | table => "TABLE"
  | view => "VIEW"
  | index => "INDEX"
  | trigger => "TRIGGER"
  | select => "SELECT"
  | as => "AS"
  | temp => "TEMP"
  | temporary => "TEMPORARY"
  | «if» => "IF"
  | not => "NOT"
  | «exists» => "EXISTS"
  | constraint => "CONSTRAINT"
  | primary => "PRIMARY"
  | key => "KEY"
  | asc => "ASC"
  | desc => "DESC"
  | autoincrement => "AUTOINCREMENT"
  | null => "NULL"
  | unique => "UNIQUE"
  | check => "CHECK"
  | default => "DEFAULT"
  | collate => "COLLATE"
  | references => "REFERENCES"
  | foreign => "FOREIGN"
  | generated => "GENERATED"
  | on => "ON"
  | conflict => "CONFLICT"
  | rollback => "ROLLBACK"
  | abort => "ABORT"
  | fail => "FAIL"
  | ignore => "IGNORE"
  | replace => "REPLACE"
  | without => "WITHOUT"
  | begin => "BEGIN"
  | case => "CASE"
  | «end» => "END"

def all : List Keyword :=
  [create, table, view, index, trigger, select, as, temp, temporary, «if», not, «exists», constraint, primary,
   key, asc, desc, autoincrement, null, unique, check, default, collate, references, foreign, generated, on,
   conflict, rollback, abort, fail, ignore, replace, without, begin, case, «end»]

theorem mem_all (k : Keyword) : k ∈ all := by cases k <;> decide

/-- The keyword that a word spells. -/
def ofWord? (cs : List Char) : Option Keyword :=
  all.find? fun k => k.word.toList == cs.map Char.toUpper

theorem word_of_ofWord? {cs : List Char} {k : Keyword} (h : ofWord? cs = some k) :
    k.word.toList = cs.map Char.toUpper := by
  simpa using List.find?_some h

/-- The word with a capital first letter. -/
def capitalised (k : Keyword) : String := k.word.toLower.capitalize

end Keyword

end SchemaEditor
