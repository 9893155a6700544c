import SchemaEditor.Store.Mutation
import SchemaEditor.Store.Setting

/-!
# Connections to a store

A connection has the content as its statements see it, the transaction that is open on it, if any, and its
settings. Savepoints nest: each holds the content as it was when it was opened. A savepoint outside a
transaction opens one, which ends with it. A transaction cannot end while rows refer to nothing that its statements
made so.
-/

namespace SchemaEditor.Store

structure Savepoint where
  name : String
  /-- The content when it was opened. -/
  content : Content
  /-- The violations that were open then. -/
  violations : Nat

structure Transaction where
  /-- The content before the transaction. -/
  base : Content
  /-- Whether it was opened by BEGIN, and not by a savepoint. -/
  explicit : Bool
  /-- The innermost first. -/
  savepoints : List Savepoint

structure State where
  content : Content := {}
  /-- Whether the file was emptied by other means, and no statement was run since. -/
  emptied : Bool := false
  transaction : Option Transaction := none
  /-- How many more rows refer to nothing after the statements of the transaction, by the references that are checked
  when it ends. -/
  violations : Nat := 0
  access : Access := {}
  foreignKeys : Bool := false
  /-- Whether all references are checked only when the transaction ends. -/
  deferForeignKeys : Bool := false
  legacyAlter : Bool := false
  recursiveTriggers : Bool := false
  /-- Other settings, as far as they were set. -/
  settings : List (String × Value) := []
  counts : Counts := {}

namespace State

/-- The connection as a statement finds it that is run. One that is only looked at does not reach the file. -/
def reread (s : State) : State := if s.emptied then { s with content := {}, emptied := false } else s

/-! ## Settings -/

/-- The value of one of the other settings. -/
def setting? (s : State) (name : String) : Option Value :=
  ((s.settings.find? fun (n, _) => sameName n name).map Prod.snd).orElse fun _ =>
    (Setting.find? name).map Setting.initial

def isOn (s : State) (name : String) : Bool := s.setting? name == some (Setting.ofBool true)

/-- Whether nothing was ever kept. -/
def isNew (s : State) : Bool :=
  s.content.schemaVersion == 0 && s.content.userVersion == 0 && s.content.applicationId == 0

/-- The conditions that statements run under. -/
def stage (s : State) : Stage where
  enforce := s.foreignKeys
  recursive := s.recursiveTriggers
  checks := !s.isOn "ignore_check_constraints"

/-! ## Transactions -/

def savepoints (s : State) : List Savepoint := (s.transaction.map Transaction.savepoints).getD []

def openSavepoint (s : State) (name : String) : State :=
  let p : Savepoint := ⟨name, s.content, s.violations⟩
  match s.transaction with
  | none => { s with transaction := some ⟨s.content, false, [p]⟩ }
  | some t => { s with transaction := some { t with savepoints := p :: t.savepoints } }

/-- The savepoints from the innermost one of a name outwards. -/
def fromSavepoint (s : State) (name : String) : List Savepoint := s.savepoints.dropWhile fun p => !sameName p.name name

/-- The number of rows that refer to nothing, by the references that are checked at the end of a transaction. -/
def dangling (s : State) (c : Content) : Nat :=
  c.danglingCount true + if s.deferForeignKeys then c.danglingCount false else 0

/-- The violations that are open after a statement on rows. -/
def violationsAfter (s : State) (after : Content) : Nat :=
  if s.foreignKeys && s.transaction.isSome then s.violations + s.dangling after - s.dangling s.content else 0

/-- Ends a transaction, if its references are sound. -/
def finish (s : State) : Except Failure State :=
  if s.foreignKeys && s.violations != 0 then .error .foreignKey
  else .ok { s with transaction := none, violations := 0, deferForeignKeys := false }

def release (s : State) (name : String) : Except Failure State :=
  match s.transaction, s.fromSavepoint name with
  | some t, _ :: rest =>
    if rest.isEmpty && !t.explicit then s.finish
    else .ok { s with transaction := some { t with savepoints := rest } }
  | _, _ => .error (.noSuchSavepoint name)

def rollbackTo (s : State) (name : String) : Except Failure State :=
  match s.transaction, s.fromSavepoint name with
  | some t, p :: rest =>
    .ok { s with
      content := p.content
      violations := p.violations
      transaction := some { t with savepoints := p :: rest } }
  | _, _ => .error (.noSuchSavepoint name)

def begin (s : State) : Except Failure State :=
  match s.transaction with
  | some _ => .error .transactionOpen
  | none => .ok { s with transaction := some ⟨s.content, true, []⟩ }

def commit (s : State) : Except Failure State :=
  match s.transaction with
  | some _ => s.finish
  | none => .error (.noTransaction "commit")

/-- The connection with the content that it had before the transaction. -/
def abandon (s : State) : State :=
  match s.transaction with
  | some t => { s with content := t.base, transaction := none, violations := 0, deferForeignKeys := false }
  | none => s

def rollback (s : State) : Except Failure State :=
  if s.transaction.isSome then .ok s.abandon else .error (.noTransaction "rollback")

/-- Rewrites the file, which changes nothing that can be asked for. -/
def vacuum (s : State) : Except Failure State :=
  if s.transaction.isSome then .error (.invalid "cannot VACUUM from within a transaction")
  else .ok { s with content := { s.content with schemaVersion := s.content.schemaVersion + 1 } }

/-! ## Values of settings -/

/-- How changes are kept until they are final. -/
def journalMode (s : State) : Value :=
  (s.settings.lookup "journal_mode").getD (.text (if s.access.isFile then "delete" else "memory"))

/-- Changes how changes are kept, outside a transaction. Without a file there is less choice. -/
def setJournalMode (s : State) (value : String) : State :=
  let modes := if s.access.isFile then ["delete", "truncate", "persist", "memory", "off", "wal"] else ["memory", "off"]
  match modes.find? (sameName value), s.transaction with
  | some mode, none => { s with settings := ("journal_mode", .text mode) :: s.settings }
  | _, _ => s

/-- Changes where temporary objects are kept. Those that there are go with their place. -/
def setTempStore (s : State) (value : String) : State :=
  let place : Value := .integer (Setting.readPlace value)
  if s.setting? "temp_store" = some place then s
  else { s with content := s.content.withoutTemporary, settings := ("temp_store", place) :: s.settings }

/-- The number of pages, if each table and index takes one besides that of the list of objects. -/
def pageCount (s : State) : Nat :=
  if s.isNew then 0
  else ((s.content.listing false).filter fun r => r.kind == "table" || r.kind == "index").length + 1

/-- The value of a setting; an unknown one has none. -/
def pragma? (s : State) (name : String) : Option Value :=
  if sameName name "foreign_keys" then some (Setting.ofBool s.foreignKeys)
  else if sameName name "legacy_alter_table" then some (Setting.ofBool s.legacyAlter)
  else if sameName name "recursive_triggers" then some (Setting.ofBool s.recursiveTriggers)
  else if sameName name "defer_foreign_keys" then some (Setting.ofBool s.deferForeignKeys)
  else if sameName name "journal_mode" then some s.journalMode
  else if sameName name "page_count" then some (.integer s.pageCount)
  else if sameName name "schema_version" then some (.integer s.content.schemaVersion)
  else if sameName name "user_version" then some (.integer s.content.userVersion)
  else if sameName name "application_id" then some (.integer s.content.applicationId)
  else s.setting? name

/-- Changes a setting. Foreign keys cannot be switched inside a transaction, and an unknown setting does
nothing. -/
def setPragma (s : State) (name value : String) : State :=
  if sameName name "foreign_keys" then
    if s.transaction.isNone then { s with foreignKeys := Setting.readSwitch value } else s
  else if sameName name "legacy_alter_table" then { s with legacyAlter := Setting.readSwitch value }
  else if sameName name "recursive_triggers" then { s with recursiveTriggers := Setting.readSwitch value }
  else if sameName name "defer_foreign_keys" then { s with deferForeignKeys := Setting.readSwitch value }
  else if sameName name "journal_mode" then s.setJournalMode value
  else if sameName name "temp_store" then s.setTempStore value
  else if sameName name "schema_version" then
    { s with content := { s.content with schemaVersion := Setting.readNumber value } }
  else if sameName name "user_version" then
    { s with content := { s.content with userVersion := Setting.readNumber value } }
  else if sameName name "application_id" then
    { s with content := { s.content with applicationId := Setting.readNumber value } }
  else
    match Setting.find? name with
    | some setting =>
      match setting.read value with
      | some v => if setting.isLasting && !s.isNew then s else { s with settings := (name, v) :: s.settings }
      | none => s
    | none => s

end State

end SchemaEditor.Store
