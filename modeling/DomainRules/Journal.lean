import DomainRules.Notice
import DomainRules.Settings
import DomainRules.Text.LowerCase
import DomainRules.Value

namespace DomainRules

structure Journal where
  /-- The least grave severity that is shown; with an unknown one nothing is. -/
  threshold : Option LogLevel
  /-- Lines are single objects. -/
  isJson : Bool
  /-- Entries of every severity keep their stack trace. -/
  keepsTraces : Bool
  /-- The name of the running server, which goes into every entry. -/
  instanceId : Option String
  deriving DecidableEq, Repr

/-- An entry with its fields. The fields of the component that writes it stand apart, if one does. -/
structure LogEntry where
  level : LogLevel
  message : String
  fields : List (String × Value)
  component : Option (List (String × Value))

namespace Value

def eraseField (key : String) (fields : List (String × Value)) : List (String × Value) :=
  fields.filter (·.1 ≠ key)

/-- Whether a value counts as given: null, false, zero, no number and the empty text do not. -/
def isGiven : Value → Bool
  | null => false
  | bool b => b
  | number n => n ≠ .nan && n ≠ .finite 0
  | text s => s ≠ ""
  | _ => true

end Value

namespace Journal

def ofEnvironment (env : Environment) : Journal where
  threshold := LogLevel.ofLabel?
    (String.ofList (Text.lowerCase (env.text "LOG_LEVEL" "info").toList))
  isJson := env.text "LOG_FORMAT" "simple" = "json"
  keepsTraces := env.text "LOG_ALL_STACKTRACES" "false" = "true"
  instanceId := env.text? "INSTANCE_ID"

def shows (journal : Journal) (level : LogLevel) : Bool :=
  match journal.threshold with
  | some threshold => level.rank ≤ threshold.rank
  | none => false

/-- Whether a message has a place for a value. Such a message takes no fields. -/
def hasPlace : List Char → Bool
  | '%' :: c :: rest =>
    ['s', 'c', 'd', 'j', 'i', 'f', 'o', 'O', '%'].contains c || hasPlace (c :: rest)
  | _ :: rest => hasPlace rest
  | [] => false

def plainOf (value : Value) : Except Failure (List Char) :=
  match value.plain? with
  | some text => .ok text
  | none => .error .textless

def ownFields (entry : LogEntry) : List (String × Value) :=
  if hasPlace entry.message.toList then [] else entry.fields

/-- The message of an entry, with a message among its fields behind it. -/
def messageOf (entry : LogEntry) : Except Failure String :=
  match (ownFields entry).lookup "message" with
  | some more =>
    if more.isGiven then (plainOf more).map fun text => entry.message ++ " " ++ String.ofList text
    else .ok entry.message
  | none => .ok entry.message

/-- The fields in the background of an entry. What a component writes has only the background of
the component. -/
def backgroundOf (entry : LogEntry) : List (String × Value) :=
  match (entry.component.getD (ownFields entry)).lookup Value.background with
  | some (.record fields) => fields
  | _ => []

/-- The fields of an entry with its severity, its message and its time, in the order of their keys.
The fields of the entry come before the name of the server, and this before the fields of the
component. A time among them, or in the background, takes the place of the time of writing. -/
def fieldsOf (journal : Journal) (time message : String) (entry : LogEntry) :
    List (String × Value) :=
  let component := entry.component.getD []
  let named := match journal.instanceId with
    | some name => Value.insertField "instanceId" (.text name) component
    | none => Value.eraseField "instanceId" component
  let all := (ownFields entry).foldl
    (fun fields (key, value) => Value.insertField key value fields) named
  let shown := Value.eraseField Value.background all
  let kept :=
    if entry.level = .error ∨ journal.keepsTraces then shown else Value.eraseField "stack" shown
  let timed :=
    if (((kept.lookup "timestamp").or ((backgroundOf entry).lookup "timestamp")).any
      Value.isGiven) then kept
    else Value.insertField "timestamp" (.text time) kept
  Value.insertField "message" (.text message)
    (Value.insertField "level" (.text entry.level.label) timed)

/-- The space that the fields ask for in front of messages of a severity. -/
def paddingOf (level : LogLevel) (fields : List (String × Value)) : Except Failure (List Char) :=
  match fields.lookup "padding" with
  | some (.record widths) => match widths.lookup level.label with
    | some padding => if padding.isGiven then plainOf padding else .ok []
    | none => .ok []
  | _ => .ok []

def textOf (journal : Journal) (entry : LogEntry) (message : String)
    (fields : List (String × Value)) : Except Failure (List Char) :=
  if journal.isJson then .ok (Value.record fields).sorted.json
  else (paddingOf entry.level (fields ++ backgroundOf entry)).map fun padding =>
    let rest := fields.filter fun (key, _) => !(["level", "message", "splat"].contains key)
    let details := if rest.isEmpty then [] else ' ' :: (Value.record rest).sorted.json
    entry.level.label.toList ++ ':' :: (padding ++ ' ' :: (message.toList ++ details))

/-- The line of an entry that is written at some time, if it is shown. An entry for which there is
no text fails whether it is shown or not. -/
def line (journal : Journal) (time : String) (entry : LogEntry) :
    Except Failure (Option String) := do
  let message ← messageOf entry
  let text ← journal.textOf entry message (journal.fieldsOf time message entry)
  return if journal.shows entry.level then some (String.ofList text) else none

end Journal

end DomainRules
