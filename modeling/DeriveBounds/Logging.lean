import DeriveBounds.Event

/-!
Rendering of log events, one a line.
-/
namespace DeriveBounds

/-- Whether debug events are shown, and whether lines are JSON. -/
structure Logging where
  verbose : Bool := false
  json : Bool := false
  deriving DecidableEq, Repr

def loggerName : String := "boundgen"

/-- Sets a key of a record; a new key comes last. -/
def putEntry (key : String) (value : Value) : List (String × Value) → List (String × Value)
  | [] => [(key, value)]
  | entry :: rest =>
    if entry.1 = key then (key, value) :: rest else entry :: putEntry key value rest

/-- The fields that are taken out before anything is written. -/
def unrecordedKeys : List String := ["stack_info", "_record"]

/-- The record of an event: its own fields, then what is known of every event. -/
def Event.record (event : Event) : List (String × Value) :=
  let fields := event.fields.filter fun entry => !unrecordedKeys.contains entry.1
  putEntry "logger" (.text loggerName) <|
    putEntry "level" (.text event.level.name) <|
      putEntry "event" (.text event.name) fields

/-- Texts are written bare, unless a reader could not tell where they end. -/
def bareOrQuoted (text : String) : String :=
  if text.toList.any ([' ', '\t', '=', '\r', '\n', '"', '\x27'].contains ·) then Text.quoted text
  else text

def Value.consoleText : Value → String
  | .text value => bareOrQuoted value
  | value => value.shown

/-- The keys a line shows in a place of its own, then those that are shown below it or decide what
is. -/
def standingKeys : List String := [
  "event", "level", "logger", "logger_name", "timestamp", "stack", "exception", "exc_info"]

/-- A stack and an exception follow on lines of their own. A rule ends the stack where there is an
exception or `exc_info` asks for the current one; there never is a current one. -/
def Event.below (event : Event) : String :=
  let asked := (event.fields.lookup "exc_info").any Value.isTruthy
  let exception? := (event.fields.lookup "exception").bind Value.text?
  let rule := "\n\n" ++ String.ofList (List.replicate 79 '=') ++ "\n"
  let stack := match (event.fields.lookup "stack").bind Value.text? with
    | some stack => "\n" ++ stack ++ (if asked || exception?.isSome then rule else "")
    | none => ""
  let exception := match exception? with
    | some exception => "\n" ++ exception
    | none => ""
  stack ++ exception

def Event.console (stamp : String) (event : Event) : String :=
  let own := event.record.filter fun entry => !standingKeys.contains entry.1
  let sorted := own.mergeSort fun first second => !(second.1 < first.1)
  let second := match event.fields.lookup "logger_name" with
    | some name => " [" ++ (name.text?.getD name.shown) ++ "]"
    | none => ""
  stamp ++ " [" ++ Text.padRight 9 event.level.name ++ "] " ++ Text.padRight 30 event.name ++
    " [" ++ loggerName ++ "]" ++ second ++
    Text.join "" (sorted.map fun entry => " " ++ entry.1 ++ "=" ++ entry.2.consoleText) ++
    event.below

def Event.jsonLine (stamp : String) (event : Event) : String :=
  (Value.dict (putEntry "timestamp" (.text stamp) event.record)).json

namespace Logging

/-- Warnings and errors are always shown, other events only where `verbose` asks for them. -/
def shows (logging : Logging) (event : Event) : Bool :=
  logging.verbose ||
    match event.level with
    | .debug | .info => false
    | .warning | .error | .critical => true

def line (logging : Logging) (stamp : String) (event : Event) : String :=
  (if logging.json then event.jsonLine stamp else event.console stamp) ++ "\n"

end Logging

end DeriveBounds
