import Provisioning.ChangeSet
import Provisioning.Log.Level

namespace Provisioning.Log

structure Line where
  logger : String
  level : Int
  message : String
  extra : Value.Fields

def rootLogger : String := "root"

/-- Names that a line keeps for itself; no extra field may have one of them. -/
def reserved : List String :=
  ["message", "asctime", "name", "msg", "args", "levelname", "levelno", "pathname", "filename",
    "module", "exc_info", "exc_text", "stack_info", "lineno", "funcName", "created", "msecs",
    "relativeCreated", "thread", "threadName", "processName", "process", "taskName"]

def isWritten (key : String) : Bool :=
  !(["level", "service", "timestamp"].contains key) && !(key.startsWith "_")

def Line.record (service : String) (l : Line) : Value.Fields :=
  [("name", .str l.logger), ("message", .str l.message)]
    ++ l.extra.filter (fun f ↦ isWritten f.1)
    ++ [("level", .str (levelText l.level)), ("service", .str service)]

def isEmitted (threshold level : Int) : Bool := 0 < level && threshold ≤ level

structure Clash where
  key : String
  deriving DecidableEq, Repr

def Clash.message (c : Clash) : String := "Attempt to overwrite '" ++ c.key ++ "' in LogRecord"

/-- What is written of lines, up to the first line that cannot be. -/
def emit (threshold : Int) : List Line → Except Clash (List Line)
  | [] => .ok []
  | l :: lines =>
    if isEmitted threshold l.level then
      match l.extra.keys.find? fun key ↦ reserved.contains key with
      | some key => .error ⟨key⟩
      | none => (emit threshold lines).map (l :: ·)
    else emit threshold lines

def completed (action : String) (criteriaId : Value) (changes : ChangeSet) (duration : Value) :
    Line where
  logger := rootLogger
  level := info
  message := "Provisioning criteria command completed"
  extra := [
    ("step", .str ("criteria_" ++ action)),
    ("criteria_id", criteriaId),
    ("changed_fields", .ofStrings changes.fields),
    ("duration_ms", duration)]

end Provisioning.Log
