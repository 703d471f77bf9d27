import Provisioning.Value.Shown

namespace Provisioning.Log

def levelNames : List (String × Int) :=
  [("CRITICAL", 50), ("FATAL", 50), ("ERROR", 40), ("WARN", 30), ("WARNING", 30), ("INFO", 20),
    ("DEBUG", 10), ("NOTSET", 0)]

def info : Int := 20

def warning : Int := 30

def error : Int := 40

def levelText (level : Int) : String :=
  if level = 50 then "CRITICAL"
  else if level = 40 then "ERROR"
  else if level = 30 then "WARNING"
  else if level = 20 then "INFO"
  else if level = 10 then "DEBUG"
  else if level = 0 then "NOTSET"
  else s!"Level {level}"

inductive LevelError where
  | unknown (name : String)
  | notLevel (got : Value)

def LevelError.message : LevelError → String
  | unknown name => "Unknown level: " ++ (Value.str name).inspected
  | notLevel got => "Level not an integer or a valid string: " ++ got.display

def readLevel : Value → Except LevelError Int
  | .int n => .ok n
  | .bool b => .ok (if b then 1 else 0)
  | .str name =>
    match levelNames.lookup name with
    | some n => .ok n
    | none => .error (.unknown name)
  | v => .error (.notLevel v)

end Provisioning.Log
