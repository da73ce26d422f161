import Conform.Session

/-!
The log. A line is kept if its level reaches the level of the session.
-/
namespace Conform.Logging

/-- The severity of a log line. -/
inductive Severity where
  | debug
  | info
  | warning
  deriving DecidableEq

def Severity.rank : Severity → Int
  | .debug => 10
  | .info => 20
  | .warning => 30

def Severity.name : Severity → String
  | .debug => "DEBUG"
  | .info => "INFO"
  | .warning => "WARNING"

/-- The name under which the lines appear. -/
def loggerName : String := "castiron"

/-- The levels that a session can be set to. -/
def levels : List Int := [10, 20, 30, 40, 50]

def levelName : Int → String
  | 10 => "DEBUG"
  | 20 => "INFO"
  | 30 => "WARNING"
  | 40 => "ERROR"
  | 50 => "CRITICAL"
  | n => "Level " ++ toString n

def line (severity : Severity) (message : String) : String :=
  severity.name ++ ":" ++ loggerName ++ ": " ++ message

def record (severity : Severity) (message : String) : Act Unit :=
  modify fun s =>
    if s.level ≤ severity.rank then { s with log := s.log ++ [line severity message] } else s

/-- Records a trace line. The text is only worked out when it will be kept, since working it out reads
the heap and may fail. -/
def trace (message : Look String) : Act Unit := do
  if (← get).level ≤ Severity.debug.rank then
    record .debug ("TRACE " ++ (← message))

end Conform.Logging
