/-!
# The log

Messages about what a run does, each with a level and the part of the program that it comes from. A
run shows the messages up to a chosen level.

* `Log.Entry.render`: a message as a line.
* `Log.upTo`: the messages that are shown at a level.
-/

namespace HouseStyle.Log

/-- How important a message is, the most important first. -/
inductive Level where
  | error
  | warn
  | info
  | debug
  | trace
  deriving DecidableEq, Repr

namespace Level

/-- Every level, the most important first. -/
def all : List Level := [.error, .warn, .info, .debug, .trace]

/-- The name of a level on the command line. -/
def name : Level → String
  | .error => "error"
  | .warn => "warn"
  | .info => "info"
  | .debug => "debug"
  | .trace => "trace"

/-- The level with the given name. -/
def ofName? (name : String) : Option Level := all.find? fun level => level.name == name

/-- How far down a level is. -/
def rank : Level → Nat
  | .error => 0
  | .warn => 1
  | .info => 2
  | .debug => 3
  | .trace => 4

/-- The name of a level in a line of the log, of fixed width. -/
def label : Level → String
  | .error => "ERROR"
  | .warn => "WARN "
  | .info => "INFO "
  | .debug => "DEBUG"
  | .trace => "TRACE"

/-- Whether messages of a level are shown when `chosen` is. -/
def isShown (chosen level : Level) : Bool := level.rank ≤ chosen.rank

end Level

/-- A message with its level and its origin. -/
structure Entry where
  level : Level
  target : String
  text : String
  deriving DecidableEq, Repr

/-- A message as a line. -/
def Entry.render (entry : Entry) : String :=
  "[" ++ entry.level.label ++ " " ++ entry.target ++ "] " ++ entry.text

/-- The messages that are shown at a level. -/
def upTo (chosen : Level) (entries : List Entry) : List Entry :=
  entries.filter fun entry => chosen.isShown entry.level

end HouseStyle.Log
