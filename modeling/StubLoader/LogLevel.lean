/-!
# Log levels
-/

namespace StubLoader

/-- How much is logged: messages of this level and of those after it. -/
inductive LogLevel where
  | trace
  | debug
  | info
  | warn
  | error
  | off
  deriving DecidableEq, Inhabited

namespace LogLevel

/-- The name as filters take it. -/
def name : LogLevel → String
  | .trace => "trace"
  | .debug => "debug"
  | .info => "info"
  | .warn => "warn"
  | .error => "error"
  | .off => "off"

/-- The name as shown. -/
def display (l : LogLevel) : String := l.name.map Char.toUpper

/-- The place in the order from the most to the least talkative. -/
def rank : LogLevel → Nat
  | .trace => 0
  | .debug => 1
  | .info => 2
  | .warn => 3
  | .error => 4
  | .off => 5

instance : Ord LogLevel where
  compare a b := compare a.rank b.rank

/-- The level that runs unless another is asked for. -/
def standard : LogLevel := .info

end LogLevel

end StubLoader
