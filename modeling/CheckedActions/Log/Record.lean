import CheckedActions.Named
import CheckedActions.Value.Key

/-!
Log records: how severe an event is, who reports it, what happened, and the keys that were bound
at the time.
-/

namespace CheckedActions

inductive LogLevel where
  | debug
  | info
  | warning
  | error
  | critical
  deriving DecidableEq, Inhabited

namespace LogLevel

def name : LogLevel → String
  | debug => "debug"
  | info => "info"
  | warning => "warning"
  | error => "error"
  | critical => "critical"

def all : List LogLevel := [debug, info, warning, error, critical]

def ofName? (s : String) : Option LogLevel := all.find? (·.name = s)

/-- The rank by which levels are compared. -/
def rank : LogLevel → Nat
  | debug => 10
  | info => 20
  | warning => 30
  | error => 40
  | critical => 50

end LogLevel

/-- Names with values, the latest binding of a name counting. -/
abbrev LogKeys := List (String × Value)

namespace LogKeys

def get? (ks : LogKeys) (name : String) : Option Value := ks.lookup name

/-- Binds a name, in place if it is bound already. -/
def put (ks : LogKeys) (name : String) (v : Value) : LogKeys := putNamed ks name v

def erase (ks : LogKeys) (name : String) : LogKeys := ks.filter (·.1 ≠ name)

/-- The bindings of `a` with those of `b` over them. -/
def overlay (a b : LogKeys) : LogKeys := b.foldl (fun ks e => ks.put e.1 e.2) a

end LogKeys

structure LogRecord where
  level : LogLevel
  logger : String
  event : String
  keys : LogKeys
  deriving Inhabited

end CheckedActions
