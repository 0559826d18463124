import Tangle.Text.Basic

namespace Tangle.Log

inductive Level
  | debug
  | info
  | warn
  | error
  deriving DecidableEq, Repr

namespace Level

def rank : Level → Nat
  | debug => 0
  | info => 1
  | warn => 2
  | error => 3

def name : Level → Text
  | debug => "DEBUG"
  | info => "INFO"
  | warn => "WARN"
  | error => "ERROR"

end Level

inductive Value
  | text (t : Text)
  | number (n : Int)
  | flag (b : Bool)
  | texts (ts : List Text)
  deriving DecidableEq, Repr

structure Entry where
  level : Level
  message : Text
  fields : List (Text × Value)
  deriving DecidableEq, Repr

def atLeast (level : Level) (log : List Entry) : List Entry :=
  log.filter fun e => level.rank ≤ e.level.rank

end Tangle.Log
