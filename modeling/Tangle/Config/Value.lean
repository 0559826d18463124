import Tangle.Number.Double
import Tangle.Number.Literal
import Tangle.Text.CaseMap

namespace Tangle.Config

open Text

inductive Value
  | null
  | flag (b : Bool)
  | whole (n : Int)
  | fraction (d : Double)
  | text (t : Text)
  | time (t : Text)
  | list (items : List Value)
  | map (entries : List (Text × Value))
  deriving Inhabited

namespace Value

def isNull : Value → Bool
  | null => true
  | _ => false

mutual

def lowered : Value → Value
  | list items => list (loweredItems items)
  | map entries => map (loweredEntries entries)
  | v => v

def loweredItems : List Value → List Value
  | [] => []
  | v :: vs => lowered v :: loweredItems vs

def loweredEntries : List (Text × Value) → List (Text × Value)
  | [] => []
  | (key, v) :: rest => (key.toLower, lowered v) :: loweredEntries rest

end

mutual

def shown : Value → Text
  | null => "<nil>"
  | flag b => if b then "true" else "false"
  | whole n => Decimal.ofInt n
  | fraction d => d.general
  | text t => t
  | time t => t
  | list items => "[" ++ join " " (shownItems items) ++ "]"
  | map entries =>
    let sorted := (shownEntries entries).mergeSort fun a b => a.1 ≤ b.1
    "map[" ++ join " " (sorted.map fun (key, value) => key ++ ":" ++ value) ++ "]"

def shownItems : List Value → List Text
  | [] => []
  | v :: vs => shown v :: shownItems vs

def shownEntries : List (Text × Value) → List (Text × Text)
  | [] => []
  | (key, v) :: rest => (key, shown v) :: shownEntries rest

end

def kindName : Value → Text
  | list _ => "[]interface \x7b\x7d"
  | map _ => "map[string]interface \x7b\x7d"
  | time _ => "time.Time"
  | null => "<nil>"
  | flag _ => "bool"
  | whole _ => "int"
  | fraction _ => "float64"
  | text _ => "string"

end Value

end Tangle.Config
