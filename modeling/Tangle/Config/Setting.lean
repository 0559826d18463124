import Tangle.Config.Value

namespace Tangle.Config

open Text

inductive Unreadable
  | number (key value : Text) (f : Literal.Fault)
  | truth (key value : Text) (f : Literal.Fault)
  | kind (key wanted : Text) (v : Value)

namespace Unreadable

def message : Unreadable → Text
  | number key value f =>
    "cannot parse '" ++ key ++ "' as int: strconv.ParseInt: parsing " ++ value.quoted ++ ": " ++
      f.message
  | truth key value f =>
    "cannot parse '" ++ key ++ "' as bool: strconv.ParseBool: parsing " ++ value.quoted ++ ": " ++
      f.message
  | kind key wanted v =>
    "'" ++ key ++ "' expected type '" ++ wanted ++ "', got unconvertible type '" ++ v.kindName ++
      "', value: '" ++ v.shown ++ "'"

end Unreadable

/-- The integer with the same low 64 bits that fits a signed one. -/
def wrap (n : Int) : Int := Int.bmod n 0x10000000000000000

def toInt (key : Text) : Value → Except Unreadable Int
  | .null => .ok 0
  | .whole n => .ok (wrap n)
  | .fraction d => .ok d.truncate
  | .flag b => .ok (if b then 1 else 0)
  | .text [] => .ok 0
  | .text t =>
    match Literal.toInt t with
    | .ok n => .ok n
    | .error f => .error (.number key t f)
  | v => .error (.kind key "int" v)

def toBool (key : Text) : Value → Except Unreadable Bool
  | .null => .ok false
  | .flag b => .ok b
  | .whole n => .ok (n != 0)
  | .fraction d => .ok !d.isZero
  | .text [] => .ok false
  | .text t =>
    match Literal.toBool t with
    | .ok b => .ok b
    | .error f => .error (.truth key t f)
  | v => .error (.kind key "bool" v)

def toText (key : Text) : Value → Except Unreadable Text
  | .null => .ok []
  | .text t => .ok t
  | .flag b => .ok (if b then "1" else "0")
  | .whole n => .ok (Decimal.ofInt n)
  | .fraction d => .ok d.positional
  | v => .error (.kind key "string" v)

def itemsFrom (key : Text) (n : Nat) : List Value → List (Except Unreadable Text)
  | [] => []
  | v :: vs => toText (key ++ "[" ++ Decimal.ofNat n ++ "]") v :: itemsFrom key (n + 1) vs

def toTexts (key : Text) (v : Value) : List (Except Unreadable Text) :=
  match v with
  | .null => []
  | .text [] => []
  | .text t => (split comma t).map .ok
  | .list items => itemsFrom key 0 items
  | .map [] => []
  | v => itemsFrom key 0 [v]

end Tangle.Config
