import Tangle.Config.Value

namespace Tangle.Yaml

open Text Config

def nulls : List Text := [[], "~", "null", "Null", "NULL"]

def truths : List Text := ["true", "True", "TRUE"]

def falsehoods : List Text := ["false", "False", "FALSE"]

def notNumbers : List Text := [".nan", ".NaN", ".NAN"]

def infinities : List Text := [".inf", ".Inf", ".INF"]

def isNumberMark (b : UInt8) : Bool := b == 101 || b == 69

def digitRun (t : Text) : Text × Text := (t.takeWhile Decimal.isDigit, t.dropWhile Decimal.isDigit)

def exponent? (t : Text) : Option Int :=
  match t with
  | [] => some 0
  | b :: t =>
    let (negative, body) := Decimal.sign t
    if isNumberMark b && !body.isEmpty && body.all Decimal.isDigit then
      -- an exponent beyond any number is cut, so that it stays a small number itself
      let n : Int := min (Decimal.value body) 100000
      some (if negative then -n else n)
    else none

def fraction? (t : Text) : Option Double :=
  let (negative, body) := Decimal.sign t
  let (front, rest) := digitRun body
  let (back, rest) := match rest with
    | 46 :: rest => digitRun rest
    | rest => ([], rest)
  let hasDigits := if front.isEmpty then !back.isEmpty else true
  match exponent? rest with
  | some e =>
    if hasDigits then
      match Double.ofDecimal negative (Decimal.value (front ++ back)) (e - back.length) with
      | .infinite _ => none
      | d => some d
    else none
  | none => none

def whole? (t : Text) : Option Int :=
  match Literal.toInt t with
  | .ok n => some n
  | .error _ =>
    if t.head?.any Decimal.isDigit then
      let (base, digits) := Literal.base t
      match Literal.magnitude base 0 digits with
      | .ok n => if digits = [] then none else some n
      | .error _ => none
    else none

namespace Time

def short? (t : Text) : Option (Nat × Text) :=
  match digitRun (t.take 2) with
  | ([], _) => none
  | (digits, _) => some (Decimal.value digits, t.drop digits.length)

def isLeap (year : Nat) : Bool := year % 4 == 0 && (year % 100 != 0 || year % 400 == 0)

def daysIn (year month : Nat) : Nat :=
  if month = 2 then if isLeap year then 29 else 28
  else if month = 4 ∨ month = 6 ∨ month = 9 ∨ month = 11 then 30
  else 31

def two (n : Nat) : Text := (if n < 10 then [48] else []) ++ Decimal.digits n

def date? (t : Text) : Option (Text × Text) :=
  match digitRun t with
  | (year, 45 :: rest) =>
    if year.length = 4 then
      match short? rest with
      | some (month, 45 :: rest) =>
        match short? rest with
        | some (day, rest) =>
          if 1 ≤ month ∧ month ≤ 12 ∧ 1 ≤ day ∧ day ≤ daysIn (Decimal.value year) month then
            some (year ++ "-" ++ two month ++ "-" ++ two day, rest)
          else none
        | none => none
      | _ => none
    else none
  | _ => none

def clock? (t : Text) : Option (Text × Text) :=
  match short? t with
  | some (hour, 58 :: rest) =>
    match short? rest with
    | some (minute, 58 :: rest) =>
      match short? rest with
      | some (second, rest) =>
        let (part, rest) := match rest with
          | 46 :: more =>
            let (digits, after) := digitRun more
            if digits = [] then ([], rest) else (digits, after)
          | _ => ([], rest)
        let part := trimEndWhile (· == 48) (part.take 9)
        if hour < 24 ∧ minute < 60 ∧ second < 60 then
          some (two hour ++ ":" ++ two minute ++ ":" ++ two second ++
            (if part = [] then [] else 46 :: part), rest)
        else none
      | none => none
    | _ => none
  | _ => none

def utc : Text := " +0000 UTC"

def zone? (t : Text) : Option Text :=
  match t with
  | [90] => some utc
  | [s, a, b, 58, c, d] =>
    if (s = 43 ∨ s = 45) ∧ [a, b, c, d].all Decimal.isDigit ∧ Decimal.value [a, b] ≤ 24 ∧
        Decimal.value [c, d] < 60 then
      if [a, b, c, d].all (· == 48) then some utc
      else some (" " ++ [s, a, b, c, d] ++ " " ++ [s, a, b, c, d])
    else none
  | _ => none

def read? (t : Text) : Option Text :=
  match date? t with
  | none => none
  | some (date, []) => some (date ++ " 00:00:00" ++ utc)
  | some (date, b :: rest) =>
    match clock? rest with
    | none => none
    | some (clock, rest) =>
      if b = 84 ∨ b = 116 then (zone? rest).map fun zone => date ++ " " ++ clock ++ zone
      else if b = space ∧ rest = [] then some (date ++ " " ++ clock ++ utc)
      else none

end Time

def isSign (b : UInt8) : Bool := b == 43 || b == 45

def startsNumber (b : UInt8) : Bool := Decimal.isDigit b || isSign b

def natural (times : Bool) (t : Text) : Value :=
  if nulls.contains t then .null
  else if truths.contains t then .flag true
  else if falsehoods.contains t then .flag false
  else if notNumbers.contains t then .fraction .notANumber
  else if infinities.contains t || (t.head? == some 43 && infinities.contains t.tail) then
    .fraction (.infinite false)
  else if t.head? == some 45 && infinities.contains t.tail then .fraction (.infinite true)
  else if t.head? = some 46 then ((fraction? t).map .fraction).getD (.text t)
  else if t.head?.any startsNumber then
    match if times then Time.read? t else none with
    | some time => .time time
    | none =>
      let digits := t.filter (· != 95)
      match whole? digits with
      | some n => .whole n
      | none => ((fraction? digits).map .fraction).getD (.text t)
  else .text t

def scalar? (tag : Text) (plain : Bool) (t : Text) : Option Value :=
  if tag = [] ∨ tag = "!" then some (if plain then natural true t else .text t)
  else if tag = "!!bool" then
    match natural false t with
    | .flag b => some (.flag b)
    | _ => none
  else if tag = "!!int" then
    match natural false t with
    | .whole n => some (.whole n)
    | _ => none
  else if tag = "!!float" then
    match natural false t with
    | .fraction d => some (.fraction d)
    | .whole n => some (.fraction (.ofDecimal (n < 0) n.natAbs 0))
    | _ => none
  else if tag = "!!null" then
    match natural false t with
    | .null => some .null
    | _ => none
  else if tag = "!!timestamp" then
    match natural true t with
    | .time time => some (.time time)
    | _ => none
  else some (.text t)

end Tangle.Yaml
