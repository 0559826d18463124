import Tangle.Text.Blank

namespace Tangle.Markdown.Definition

open Text

def isPunctuation (b : UInt8) : Bool :=
  (33 ≤ b && b ≤ 47) || (58 ≤ b && b ≤ 64) || (91 ≤ b && b ≤ 96) || (123 ≤ b && b ≤ 126)

/-- The text before `closer` and the text after it. A backslash takes a punctuation mark its
meaning, and `opener` may not occur again. -/
def closure (opener closer : UInt8) : Text → Option (Text × Text)
  | [] => none
  | [b] => if b = closer then some ([], []) else none
  | b :: c :: t =>
    if b = backslash ∧ isPunctuation c then
      (closure opener closer t).map fun (inner, rest) => (b :: c :: inner, rest)
    else if b = closer then some ([], c :: t)
    else if b = opener then none
    else (closure opener closer (c :: t)).map fun (inner, rest) => (b :: inner, rest)

def afterBare (depth : Nat) : Text → Text
  | [] => []
  | [b] => if isBlank1 b || (b == 41 && depth == 0) then [b] else []
  | b :: c :: t =>
    if b = backslash ∧ isPunctuation c then afterBare depth t
    else if b = 40 then afterBare (depth + 1) (c :: t)
    else if b = 41 then if depth = 0 then b :: c :: t else afterBare (depth - 1) (c :: t)
    else if isBlank1 b then b :: c :: t
    else afterBare depth (c :: t)

def afterDestination? (t : Text) : Option Text :=
  match t with
  | 60 :: t =>
    match closure lf 62 t with
    | some (_, rest) => some rest
    | none => none
  | t =>
    let rest := afterBare 0 t
    if rest.length < t.length then some rest else none

def restOfLine (t : Text) : Text := t.takeWhile (· != lf)

def isBlankText (t : Text) : Bool := t.all isBlank1

def after? (t : Text) : Option Text :=
  match t.dropWhile isBlank1 with
  | 91 :: t =>
    match closure 91 93 t with
    | some (label, 58 :: t) =>
      if isBlankText label then none
      else
        match afterDestination? (t.dropWhile isBlank1) with
        | none => none
        | some t =>
          match t.dropWhile isBlank1 with
          | b :: title =>
            if b = quote ∨ b = 39 ∨ b = 40 then
              if (b :: title).length = t.length then none
              else
                match closure b (if b = 40 then 41 else b) title with
                | some (_, rest) => if isBlankText (restOfLine rest) then some rest else none
                | none => none
            else if isBlankText (restOfLine t) then some (b :: title) else none
          | [] => some []
    | _ => none
  | _ => none

def only (t : Text) : Bool :=
  if isBlankText t then true
  else
    match after? t with
    | none => false
    | some rest => if rest.length < t.length then only rest else false
termination_by t.length

end Tangle.Markdown.Definition
