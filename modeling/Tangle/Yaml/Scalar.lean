import Tangle.Yaml.Place

namespace Tangle.Yaml

open Text

/-- What a run of blanks and line breaks between two words stands for. A single line feed becomes a
space; of several the first is dropped. -/
def foldGap (run : List Char) : List Char :=
  match run.filter isBreak with
  | [] => run
  | first :: more =>
    if first = '\n' then if more = [] then [' '] else more else first :: more

def gapLines : List Char → List (List Char)
  | [] => [[]]
  | c :: t =>
    if isBreak c then [] :: gapLines t
    else
      match gapLines t with
      | line :: lines => (c :: line) :: lines
      | [] => [[c]]

def tabIndents (indent : Nat) (run : List Char) : Bool :=
  ((gapLines run).drop 1).any fun line => '\t' ∈ line.take indent

def isFlowMark (c : Char) : Bool :=
  c == ',' || c == '[' || c == ']' || c.toNat == 123 || c.toNat == 125

def plainWord (inFlow : Bool) : List Char → List Char
  | [] => []
  | c :: t =>
    if isGap c || (c == ':' && atGap t) ||
        (inFlow && (isFlowMark c || (c == '?' && (atLineEnd t || t.head? == some ' ')))) then []
    else c :: plainWord inFlow t

/-- A plain scalar, whose further lines are indented by `indent` or more. The flag tells whether a
line break was read behind its last word. -/
def plain (inFlow : Bool) (indent : Nat) (p : Place) : Option (List Char × Place × Bool) :=
  let word := plainWord inFlow p.rest
  let q := p.skip word.length
  let run := q.rest.takeWhile isGap
  let r := q.skip run.length
  if run = [] then some (word, q, false)
  else if tabIndents indent run then none
  else if (!inFlow && r.column < indent) || r.atDocumentMark || r.rest.head? == some '#' ||
      plainWord inFlow r.rest == [] then
    some (word, r, run.any isBreak)
  else if r.rest.length < p.rest.length then
    match plain inFlow indent r with
    | none => none
    | some (more, s, broken) => some (word ++ foldGap run ++ more, s, broken)
  else none
termination_by p.rest.length

def singleQuoted (p : Place) : Option (List Char × Place) :=
  if p.atDocumentMark then none
  else
    let further (text : List Char) (n : Nat) : Option (List Char × Place) :=
      let q := p.skip n
      if q.rest.length < p.rest.length then
        (singleQuoted q).map fun (more, r) => (text ++ more, r)
      else none
    match p.rest with
    | [] => none
    | '\'' :: '\'' :: _ => further ['\''] 2
    | '\'' :: _ => some ([], p.next)
    | c :: _ =>
      if isGap c then
        let run := p.rest.takeWhile isGap
        further (foldGap run) run.length
      else further [c] 1
termination_by p.rest.length

def hexValue? (c : Char) : Option Nat :=
  let n := c.toNat
  if 48 ≤ n ∧ n ≤ 57 then some (n - 48)
  else if 97 ≤ n ∧ n ≤ 102 then some (n - 87)
  else if 65 ≤ n ∧ n ≤ 70 then some (n - 55)
  else none

def hexChar? (n : Nat) (cs : List Char) : Option Char :=
  let digits := cs.take n
  match digits.mapM hexValue? with
  | none => none
  | some values =>
    let code := values.foldl (fun a d => 16 * a + d) 0
    if digits.length < n ∨ (0xD800 ≤ code ∧ code ≤ 0xDFFF) ∨ 0x10FFFF < code then none
    else some (Char.ofNat code)

def escape? (c : Char) : Option Nat :=
  match c with
  | '0' => some 0
  | 'a' => some 7
  | 'b' => some 8
  | 't' => some 9
  | '\t' => some 9
  | 'n' => some 10
  | 'v' => some 11
  | 'f' => some 12
  | 'r' => some 13
  | 'e' => some 27
  | ' ' => some 32
  | '"' => some 34
  | '\'' => some 39
  | '/' => some 47
  | '\\' => some 92
  | 'N' => some 0x85
  | '_' => some 0xA0
  | 'L' => some 0x2028
  | 'P' => some 0x2029
  | _ => none

def hexLength? (c : Char) : Option Nat :=
  if c = 'x' then some 2 else if c = 'u' then some 4 else if c = 'U' then some 8 else none

def doubleQuoted (p : Place) : Option (List Char × Place) :=
  if p.atDocumentMark then none
  else
    let further (text : List Char) (n : Nat) : Option (List Char × Place) :=
      let q := p.skip n
      if q.rest.length < p.rest.length then
        (doubleQuoted q).map fun (more, r) => (text ++ more, r)
      else none
    match p.rest with
    | [] => none
    | '"' :: _ => some ([], p.next)
    | '\\' :: c :: t =>
      if isBreak c then
        let run := t.takeWhile isGap
        further (run.filter isBreak) (2 + run.length)
      else
        match hexLength? c with
        | some n =>
          match hexChar? n t with
          | some code => further [code] (2 + n)
          | none => none
        | none =>
          match escape? c with
          | some code => further [Char.ofNat code] 2
          | none => none
    | c :: _ =>
      if isGap c then
        let run := p.rest.takeWhile isGap
        further (foldGap run) run.length
      else further [c] 1
termination_by p.rest.length

inductive Chomping
  | clip
  | strip
  | keep
  deriving DecidableEq, Repr

def chomping? (c : Char) : Option Chomping :=
  if c = '+' then some .keep else if c = '-' then some .strip else none

def indentDigit? (c : Char) : Option Nat :=
  if '0' ≤ c ∧ c ≤ '9' then some (c.toNat - 48) else none

def blockHeader (cs : List Char) : Chomping × Option Nat × Nat :=
  match cs with
  | [] => (.clip, none, 0)
  | a :: t =>
    match chomping? a, indentDigit? a with
    | some ch, _ =>
      match t.head?.bind indentDigit? with
      | some d => (ch, some d, 2)
      | none => (ch, none, 1)
    | none, some d =>
      match t.head?.bind chomping? with
      | some ch => (ch, some d, 2)
      | none => (.clip, some d, 1)
    | none, none => (.clip, none, 0)

/-- Passes blank lines and the indentation of the next one. An indentation of 0 is not known yet.
Gives the line breaks, the widest indentation seen and the place. -/
def blockBreaks (indent : Nat) (p : Place) : Option (List Char × Nat × Place) :=
  let spaces := (p.rest.takeWhile (· == ' ')).length
  let q := p.skip (if indent = 0 then spaces else min spaces (indent - p.column))
  if (indent = 0 ∨ q.column < indent) ∧ q.rest.head? = some '\t' then none
  else
    match q.rest with
    | [] => some ([], q.column, q)
    | c :: _ =>
      if isBreak c then
        let r := q.next
        if r.rest.length < p.rest.length then
          match blockBreaks indent r with
          | none => none
          | some (breaks, widest, s) => some (c :: breaks, max q.column widest, s)
        else none
      else some ([], q.column, q)
termination_by p.rest.length

structure Seam where
  first : List Char := []
  more : List Char := []
  blankAbove : Bool := false

def Seam.text (s : Seam) (folds blankBelow : Bool) : List Char :=
  if folds && s.first == ['\n'] && !s.blankAbove && !blankBelow then
    if s.more = [] then [' '] else s.more
  else s.first ++ s.more

def Seam.chomped (s : Seam) : Chomping → List Char
  | .strip => []
  | .clip => s.first
  | .keep => s.first ++ s.more

def blockLines (folds : Bool) (chomping : Chomping) (indent : Nat) (s : Seam) (p : Place) :
    Option (List Char × Place) :=
  match p.rest with
  | [] => some (s.chomped chomping, p)
  | c :: _ =>
    if p.column = indent then
      let line := p.rest.takeWhile (!isBreak ·)
      let q := p.skip line.length
      let first := q.rest.take 1
      match blockBreaks indent q.next with
      | none => none
      | some (more, _, r) =>
        if r.rest.length < p.rest.length then
          match blockLines folds chomping indent ⟨first, more, isBlank c⟩ r with
          | none => none
          | some (text, t) => some (s.text folds (isBlank c) ++ line ++ text, t)
        else none
    else some (s.chomped chomping, p)
termination_by p.rest.length

def blockScalar (folds : Bool) (parent : Option Nat) (p : Place) : Option (List Char × Place) :=
  let (chomping, given, n) := blockHeader p.rest
  let p := (p.skip n).skipWhile isBlank
  let p := if p.rest.head? = some '#' then p.skipWhile (!isBreak ·) else p
  if given = some 0 ∨ !atLineEnd p.rest then none
  else
    let indent := match given with
      | some d => parent.getD 0 + d
      | none => 0
    match blockBreaks indent p.next with
    | none => none
    | some (breaks, widest, q) =>
      let least := match parent with
        | some n => n + 1
        | none => 1
      let indent := if indent = 0 then max widest least else indent
      blockLines folds chomping indent ⟨[], breaks, false⟩ q

end Tangle.Yaml
