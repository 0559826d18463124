import Tangle.Regex.Named

namespace Tangle.Regex

open Text

inductive Fault
  | invalidRange
  | invalidEscape
  | invalidName
  | invalidGroup
  | nestedRepeat
  | invalidCount
  | invalidEncoding
  | missingBracket
  | missingParen
  | missingOperand
  | trailingBackslash
  | unexpectedParen
  | tooDeep
  deriving DecidableEq, Repr

def Fault.words : Fault → Text
  | invalidRange => "invalid character class range"
  | invalidEscape => "invalid escape sequence"
  | invalidName => "invalid named capture"
  | invalidGroup => "invalid or unsupported Perl syntax"
  | nestedRepeat => "invalid nested repetition operator"
  | invalidCount => "invalid repeat count"
  | invalidEncoding => "invalid UTF-8"
  | missingBracket => "missing closing ]"
  | missingParen => "missing closing )"
  | missingOperand => "missing argument to repetition operator"
  | trailingBackslash => "trailing backslash at end of expression"
  | unexpectedParen => "unexpected )"
  | tooDeep => "expression nests too deeply"

structure ParseError where
  fault : Fault
  part : Text
  deriving DecidableEq, Repr

def ParseError.message (e : ParseError) : Text :=
  "error parsing regexp: " ++ e.fault.words ++ ": `" ++ e.part ++ "`"

abbrev Input := List Piece

def shown (i : Input) : Text := i.flatMap Piece.bytes

def consumed (i rest : Input) : Text := shown (i.take (i.length - rest.length))

def next (i : Input) : Except ParseError (Option Char × Input) :=
  match i with
  | [] => .ok (none, [])
  | .char c :: rest => .ok (some c, rest)
  | .bad _ :: _ => .error ⟨.invalidEncoding, shown i⟩

def firstBad? : Input → Option Input
  | [] => none
  | .bad b :: rest => some (.bad b :: rest)
  | .char _ :: rest => firstBad? rest

def requireText (i : Input) : Except ParseError Unit :=
  match firstBad? i with
  | some bad => .error ⟨.invalidEncoding, shown bad⟩
  | none => .ok ()

def cutAt (c : Char) : Input → Option (Input × Input)
  | [] => none
  | p :: rest =>
    if p = .char c then some ([], rest)
    else (cutAt c rest).map fun (before, after) => (p :: before, after)

structure Flags where
  folds : Bool := false
  multiline : Bool := false
  dotAll : Bool := false

/-- An open group: the flags outside it, the alternatives that are complete and the parts of the
one at hand, both last first. -/
structure Level where
  outer : Flags
  captures : Bool
  done : List Regex := []
  parts : List Regex := []

def Level.result (l : Level) : Regex := altAll ((seqAll l.parts.reverse :: l.done).reverse)

def Level.add (l : Level) (r : Regex) : Level := { l with parts := r :: l.parts }

def Level.bar (l : Level) : Level :=
  { l with done := seqAll l.parts.reverse :: l.done, parts := [] }

/-- The reader between two parts of a pattern. `repeated` is the input at the repetition operator
just read, if one was. -/
structure State where
  flags : Flags
  level : Level
  above : List Level
  repeated : Option Input := none

def State.add (s : State) (r : Regex) : State := { s with level := s.level.add r, repeated := none }

def maxHeight : Nat := 1000

def maxCopies : Nat := 1000

def isOctal (c : Char) : Bool := '0' ≤ c && c ≤ '7'

def hexValue? (c : Char) : Option Nat :=
  if c.isDigit then some (c.toNat - 48)
  else if 'a' ≤ c ∧ c ≤ 'f' then some (c.toNat - 87)
  else if 'A' ≤ c ∧ c ≤ 'F' then some (c.toNat - 55)
  else none

def octal : (n value : Nat) → Input → Nat × Input
  | n + 1, value, .char c :: rest =>
    if isOctal c then octal n (value * 8 + (c.toNat - 48)) rest else (value, .char c :: rest)
  | _, value, i => (value, i)

def bracedHex (value : Nat) (digits : Bool) : Input → Except ParseError (Except Input (Nat × Input))
  | [] => .ok (.error [])
  | .bad b :: rest => .error ⟨.invalidEncoding, shown (.bad b :: rest)⟩
  | .char c :: rest =>
    if c = '\x7d' then .ok (if digits then .ok (value, rest) else .error rest)
    else
      match hexValue? c with
      | none => .ok (.error rest)
      | some v =>
        if 0x10FFFF < value * 16 + v then .ok (.error rest)
        else bracedHex (value * 16 + v) true rest

def controlEscape? : Char → Option Nat
  | 'a' => some 7
  | 'f' => some 12
  | 'n' => some 10
  | 'r' => some 13
  | 't' => some 9
  | 'v' => some 11
  | _ => none

def hexEscape (whole i : Input) : Except ParseError (Nat × Input) := do
  if i = [] then throw ⟨.invalidEscape, consumed whole i⟩
  let (c, rest) ← next i
  if c = some '\x7b' then
    match ← bracedHex 0 false rest with
    | .ok found => return found
    | .error rest => throw ⟨.invalidEscape, consumed whole rest⟩
  else
    let (d, rest) ← next rest
    match c.bind hexValue?, d.bind hexValue? with
    | some x, some y => return (x * 16 + y, rest)
    | _, _ => throw ⟨.invalidEscape, consumed whole rest⟩

def escape (whole : Input) : Except ParseError (Nat × Input) := do
  match whole.drop 1 with
  | [] => throw ⟨.trailingBackslash, []⟩
  | i =>
    let (c, rest) ← next i
    let c := c.getD '\x00'
    let isOctalStart : Bool := match rest with
      | .char d :: _ => isOctal d
      | _ => false
    if c = '0' ∨ ('1' ≤ c ∧ c ≤ '7' ∧ isOctalStart) then return octal 2 (c.toNat - 48) rest
    else if c = 'x' then hexEscape whole rest
    else
      match controlEscape? c with
      | some n => return (n, rest)
      | none =>
        if c.toNat < 0x80 ∧ !c.isAlphanum then return (c.toNat, rest)
        else throw ⟨.invalidEscape, consumed whole rest⟩

def propertyClass (whole : Input) : Except ParseError (Option (ClassItem × Input)) := do
  match whole with
  | .char '\\' :: .char p :: i =>
    if p ≠ 'p' ∧ p ≠ 'P' then return none
    let (c, rest) ← next i
    let (name, part, rest) ←
      if c = some '\x7b' then
        match cutAt '\x7d' rest with
        | some (name, after) => do
          requireText name
          pure (name, consumed whole after, after)
        | none => do
          requireText whole
          throw ⟨.invalidRange, shown whole⟩
      else pure (i.take (i.length - rest.length), consumed whole rest, rest)
    let (flipped, name) := match name with
      | .char '^' :: name => (true, name)
      | name => (false, name)
    match property? (shown name) with
    | some set => return some (⟨set, (p = 'P') != flipped⟩, rest)
    | none => throw ⟨.invalidRange, part⟩
  | _ => return none

def letterClass? : Input → Option (ClassItem × Input)
  | .char '\\' :: .char c :: rest => (escapeClass? c).map fun item => (item, rest)
  | _ => none

def cutBracketName : Input → Option (Input × Input)
  | .char ':' :: .char ']' :: rest => some ([], rest)
  | p :: rest => (cutBracketName rest).map fun (name, after) => (p :: name, after)
  | [] => none

def bracketClass (whole : Input) : Except ParseError (Option (ClassItem × Input)) :=
  match whole with
  | .char '[' :: .char ':' :: i =>
    match cutBracketName i with
    | none => .ok none
    | some (name, rest) =>
      let (negated, base) := match name with
        | .char '^' :: base => (true, base)
        | base => (false, base)
      match bracketClasses.find? fun (n, _) => Text.ofString n = shown base with
      | some (_, set) => .ok (some (⟨set, negated⟩, rest))
      | none => .error ⟨.invalidRange, consumed whole rest⟩
  | _ => .ok none

def classChar (whole i : Input) : Except ParseError (Nat × Input) :=
  match i with
  | [] => .error ⟨.missingBracket, shown whole⟩
  | .char '\\' :: _ => escape i
  | .char c :: rest => .ok (c.toNat, rest)
  | .bad _ :: _ => .error ⟨.invalidEncoding, shown i⟩

def classItem (whole i : Input) : Except ParseError (ClassItem × Input) := do
  if let some found ← bracketClass i then return found
  if let some found ← propertyClass i then return found
  if let some found := letterClass? i then return found
  let (lo, rest) ← classChar whole i
  match rest with
  | .char '-' :: p :: after =>
    if p = .char ']' then return ({ set := [(lo, lo)] }, rest)
    let (hi, rest) ← classChar whole (p :: after)
    if hi < lo then throw ⟨.invalidRange, consumed i rest⟩
    return ({ set := [(lo, hi)] }, rest)
  | _ => return ({ set := [(lo, lo)] }, rest)

def classItems (whole : Input) : (fuel : Nat) → (first : Bool) → Input →
    Except ParseError (List ClassItem × Input)
  | 0, _, _ => .error ⟨.missingBracket, shown whole⟩
  | fuel + 1, first, i =>
    match first, i with
    | false, .char ']' :: rest => .ok ([], rest)
    | _, i => do
      let (item, rest) ← classItem whole i
      let (items, rest) ← classItems whole fuel false rest
      return (item :: items, rest)

def bracketed (flags : Flags) (whole : Input) : Except ParseError (CharClass × Input) := do
  let (negated, i) := match whole.drop 1 with
    | .char '^' :: i => (true, i)
    | i => (false, i)
  let (items, rest) ← classItems whole (i.length + 1) true i
  return (⟨items, negated, flags.folds⟩, rest)

/-- A decimal number without leading zeros; one of more than eight digits is only known to be too
big. -/
def number? (i : Input) : Option (Option Nat × Input) :=
  let isDigit (p : Piece) := match p with
    | .char c => c.isDigit
    | .bad _ => false
  let ds := i.takeWhile isDigit
  let rest := i.dropWhile isDigit
  match ds with
  | [] => none
  | .char '0' :: _ :: _ => none
  | ds =>
    let n := ds.foldl (fun n p => n * 10 + (p.code - 48)) 0
    some (if n < 1000000000 then some n else none, rest)

structure Bounds where
  min : Option Nat
  max : Option (Option Nat)

/-- The bounds of a counted repetition, if the input starts with one. In the result `none` is a
number that is too big, and for the upper bound also no bound at all. -/
def bounds? (i : Input) : Option (Bounds × Input) := do
  let .char '\x7b' :: i := i | none
  let (min, i) ← number? i
  match i with
  | .char '\x7d' :: rest => some (⟨min, some min⟩, rest)
  | .char ',' :: .char '\x7d' :: rest => some (⟨min, none⟩, rest)
  | .char ',' :: i =>
    let (max, i) ← number? i
    let .char '\x7d' :: rest := i | none
    some (⟨if max.isNone then none else min, some max⟩, rest)
  | _ => none

def Bounds.check (b : Bounds) : Option (Nat × Option Nat) := do
  let min ← b.min
  if maxCopies < min then none
  match b.max with
  | none => some (min, none)
  | some none => none
  | some (some max) => if maxCopies < max ∨ max < min then none else some (min, some max)

def State.applyRepeat (s : State) (min : Nat) (max : Option Nat) (counted : Bool) (start rest : Input) :
    Except ParseError (State × Input) := do
  let rest := match rest with
    | .char '?' :: after => after
    | rest => rest
  if let some earlier := s.repeated then throw ⟨.nestedRepeat, consumed earlier rest⟩
  match s.level.parts with
  | [] => throw ⟨.missingOperand, consumed start rest⟩
  | r :: parts =>
    let r := Regex.rep r min max counted
    if maxHeight < r.height then throw ⟨.tooDeep, []⟩
    if counted ∧ (2 ≤ min ∨ 2 ≤ max.getD 0) ∧ !r.copiesFit maxCopies then
      throw ⟨.invalidCount, consumed start rest⟩
    return ({ s with level := { s.level with parts := r :: parts }, repeated := some start }, rest)

def State.openGroup (s : State) (captures : Bool) (inner : Flags) : State :=
  ⟨inner, { outer := s.flags, captures }, s.level :: s.above, none⟩

def isNameChar (p : Piece) : Bool :=
  match p with
  | .char c => c.isAlphanum || c == '_'
  | .bad _ => false

/-- The flags between `(?` and `:` or `)`. With `on = false` the letters switch off; `seen` tells
whether there was a letter since the sign. The last component tells whether a group opens. -/
def flagLetters (whole : Input) (flags : Flags) (on seen : Bool) :
    Input → Except ParseError (Flags × Bool × Input)
  | [] => .error ⟨.invalidGroup, shown whole⟩
  | .bad b :: rest => .error ⟨.invalidEncoding, shown (.bad b :: rest)⟩
  | .char c :: rest =>
    match c with
    | 'i' => flagLetters whole { flags with folds := on } on true rest
    | 'm' => flagLetters whole { flags with multiline := on } on true rest
    | 's' => flagLetters whole { flags with dotAll := on } on true rest
    | 'U' => flagLetters whole flags on true rest
    | '-' =>
      if on then flagLetters whole flags false false rest
      else .error ⟨.invalidGroup, consumed whole rest⟩
    | c =>
      if (c = ':' ∨ c = ')') ∧ (on ∨ seen) then .ok (flags, c = ':', rest)
      else .error ⟨.invalidGroup, consumed whole rest⟩

def State.special (s : State) (whole : Input) : Except ParseError (State × Input) :=
  let named (i : Input) : Except ParseError (State × Input) := do
    match cutAt '>' whole with
    | none =>
      requireText whole
      throw ⟨.invalidName, shown whole⟩
    | some (_, rest) =>
      let name := i.take (i.length - rest.length - 1)
      requireText name
      if name = [] ∨ !name.all isNameChar then throw ⟨.invalidName, consumed whole rest⟩
      return (s.openGroup true s.flags, rest)
  match whole.drop 2 with
  | .char 'P' :: .char '<' :: p :: i => named (p :: i)
  | .char '<' :: p :: i => named (p :: i)
  | i => do
    let (flags, opens, rest) ← flagLetters whole s.flags true false i
    if opens then return (s.openGroup false flags, rest)
    return ({ s with flags, repeated := none }, rest)

def State.close (s : State) (pattern : Input) : Except ParseError State :=
  match s.above with
  | [] => .error ⟨.unexpectedParen, shown pattern⟩
  | l :: above =>
    let r := if s.level.captures then Regex.group s.level.result else s.level.result
    if maxHeight < r.height then .error ⟨.tooDeep, shown pattern⟩
    else .ok ⟨s.level.outer, l.add r, above, none⟩

def State.literal (s : State) (c : Nat) : State := s.add (.char (.single s.flags.folds c))

def cutQuoteEnd : Input → Input × Input
  | .char '\\' :: .char 'E' :: rest => ([], rest)
  | p :: rest =>
    let (quoted, after) := cutQuoteEnd rest
    (p :: quoted, after)
  | [] => ([], [])

def State.literals (s : State) : Input → Except ParseError State
  | [] => .ok s
  | .char c :: rest => (s.literal c.toNat).literals rest
  | .bad b :: rest => .error ⟨.invalidEncoding, shown (.bad b :: rest)⟩

def State.escaped (s : State) (whole : Input) : Except ParseError (State × Input) := do
  match whole.drop 1 with
  | .char 'A' :: rest => return (s.add (.anchor .textStart), rest)
  | .char 'b' :: rest => return (s.add (.anchor .wordBoundary), rest)
  | .char 'B' :: rest => return (s.add (.anchor .noWordBoundary), rest)
  | .char 'z' :: rest => return (s.add (.anchor .textEnd), rest)
  | .char 'C' :: rest => throw ⟨.invalidEscape, consumed whole rest⟩
  | .char 'Q' :: rest =>
    let (quoted, rest) := cutQuoteEnd rest
    return (← { s with repeated := none }.literals quoted, rest)
  | _ =>
    if let some (item, rest) ← propertyClass whole then
      return (s.add (.char ⟨[item], false, s.flags.folds⟩), rest)
    if let some (item, rest) := letterClass? whole then
      return (s.add (.char ⟨[item], false, s.flags.folds⟩), rest)
    let (c, rest) ← escape whole
    return (s.literal c, rest)

def State.step (s : State) (pattern i : Input) : Except ParseError (State × Input) := do
  match i with
  | [] => return (s, [])
  | .bad _ :: _ => throw ⟨.invalidEncoding, shown i⟩
  | .char c :: rest =>
    match c with
    | '(' =>
      match rest with
      | .char '?' :: _ => s.special i
      | _ => return (s.openGroup true s.flags, rest)
    | '|' => return ({ s with level := s.level.bar, repeated := none }, rest)
    | ')' => return (← s.close pattern, rest)
    | '^' => return (s.add (.anchor (if s.flags.multiline then .lineStart else .textStart)), rest)
    | '$' => return (s.add (.anchor (if s.flags.multiline then .lineEnd else .textEnd)), rest)
    | '.' => return (s.add (.char (if s.flags.dotAll then .any else .anyButNewline)), rest)
    | '[' =>
      let (k, rest) ← bracketed s.flags i
      return (s.add (.char k), rest)
    | '*' => s.applyRepeat 0 none false i rest
    | '+' => s.applyRepeat 1 none false i rest
    | '?' => s.applyRepeat 0 (some 1) false i rest
    | '\x7b' =>
      match bounds? i with
      | none => return (s.literal c.toNat, rest)
      | some (bounds, rest) =>
        match bounds.check with
        | none => throw ⟨.invalidCount, consumed i rest⟩
        | some (min, max) => s.applyRepeat min max true i rest
    | '\\' => s.escaped i
    | c => return (s.literal c.toNat, rest)

def State.run (pattern : Input) : (fuel : Nat) → State → Input → Except ParseError State
  | _, s, [] => .ok s
  | 0, s, _ => .ok s
  | fuel + 1, s, i => do
    let (s, rest) ← s.step pattern i
    s.run pattern fuel rest

def parse (pattern : Text) : Except ParseError Regex := do
  let i : Input := pattern.pieces
  let start : State := ⟨{}, { outer := {}, captures := false }, [], none⟩
  match start.run i (i.length + 1) i with
  | .error e => .error (if e.fault = .tooDeep then ⟨.tooDeep, pattern⟩ else e)
  | .ok s => if s.above = [] then .ok s.level.result else .error ⟨.missingParen, pattern⟩

end Tangle.Regex
