import Tangle.Yaml.Scalar

namespace Tangle.Yaml

open Text

inductive Token
  | blockMapping
  | blockSequence
  | blockEnd
  | flowMapping
  | flowMappingEnd
  | flowSequence
  | flowSequenceEnd
  | entry
  | comma
  | key
  | value
  | documentStart
  | documentEnd
  | directive
  | anchor (name : Text)
  | alias (name : Text)
  | tag (t : Text)
  | scalar (plain : Bool) (t : Text)
  | streamEnd
  deriving DecidableEq, Repr

structure Candidate where
  before : Nat
  line : Nat
  column : Nat
  index : Nat
  required : Bool
  deriving DecidableEq, Repr

/-- A key stands on one line and is no longer than 1024 characters. -/
def Candidate.isFresh (c : Candidate) (p : Place) : Bool :=
  c.line == p.line && p.index ≤ c.index + 1024

structure Scan where
  place : Place
  tokens : List Token := []
  blocks : List Nat := []
  candidate : Option Candidate := none
  outer : List (Option Candidate) := []
  keyAllowed : Bool := true
  ended : Bool := false

namespace Scan

def inFlow (s : Scan) : Bool := !s.outer.isEmpty

def indent? (s : Scan) : Option Nat := s.blocks.head?

def inner (s : Scan) : Nat :=
  match s.indent? with
  | some n => n + 1
  | none => 0

def push (s : Scan) (t : Token) : Scan := { s with tokens := s.tokens ++ [t] }

def insert (s : Scan) (n : Nat) (t : Token) : Scan :=
  { s with tokens := s.tokens.take n ++ t :: s.tokens.drop n }

def unroll (column : Option Nat) (s : Scan) : Scan :=
  if s.inFlow then s
  else
    let closes (n : Nat) : Bool := match column with
      | some c => c < n
      | none => true
    let closed := s.blocks.takeWhile closes
    { s with
      tokens := s.tokens ++ closed.map fun _ => Token.blockEnd
      blocks := s.blocks.dropWhile closes }

/-- Starts a block at `column`, in front of the token at `position`, unless one is open there. -/
def roll (column position : Nat) (t : Token) (s : Scan) : Scan :=
  let deeper : Bool := match s.indent? with
    | some n => n < column
    | none => true
  if s.inFlow || !deeper then s else { s with blocks := column :: s.blocks }.insert position t

def dropCandidate (s : Scan) : Option Scan :=
  match s.candidate with
  | some c => if c.required then none else some { s with candidate := none }
  | none => some s

def saveCandidate (s : Scan) : Option Scan :=
  if s.keyAllowed then
    let p := s.place
    let required := !s.inFlow && s.indent? == some p.column
    let c : Candidate := ⟨s.tokens.length, p.line, p.column, p.index, required⟩
    (dropCandidate s).map fun s => { s with candidate := some c }
  else some s

/-- Blanks, line breaks and comments before a token. A tab may not stand where a key may. -/
def toToken (s : Scan) : Scan :=
  let tabs := s.inFlow || !s.keyAllowed
  let p := s.place.skipWhile fun c => c == ' ' || (tabs && c == '\t')
  let p := if p.rest.head? = some '#' then p.skipWhile (!isBreak ·) else p
  match p.rest with
  | [] => { s with place := p }
  | c :: _ =>
    if isBreak c then
      let q := p.next
      let s' := { s with place := q, keyAllowed := s.keyAllowed || !s.inFlow }
      if q.rest.length < s.place.rest.length then toToken s' else s'
    else { s with place := p }
termination_by s.place.rest.length

def endStream (s : Scan) : Option Scan :=
  (dropCandidate (s.unroll none)).map fun s => { s.push .streamEnd with ended := true }

def documentMark (t : Token) (s : Scan) : Option Scan :=
  (dropCandidate (s.unroll none)).map fun s =>
    { s.push t with place := s.place.skip 3, keyAllowed := false }

/-- Only the version of the language that this follows can be asked for. -/
def directive (s : Scan) : Option Scan :=
  let line := s.place.rest.takeWhile (!isBreak ·)
  let words := line.splitBy fun a b => !isBlank a && !isBlank b
  let words := words.filter fun w => !w.all isBlank
  let known : Bool := match words with
    | name :: version :: rest =>
      (name == ['%', 'Y', 'A', 'M', 'L'] && version == ['1', '.', '1'] &&
        (rest.head?.all fun w => w.head? == some '#')) || name == ['%', 'T', 'A', 'G']
    | _ => false
  if known then
    (dropCandidate (s.unroll none)).map fun s =>
      { s.push .directive with place := s.place.skip line.length, keyAllowed := false }
  else none

def openFlow (t : Token) (s : Scan) : Option Scan :=
  (saveCandidate s).map fun s =>
    { s.push t with
      place := s.place.next
      outer := s.candidate :: s.outer
      candidate := none
      keyAllowed := true }

def closeFlow (t : Token) (s : Scan) : Option Scan :=
  (dropCandidate s).map fun s =>
    { s.push t with
      place := s.place.next
      candidate := s.outer.head?.getD s.candidate
      outer := s.outer.drop 1
      keyAllowed := false }

def comma (s : Scan) : Option Scan :=
  (dropCandidate s).map fun s => { s.push .comma with place := s.place.next, keyAllowed := true }

def entry (s : Scan) : Option Scan :=
  if !s.inFlow && !s.keyAllowed then none
  else
    (dropCandidate (s.roll s.place.column s.tokens.length .blockSequence)).map fun s =>
      { s.push .entry with place := s.place.next, keyAllowed := true }

def key (s : Scan) : Option Scan :=
  if !s.inFlow && !s.keyAllowed then none
  else
    (dropCandidate (s.roll s.place.column s.tokens.length .blockMapping)).map fun s =>
      { s.push .key with place := s.place.next, keyAllowed := !s.inFlow }

def value (s : Scan) : Option Scan :=
  let alone (s : Scan) : Option Scan :=
    if !s.inFlow && !s.keyAllowed then none
    else
      let s := s.roll s.place.column s.tokens.length .blockMapping
      some { s.push .value with place := s.place.next, keyAllowed := !s.inFlow }
  match s.candidate with
  | some c =>
    if c.isFresh s.place then
      let s := (s.insert c.before .key).roll c.column c.before .blockMapping
      some { s.push .value with place := s.place.next, candidate := none, keyAllowed := false }
    else if c.required then none
    else alone { s with candidate := none }
  | none => alone s

def isNameChar (c : Char) : Bool := c.isAlphanum || c == '_' || c == '-'

def endsName : List Char → Bool
  | [] => true
  | c :: _ => isGap c || c ∈ ['?', ':', ',', ']', '%', '@'] || c.toNat == 125 || c.toNat == 96

def encode (cs : List Char) : Text := cs.flatMap String.utf8EncodeChar

def name (token : Text → Token) (s : Scan) : Option Scan :=
  (saveCandidate s).bind fun s =>
    let word := s.place.next.rest.takeWhile isNameChar
    let p := s.place.next.skip word.length
    if word = [] ∨ !endsName p.rest then none
    else some { s.push (token (encode word)) with place := p, keyAllowed := false }

def isTagChar (c : Char) : Bool :=
  isNameChar c || c ∈ [';', '/', '?', ':', '@', '&', '=', '+', '$', ',', '.', '!', '~', '*', '\'',
    '(', ')', '[', ']', '%']

def standardTags : Text := "tag:yaml.org,2002:"

def shortTag (t : Text) : Text :=
  match Text.after? standardTags t with
  | some name => "!!" ++ name
  | none => t

def tagText? (cs : List Char) : Option (Text × Nat) :=
  match cs with
  | '!' :: '<' :: t =>
    let uri := t.takeWhile isTagChar
    if uri ≠ [] ∧ t[uri.length]? = some '>' then some (shortTag (encode uri), uri.length + 3) else none
  | '!' :: '!' :: t =>
    let suffix := t.takeWhile isTagChar
    if suffix = [] then none else some ("!!" ++ encode suffix, suffix.length + 2)
  | '!' :: t =>
    let handle := t.takeWhile isNameChar
    let suffix := t.takeWhile isTagChar
    if t[handle.length]? = some '!' then none else some (encode ('!' :: suffix), suffix.length + 1)
  | _ => none

def tag (s : Scan) : Option Scan :=
  (saveCandidate s).bind fun s =>
    match tagText? s.place.rest with
    | none => none
    | some (t, n) =>
      let p := s.place.skip n
      if atGap p.rest then some { s.push (.tag t) with place := p, keyAllowed := false } else none

def block (folds : Bool) (s : Scan) : Option Scan :=
  (dropCandidate s).bind fun s =>
    match blockScalar folds s.indent? s.place.next with
    | none => none
    | some (cs, p) => some { s.push (.scalar false (encode cs)) with place := p, keyAllowed := true }

def quoted (read : Place → Option (List Char × Place)) (s : Scan) : Option Scan :=
  (saveCandidate s).bind fun s =>
    match read s.place.next with
    | none => none
    | some (cs, p) => some { s.push (.scalar false (encode cs)) with place := p, keyAllowed := false }

def plainScalar (s : Scan) : Option Scan :=
  (saveCandidate s).bind fun s =>
    match plain s.inFlow s.inner s.place with
    | none => none
    | some (cs, p, broken) =>
      some { s.push (.scalar true (encode cs)) with place := p, keyAllowed := broken }

def isIndicator (c : Char) : Bool :=
  c ∈ ['-', '?', ':', ',', '[', ']', '#', '&', '*', '!', '|', '>', '\'', '"', '%', '@'] ||
    c.toNat == 96 || c.toNat == 123 || c.toNat == 125

def startsPlain (inFlow : Bool) (c : Char) (t : List Char) : Bool :=
  !(isGap c || isIndicator c) || (c == '-' && !(t.head?.any isBlank)) ||
    (!inFlow && (c == '?' || c == ':') && !atGap t)

def token (c : Char) (t : List Char) (s : Scan) : Option Scan :=
  if s.place.column = 0 ∧ c = '%' then s.directive
  else if s.place.atMark ['-', '-', '-'] then s.documentMark .documentStart
  else if s.place.atMark ['.', '.', '.'] then s.documentMark .documentEnd
  else if c = '[' then s.openFlow .flowSequence
  else if c.toNat = 123 then s.openFlow .flowMapping
  else if c = ']' then s.closeFlow .flowSequenceEnd
  else if c.toNat = 125 then s.closeFlow .flowMappingEnd
  else if c = ',' then s.comma
  else if c = '-' ∧ atGap t then s.entry
  else if c = '?' ∧ (s.inFlow ∨ atGap t) then s.key
  else if c = ':' ∧ (s.inFlow ∨ atGap t) then s.value
  else if c = '*' then s.name .alias
  else if c = '&' then s.name .anchor
  else if c = '!' then s.tag
  else if c = '|' ∧ !s.inFlow then s.block false
  else if c = '>' ∧ !s.inFlow then s.block true
  else if c = '\'' then s.quoted singleQuoted
  else if c = '"' then s.quoted doubleQuoted
  else if startsPlain s.inFlow c t then s.plainScalar
  else none

def step (s : Scan) : Option Scan :=
  let s := s.toToken
  let s := s.unroll s.place.column
  match s.place.rest with
  | [] => s.endStream
  | c :: t => s.token c t

def run (s : Scan) : Scan :=
  match s.step with
  | none => s
  | some next =>
    if next.ended then next
    else if next.place.rest.length < s.place.rest.length then run next
    else s
termination_by s.place.rest.length

end Scan

def tokens (cs : List Char) : List Token × Bool :=
  let s := Scan.run ⟨⟨cs, 0, 0, 0⟩, [], [], none, [], true, false⟩
  (s.tokens, s.ended)

end Tangle.Yaml
