import Tangle.Text.Scalar

namespace Tangle.Yaml

open Text

def isBreak (c : Char) : Bool := c == '\n' || c.toNat == 0x2028 || c.toNat == 0x2029

def isBlank (c : Char) : Bool := c == ' ' || c == '\t'

def isGap (c : Char) : Bool := isBlank c || isBreak c

def atGap : List Char → Bool
  | [] => true
  | c :: _ => isGap c

def atLineEnd : List Char → Bool
  | [] => true
  | c :: _ => isBreak c

structure Place where
  rest : List Char
  line : Nat := 0
  column : Nat := 0
  index : Nat := 0
  deriving DecidableEq, Repr

namespace Place

def next (p : Place) : Place :=
  match p.rest with
  | [] => p
  | c :: t =>
    if isBreak c then ⟨t, p.line + 1, 0, p.index + 1⟩ else ⟨t, p.line, p.column + 1, p.index + 1⟩

def skip : Nat → Place → Place
  | 0, p => p
  | n + 1, p => skip n p.next

def skipWhile (f : Char → Bool) (p : Place) : Place := p.skip (p.rest.takeWhile f).length

def atMark (mark : List Char) (p : Place) : Bool :=
  p.column == 0 && mark.isPrefixOf p.rest && atGap (p.rest.drop mark.length)

def atDocumentMark (p : Place) : Bool := p.atMark ['-', '-', '-'] || p.atMark ['.', '.', '.']

end Place

def isReadable (c : Char) : Bool :=
  let n := c.toNat
  n == 9 || n == 10 || n == 13 || (0x20 ≤ n && n ≤ 0x7E) || n == 0x85 ||
    (0xA0 ≤ n && n ≤ 0xD7FF) || (0xE000 ≤ n && n ≤ 0xFFFD) || 0x10000 ≤ n

def unifyBreaks : List Char → List Char
  | [] => []
  | '\r' :: t => if t.head? = some '\n' then unifyBreaks t else '\n' :: unifyBreaks t
  | c :: t => (if c.toNat = 0x85 then '\n' else c) :: unifyBreaks t

def char? : Piece → Option Char
  | .char c => if isReadable c then some c else none
  | .bad _ => none

/-- The stream that a text holds. A byte order mark at its start does not count. -/
def stream? (t : Text) : Option (List Char) :=
  let t := (after? [0xEF, 0xBB, 0xBF] t).getD t
  (t.pieces.mapM char?).map unifyBreaks

end Tangle.Yaml
