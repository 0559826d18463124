import Tangle.Text.CaseMap
import Tangle.Text.CharSet

namespace Tangle

structure ClassItem where
  set : CharSet
  negated : Bool := false

/-- A set of characters given by entries. With `folds`, an entry holds a character as soon as it
holds one that differs from it only in case. -/
structure CharClass where
  items : List ClassItem
  negated : Bool := false
  folds : Bool := false

namespace CharClass

def holds (folds : Bool) (set : CharSet) (c : Nat) : Bool :=
  if folds then (Text.caseVariants c).any set.contains else set.contains c

def contains (k : CharClass) (c : Nat) : Bool :=
  (k.items.any fun item => holds k.folds item.set c != item.negated) != k.negated

def single (folds : Bool) (c : Nat) : CharClass := ⟨[{ set := [(c, c)] }], false, folds⟩

def any : CharClass := ⟨[], true, false⟩

def anyButNewline : CharClass := ⟨[{ set := [(10, 10)] }], true, false⟩

end CharClass

inductive Anchor
  | textStart
  | textEnd
  | lineStart
  | lineEnd
  | wordBoundary
  | noWordBoundary
  deriving DecidableEq, Repr

inductive Regex
  | empty
  | char (k : CharClass)
  | anchor (a : Anchor)
  | seq (r₁ r₂ : Regex)
  | alt (r₁ r₂ : Regex)
  | group (r : Regex)
  /-- At least `min` and at most `max` times; `counted` tells `{min,max}` from `*`, `+` and `?`. -/
  | rep (r : Regex) (min : Nat) (max : Option Nat) (counted : Bool)

namespace Anchor

def isWord (c : Nat) : Bool :=
  (48 ≤ c && c ≤ 57) || (65 ≤ c && c ≤ 90) || c == 95 || (97 ≤ c && c ≤ 122)

def holds (a : Anchor) (before after : Option Nat) : Bool :=
  let boundary := before.any isWord != after.any isWord
  match a with
  | textStart => before.isNone
  | textEnd => after.isNone
  | lineStart => before.all (· == 10)
  | lineEnd => after.all (· == 10)
  | wordBoundary => boundary
  | noWordBoundary => !boundary

end Anchor

namespace Regex

abbrev Positions := List Nat

def union : Positions → Positions → Positions
  | [], qs => qs
  | ps, [] => ps
  | p :: ps, q :: qs =>
    if p < q then p :: union ps (q :: qs)
    else if q < p then q :: union (p :: ps) qs
    else p :: union ps qs

def closure (step : Positions → Positions) : (n : Nat) → Positions → Positions
  | 0, ps => ps
  | n + 1, ps =>
    let qs := union ps (step ps)
    if qs = ps then ps else closure step n qs

def iterate (step : Positions → Positions) : (n : Nat) → Positions → Positions
  | 0, ps => ps
  | n + 1, ps => if ps = [] then [] else iterate step n (step ps)

/-- The positions at which a match that starts at one of the given positions can end. A repetition
without a bound needs no more steps than the subject has positions. -/
def ends (subject : Array Nat) : Regex → Positions → Positions
  | empty, ps => ps
  | char k, ps => ps.filterMap fun p => if subject[p]?.any k.contains then some (p + 1) else none
  | anchor a, ps =>
    ps.filter fun p => a.holds (if p = 0 then none else subject[p - 1]?) subject[p]?
  | seq r₁ r₂, ps => ends subject r₂ (ends subject r₁ ps)
  | alt r₁ r₂, ps => union (ends subject r₁ ps) (ends subject r₂ ps)
  | group r, ps => ends subject r ps
  | rep r min max _, ps =>
    let more := match max with
      | none => subject.size + 1
      | some max => max - min
    closure (ends subject r) more (iterate (ends subject r) min ps)

def matchesIn (r : Regex) (t : Text) : Bool :=
  let subject := (t.pieces.map Text.Piece.code).toArray
  ends subject r (List.range (subject.size + 1)) ≠ []

def seqAll : List Regex → Regex
  | [] => empty
  | [r] => r
  | r :: rs => seq r (seqAll rs)

def altAll : List Regex → Regex
  | [] => empty
  | [r] => r
  | r :: rs => alt r (altAll rs)

def height : Regex → Nat
  | empty => 1
  | char _ => 1
  | anchor _ => 1
  | seq r₁ r₂ => max (r₁.height + 1) (match r₂ with | seq .. => r₂.height | _ => r₂.height + 1)
  | alt r₁ r₂ => max (r₁.height + 1) (match r₂ with | alt .. => r₂.height | _ => r₂.height + 1)
  | group r => r.height + 1
  | rep r _ _ _ => r.height + 1

def copiesFit : Regex → (n : Nat) → Bool
  | rep r min max true, n =>
    let m := max.getD min
    if max = some 0 then true
    else if n < m then false
    else r.copiesFit (if 0 < m then n / m else n)
  | rep r _ _ false, n => r.copiesFit n
  | seq r₁ r₂, n => r₁.copiesFit n && r₂.copiesFit n
  | alt r₁ r₂, n => r₁.copiesFit n && r₂.copiesFit n
  | group r, n => r.copiesFit n
  | _, _ => true

end Regex

end Tangle
