import Tangle.Text.Basic

namespace Tangle.Text

inductive Piece
  | char (c : Char)
  | bad (b : UInt8)
  deriving DecidableEq, Repr

namespace Piece

def bytes : Piece → Text
  | .char c => String.utf8EncodeChar c
  | .bad b => [b]

def code : Piece → Nat
  | .char c => c.toNat
  | .bad _ => 0xFFFD

end Piece

def lead? (a : UInt8) : Option (Nat × Nat) :=
  if a < 0x80 then some (a.toNat, 0)
  else if 0xC2 ≤ a ∧ a ≤ 0xDF then some (a.toNat - 0xC0, 1)
  else if 0xE0 ≤ a ∧ a ≤ 0xEF then some (a.toNat - 0xE0, 2)
  else if 0xF0 ≤ a ∧ a ≤ 0xF4 then some (a.toNat - 0xF0, 3)
  else none

/-- Some first bytes narrow the range of the second, which rules out overlong forms, surrogates and
code points past U+10FFFF. -/
def secondFits (a : UInt8) (t : Text) : Bool :=
  match t with
  | [] => true
  | b :: _ =>
    (a != 0xE0 || 0xA0 ≤ b) && (a != 0xED || b ≤ 0x9F) &&
    (a != 0xF0 || 0x90 ≤ b) && (a != 0xF4 || b ≤ 0x8F)

def continuation? : (n code : Nat) → Text → Option (Nat × Text)
  | 0, code, t => some (code, t)
  | _ + 1, _, [] => none
  | n + 1, code, b :: t =>
    if 0x80 ≤ b ∧ b ≤ 0xBF then continuation? n (code * 64 + (b.toNat - 0x80)) t else none

theorem length_of_continuation? {n code code' : Nat} {t rest : Text}
    (h : continuation? n code t = some (code', rest)) : rest.length ≤ t.length := by
  induction n generalizing code t with
  | zero => simp_all [continuation?]
  | succ n ih =>
    cases t with
    | nil => simp [continuation?] at h
    | cons b t =>
      simp only [continuation?] at h
      split at h
      next => exact Nat.le_succ_of_le (ih h)
      next => simp at h

def firstChar? : Text → Option (Char × Text)
  | [] => none
  | a :: t =>
    match lead? a with
    | none => none
    | some (bits, n) =>
      if secondFits a t then
        (continuation? n bits t).map fun (code, rest) => (Char.ofNat code, rest)
      else none

theorem length_of_firstChar? {t rest : Text} {c : Char} (h : firstChar? t = some (c, rest)) :
    rest.length < t.length := by
  cases t with
  | nil => simp [firstChar?] at h
  | cons a t =>
    simp only [firstChar?] at h
    split at h
    next => simp at h
    next =>
      split at h
      next =>
        obtain ⟨⟨code, r⟩, hr, heq⟩ := Option.map_eq_some_iff.1 h
        simp only [Prod.mk.injEq] at heq
        exact Nat.lt_succ_of_le (heq.2 ▸ length_of_continuation? hr)
      next => simp at h

def pieces (t : Text) : List Piece :=
  match t with
  | [] => []
  | b :: rest =>
    match _h : firstChar? (b :: rest) with
    | some (c, after) => .char c :: pieces after
    | none => .bad b :: pieces rest
termination_by t.length
decreasing_by
  · exact length_of_firstChar? (by assumption)
  · simp

def isAscii (t : Text) : Bool := t.all (· < 0x80)

end Tangle.Text
