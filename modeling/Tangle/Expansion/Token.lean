import Tangle.Text.Field

namespace Tangle.Expansion

open Text

inductive Segment
  | byte (b : UInt8)
  | token (run : Text)
  deriving DecidableEq, Repr

def isBrace (b : UInt8) : Bool := b == 123 || b == 125

def opening : Text := [123, 123, 123]

def closing : Text := [125, 125, 125]

namespace Segment

def text : Segment → Text
  | byte b => [b]
  | token run => opening ++ run ++ closing

end Segment

def tokenName (run : Text) : Text := (field? run).getD []

def token? (t : Text) : Option (Text × Text) :=
  match after? opening t with
  | none => none
  | some rest =>
    let run := rest.takeWhile (!isBrace ·)
    if run = [] then none
    else (after? closing (rest.dropWhile (!isBrace ·))).map fun after => (run, after)

theorem token?_eq_some {t run after : Text} (h : token? t = some (run, after)) :
    t = (Segment.token run).text ++ after := by
  simp only [token?] at h
  split at h
  next => simp at h
  next rest hrest =>
    split at h
    next => simp at h
    next =>
      obtain ⟨r, hr, heq⟩ := Option.map_eq_some_iff.1 h
      simp only [Prod.mk.injEq] at heq
      obtain ⟨rfl, rfl⟩ := heq
      have hsplit : rest = rest.takeWhile (!isBrace ·) ++ rest.dropWhile (!isBrace ·) :=
        (List.takeWhile_append_dropWhile).symm
      rw [after?_eq_some hrest]
      conv => lhs; rw [hsplit, after?_eq_some hr]
      simp [Segment.text]

theorem length_of_token? {t run after : Text} (h : token? t = some (run, after)) :
    after.length < t.length := by
  rw [token?_eq_some h]
  simp only [Segment.text, opening, List.length_append, List.length_cons]
  omega

/-- The segments of a line, from the left; a placeholder is taken wherever one starts. -/
def segments (line : Text) : List Segment :=
  match line with
  | [] => []
  | b :: rest =>
    match _h : token? (b :: rest) with
    | some (run, after) => .token run :: segments after
    | none => .byte b :: segments rest
termination_by line.length
decreasing_by
  · exact length_of_token? (by assumption)
  · simp

theorem flatMap_text_segments (line : Text) : (segments line).flatMap Segment.text = line := by
  fun_induction segments line with
  | case1 => rfl
  | case2 b rest run after h ih => simp [ih, token?_eq_some h]
  | case3 b rest _ ih => simp [ih, Segment.text]

def names (line : Text) : List Text :=
  (segments line).filterMap fun
    | .byte _ => none
    | .token run => some (tokenName run)

end Tangle.Expansion
