import Tangle.Text.Basic

namespace Tangle.Text

/-- The lines of a text, each with its `LF`; only the last may lack one. -/
def rawLines : Text → List Text
  | [] => []
  | b :: t =>
    if b = lf then [lf] :: rawLines t
    else
      match rawLines t with
      | line :: lines => (b :: line) :: lines
      | [] => [[b]]

@[simp] theorem flatten_rawLines (t : Text) : (rawLines t).flatten = t := by
  induction t with
  | nil => rfl
  | cons b t ih =>
    simp only [rawLines]
    split
    next h => simp [h, ih]
    next =>
      split
      next line lines h => simpa [h] using ih
      next h => simpa [h] using ih

def isLineEnd (b : UInt8) : Bool := b == cr || b == lf

def dropLineEnd (raw : Text) : Text := raw.trimEndWhile isLineEnd

def unixEnds : Text → Text
  | [] => []
  | b :: t => if b = cr ∧ t.head? = some lf then unixEnds t else b :: unixEnds t

def fileLines (t : Text) : List Text :=
  match unixEnds t with
  | [] => []
  | u => split lf u.dropFinalLf

def unlines (lines : List Text) : Text := lines.flatMap (· ++ [lf])

def isIndent (b : UInt8) : Bool := b == space || b == tab

def indentation (line : Text) : Text := line.takeWhile isIndent

def hang (indent : Text) (t : Text) : Text :=
  t.flatMap fun b => if b = lf then lf :: indent else [b]

end Tangle.Text
