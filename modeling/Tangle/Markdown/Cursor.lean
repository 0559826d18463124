import Tangle.Text.Line

namespace Tangle.Markdown

open Text

/-- `rest` starts at `column`, and `padding` columns before it are still unread. -/
structure Cursor where
  rest : Text
  column : Nat := 0
  padding : Nat := 0
  deriving DecidableEq, Repr

def tabWidth (column : Nat) : Nat := 4 - column % 4

def indentWidth (column : Nat) : Text → Nat
  | [] => 0
  | b :: t =>
    if b = space then 1 + indentWidth (column + 1) t
    else if b = tab then tabWidth column + indentWidth (column + tabWidth column) t
    else 0

/-- The number of bytes that take up `width` columns of indentation, and the columns by which the
last of them goes further. -/
def indentTo (column width : Nat) (t : Text) : Option (Nat × Nat) :=
  go 0 0 t
where
  go (bytes reached : Nat) : Text → Option (Nat × Nat)
    | [] => if width ≤ reached then some (bytes, reached - width) else none
    | b :: t =>
      if width ≤ reached then some (bytes, reached - width)
      else if b = space then go (bytes + 1) (reached + 1) t
      else if b = tab then go (bytes + 1) (reached + tabWidth (column + reached)) t
      else none

namespace Cursor

def line (c : Cursor) : Text := List.replicate c.padding space ++ c.rest

def position (c : Cursor) : Nat := c.column - c.padding

def indent (c : Cursor) : Nat := indentWidth c.position c.line

def body (c : Cursor) : Text := c.line.dropWhile isIndent

def skip : Nat → Cursor → Cursor
  | 0, c => c
  | n + 1, ⟨rest, column, padding + 1⟩ => skip n ⟨rest, column, padding⟩
  | n + 1, ⟨b :: rest, column, 0⟩ =>
    skip n ⟨rest, column + (if b = tab then tabWidth column else 1), 0⟩
  | _ + 1, ⟨[], column, 0⟩ => ⟨[], column, 0⟩

def skipTo (n padding : Nat) (c : Cursor) : Cursor :=
  let c := c.skip n
  { c with padding := max c.padding padding }

def done : Cursor := ⟨[], 0, 0⟩

end Cursor

end Tangle.Markdown
