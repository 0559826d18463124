import Tangle.Markdown.Cursor
import Tangle.Markdown.Definition
import Tangle.Markdown.Html

/-!
The block structure of a Markdown document, read line by line for its fenced code blocks. Between
two lines a stack of blocks is open. A line first passes the blocks that it continues, outermost
first; where one of them ends, it may open others, and with nothing opened it may still continue the
paragraph that is innermost.
-/

namespace Tangle.Markdown

open Text

/-- A fenced code block: the line it opens on, what follows the opening mark, and the number of its
lines. -/
structure Fence where
  line : Nat
  info : Text
  lines : Nat
  deriving DecidableEq, Repr

inductive Open
  | quote
  /-- An item of a list, with the column its content starts at; a bare one has no content yet. -/
  | item (mark : UInt8) (offset : Nat) (bare : Bool)
  | paragraph (text : Text)
  | indented
  | fence (mark : UInt8) (length : Nat) (found : Fence)
  | html (ending : Html.Ending)
  | single
  deriving DecidableEq, Repr

namespace Open

def isContainer : Open → Bool
  | quote => true
  | item _ _ _ => true
  | _ => false

def isBare : Open → Bool
  | item _ _ bare => bare
  | _ => false

def isItem : Open → Bool
  | item _ _ _ => true
  | _ => false

def text? : Open → Option Text
  | paragraph t => some t
  | _ => none

def fence? : Open → Option Fence
  | fence _ _ f => some f
  | _ => none

def filled : Open → Open
  | item mark offset _ => item mark offset false
  | b => b

end Open

def isBlankLine (t : Text) : Bool := t.all isBlank1

def isRule : Text → Bool
  | [] => false
  | b :: t =>
    let marks := t.filter (!isBlank1 ·)
    (b == 42 || b == 45 || b == 95) && 2 ≤ marks.length && marks.all (· == b)

def isUnderline (line : Text) : Bool :=
  match line.dropWhile (· == space) with
  | [] => false
  | b :: t => (b == equals || b == 45) && isBlankLine (t.dropWhile (· == b))

def isHeading (body : Text) : Bool :=
  let level := (body.takeWhile (· == 35)).length
  let rest := body.dropWhile (· == 35)
  1 ≤ level && level ≤ 6 && (rest == [] || rest.head?.any isBlank1)

structure ItemMark where
  mark : UInt8
  number : Option Nat
  stop : Nat
  rest : Text
  deriving DecidableEq, Repr

def isItemMark (m : ItemMark) : Bool := m.rest == [] || m.rest.head?.any fun b => b == lf || isIndent b

def itemMark? (line : Text) : Option ItemMark :=
  let lead := (line.takeWhile (· == space)).length
  let found : Option ItemMark := match line.drop lead with
    | [] => none
    | b :: t =>
      if b = 45 ∨ b = 42 ∨ b = 43 then some ⟨b, none, lead + 1, t⟩
      else
        let digits := (b :: t).takeWhile Html.isDigit
        match (b :: t).drop digits.length with
        | m :: rest =>
          if digits ≠ [] ∧ digits.length ≤ 9 ∧ (m = 46 ∨ m = 41) then
            let number := digits.foldl (fun n d => 10 * n + (d - 48).toNat) 0
            some ⟨m, some number, lead + digits.length + 1, rest⟩
          else none
        | [] => none
  if lead ≤ 3 then found.filter isItemMark else none

def ItemMark.gap (m : ItemMark) : Nat :=
  let width := indentWidth m.stop m.rest
  if isBlankLine m.rest ∨ width > 4 then 1 else width

def ItemMark.item (m : ItemMark) (c : Cursor) : Open × Option Cursor :=
  let offset := m.stop + m.gap
  if isBlankLine m.rest then (.item m.mark offset true, none)
  else
    let (bytes, padding) := (indentTo m.stop m.gap m.rest).getD (0, 0)
    (.item m.mark offset false, some (c.skipTo (m.stop + bytes) padding))

def quoted? (c : Cursor) : Option Cursor :=
  let line := c.line
  let lead := (line.takeWhile isIndent).length
  if c.indent > 3 then none
  else
    match line.drop lead with
    | 62 :: next =>
      let c := c.skip (lead + 1)
      match next with
      | 32 :: _ => some (c.skipTo 1 0)
      | 9 :: _ => some (c.skipTo 1 (tabWidth c.position - 1))
      | _ => some c
    | _ => none

def fenceOpening? (number : Nat) (body : Text) : Option Open :=
  match body with
  | [] => none
  | b :: _ =>
    let length := (body.takeWhile (· == b)).length
    let info := trimEndWhile isBlank1 ((body.drop length).dropWhile isBlank1)
    if (b = backtick ∨ b = 126) ∧ 3 ≤ length ∧ ¬ (b = backtick ∧ backtick ∈ info) then
      some (.fence b length ⟨number, info, 0⟩)
    else none

structure Above where
  inParagraph : Bool := false
  /-- The text of that paragraph, if it stands at the very place. -/
  paragraph : Option Text := none

abbrev Opening := Open × Option Cursor

def Above.mayStart (a : Above) (m : ItemMark) : Bool :=
  a.paragraph.isNone || ((m.number.isNone || m.number == some 1) && !isBlankLine m.rest)

def opening? (number : Nat) (a : Above) (c : Cursor) : Option Opening :=
  let line := c.line
  let leaf (b : Open) : Option Opening := some (b, none)
  if isBlankLine line then none
  else if c.indent > 3 then if a.inParagraph then none else leaf .indented
  else if isRule c.body then leaf .single
  else
    match (itemMark? line).filter a.mayStart with
    | some m => some (m.item c)
    | none =>
      if isHeading c.body then leaf .single
      else
        match fenceOpening? number c.body with
        | some b => leaf b
        | none =>
          match quoted? c with
          | some c => some (.quote, some c)
          | none =>
            match Html.opening? a.inParagraph line with
            | some ending => leaf (if ending.within line then .single else .html ending)
            | none => if a.inParagraph then none else leaf (.paragraph (line.dropWhile isBlank1))

def openings (number : Nat) (a : Above) (c : Cursor) : List Open :=
  match opening? number a c with
  | none => []
  | some (b, none) => [b]
  | some (b, some inner) =>
    if inner.rest.length < c.rest.length then b :: openings number {} inner else [b]
termination_by c.rest.length

/-- All blocks that a line opens. An underline makes a heading of the paragraph above it unless that
is one of definitions, which leaves nothing to underline. -/
def opens (number : Nat) (a : Above) (c : Cursor) : List Open :=
  match a.paragraph with
  | some text =>
    if c.indent ≤ 3 ∧ isUnderline c.line then
      if Definition.only (trimEndWhile isBlank1 text) then openings number {} c else [.single]
    else openings number a c
  | none => openings number a c

inductive Turn
  | stays (b : Open) (c : Cursor)
  | ends (c : Cursor)
  | next (m : ItemMark)

def itemTurn (mark : UInt8) (offset : Nat) (bare gap : Bool) (c : Cursor) : Turn :=
  let line := c.line
  let inside :=
    let (bytes, padding) := (indentTo c.position offset line).getD (0, 0)
    .stays (.item mark offset bare) (c.skipTo bytes padding)
  if isBlankLine line then .stays (.item mark offset bare) (c.skip (line.length - 1))
  else
    let short := c.indent < offset
    match if (short || bare) && c.indent < 4 then itemMark? line else none with
    | some m =>
      if m.mark ≠ mark ∨ isRule (line.drop (m.stop - 1)) then .ends c
      else if short || (bare && gap) then .next m
      else inside
    | none => if short || gap then .ends c else inside

def fenceTurn (mark : UInt8) (length : Nat) (f : Fence) (c : Cursor) : Turn :=
  let run := (c.body.takeWhile (· == mark)).length
  if c.indent < 4 ∧ length ≤ run ∧ isBlankLine (c.body.drop run) then .ends .done
  else .stays (.fence mark length { f with lines := f.lines + 1 }) .done

def Open.turn (gap : Bool) (c : Cursor) : Open → Turn
  | quote =>
    match quoted? c with
    | some c => .stays quote c
    | none => .ends c
  | item mark offset bare => itemTurn mark offset bare gap c
  | paragraph _ => .ends c
  | indented =>
    if isBlankLine c.line ∨ (indentTo c.position 4 c.line).isSome then .stays indented .done
    else .ends c
  | fence mark length f => fenceTurn mark length f c
  | html ending =>
    if ending.within c.line then .ends .done
    else if ending = .blankLine ∧ isBlankLine c.line then .ends c
    else .stays (html ending) .done
  | single => .ends c

structure State where
  opened : List Open := []
  gap : Bool := false

structure Passage where
  state : State
  closed : List Open := []

def passage (kept new closed : List Open) (gap : Bool) : Passage :=
  ⟨⟨kept ++ new, gap && !new.any Open.isItem⟩, closed⟩

def pass (number : Nat) (gap : Bool) (kept : List Open) (c : Cursor) : List Open → Passage
  | [] => passage kept [] [] gap
  | b :: inner =>
    let gap := gap || (b.isBare && isBlankLine c.line)
    match b.turn gap c with
    | .stays b c =>
      if b.isContainer ∧ inner = [] then
        match opens number {} c with
        | [] => passage (kept ++ [b]) [] [] gap
        | new => passage (kept ++ [b.filled]) new [] gap
      else pass number gap (kept ++ [b]) c inner
    | .next m =>
      match m.item c with
      | (item, none) => passage kept [item] (b :: inner) gap
      | (item, some c) => passage kept (item :: openings number {} c) (b :: inner) gap
    | .ends c =>
      let last := (b :: inner).getLast?.bind Open.text?
      match opens number ⟨last.isSome, if inner = [] then last else none⟩ c, last with
      | [], some text =>
        if isBlankLine c.line then passage kept [] (b :: inner) gap
        else
          let longer := Open.paragraph (text ++ c.line.dropWhile isBlank1)
          passage (kept ++ (b :: inner).dropLast) [longer] [] gap
      | new, _ => passage kept new (b :: inner) gap

def step (number : Nat) (s : State) (line : Text) : Passage :=
  match s.opened with
  | [] => passage [] (opens number {} ⟨line, 0, 0⟩) [] s.gap
  | opened => pass number s.gap [] ⟨line, 0, 0⟩ opened

def run (number : Nat) (s : State) : List Text → List Fence
  | [] => s.opened.filterMap Open.fence?
  | line :: lines =>
    let p := step number s line
    p.closed.filterMap Open.fence? ++ run (number + 1) p.state lines

def fences (t : Text) : List Fence := run 1 {} t.rawLines

end Tangle.Markdown
