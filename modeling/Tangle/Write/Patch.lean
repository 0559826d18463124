import Tangle.Document.Lexer

namespace Tangle.Patch

open Text

/-- Puts `content` in the place of the first `token`. Its later lines get the indentation of the
token's line. -/
def inject? (text token content : Text) : Option Text :=
  (cut token text).map fun (before, after) =>
    let line := ((cutLast lf before).map (·.2)).getD before
    before ++ hang (indentation line) content ++ after

inductive Failure
  | outside (first last : Int) (count : Nat)
  | moved (first last : Int)
  deriving DecidableEq, Repr

def Failure.message : Failure → Text
  | outside first last count =>
    "import block lines " ++ Decimal.ofInt first ++ "-" ++ Decimal.ofInt last ++
      " outside document of " ++ Decimal.ofNat count ++ " lines"
  | moved first last =>
    "import block no longer at its lexed line: lines " ++ Decimal.ofInt first ++ "-" ++
      Decimal.ofInt last

def isImportFence (line : Text) : Bool :=
  Lexer.isFence line && (Attributes.ofLine line).get "type" == Kind.importing.name

def withLf (t : Text) : Text := if t = [] ∨ t.endsWith [lf] then t else t ++ [lf]

def importedLines (opening content closing : Text) : Text :=
  Fence.plain opening ++ [lf] ++ withLf content ++ withLf closing

/-- Replaces lines `first` to `last` of a text, the fences of an import block, by a plain fence around
`content`. Lines that hold no import block any more are left alone. -/
def spliceImport (text : Text) (first last : Int) (content : Text) : Except Failure Text :=
  let lines := text.rawLines
  if first < 1 ∨ last < first ∨ last > lines.length then
    .error (.outside first last lines.length)
  else
    let opening := dropLineEnd (lines.getD (first.toNat - 1) [])
    let closing := lines.getD (last.toNat - 1) []
    if isImportFence opening && closing.startsWith Lexer.fenceMark then
      let out := (lines.take (first.toNat - 1)).flatten ++ importedLines opening content closing ++
        (lines.drop last.toNat).flatten
      .ok (if text.endsWith [lf] then out else dropFinalLf out)
    else .error (.moved first last)

/-- Replaces import blocks from the last to the first, so that earlier line numbers stay right. -/
def spliceImports (text : Text) : List (Import × Text) → Except Failure Text
  | [] => .ok text
  | (imp, content) :: rest =>
    match spliceImports text rest with
    | .error f => .error f
    | .ok text => spliceImport text imp.first imp.last content

/-- Puts `body` after the first `marker` and marks it as processed. An empty marker stands for the
canonical one. -/
def pull? (text marker path name body : Text) : Option Text :=
  let marker := if marker = [] then Marker.pull path name false else marker
  (cut marker text).map fun (before, after) =>
    before ++ (Marker.pull path name true ++ [lf] ++ body.dropFinalLf) ++ after

end Tangle.Patch
