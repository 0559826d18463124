import Tangle.Block.Directive
import Tangle.Document.Attribute
import Tangle.Document.Marker

namespace Tangle

structure Diagnostic where
  source : Text
  line : Int
  message : Text
  deriving DecidableEq, Repr

def Diagnostic.text (d : Diagnostic) : Text :=
  d.source ++ ":" ++ Decimal.ofInt d.line ++ ": " ++ d.message

structure Span where
  start : Nat
  stop : Nat
  deriving DecidableEq, Repr

structure Lexed where
  blocks : List Block := []
  spans : List Span := []
  diagnostics : List Diagnostic := []
  deriving DecidableEq, Repr

namespace Lexed

def append (a b : Lexed) : Lexed :=
  ⟨a.blocks ++ b.blocks, a.spans ++ b.spans, a.diagnostics ++ b.diagnostics⟩

instance : Append Lexed := ⟨append⟩

def empty : Lexed := {}

def block (b : Block) : Lexed := { blocks := [b] }

def diagnostic (d : Diagnostic) : Lexed := { diagnostics := [d] }

def span (s : Span) : Lexed := { spans := [s] }

@[simp] theorem blocks_append (a b : Lexed) : (a ++ b).blocks = a.blocks ++ b.blocks := rfl

@[simp] theorem spans_append (a b : Lexed) : (a ++ b).spans = a.spans ++ b.spans := rfl

@[simp] theorem diagnostics_append (a b : Lexed) :
    (a ++ b).diagnostics = a.diagnostics ++ b.diagnostics := rfl

end Lexed

namespace Lexer

structure Origin where
  source : Text
  relDir : Text
  deriving DecidableEq, Repr

inductive State
  | outside
  | fence (opening : Text) (line offset : Nat) (body : Text)
  | custom (name : Text) (line offset : Nat) (body : Text)
  deriving DecidableEq, Repr

def fenceMark : Text := "```"

def isFence (line : Text) : Bool := line.startsWith fenceMark

def isLiterate (line : Text) : Bool := line.contains literateMark

def problem (o : Origin) (line : Nat) (message : Text) : Lexed :=
  .diagnostic ⟨o.source, line, message⟩

def requiring (o : Origin) (line : Nat) (type key value : Text) (found : Lexed) : Lexed :=
  if value = [] then problem o line (type ++ " block is missing lit-" ++ key) else found

def withRef (o : Origin) (line : Nat) (type file body : Text) (found : Ref → Lexed) : Lexed :=
  match Ref.ofBody body with
  | (_, some fault) => problem o line fault.message
  | (ref, none) =>
    let ref := if ref.path = [] then { ref with path := file } else ref
    if ref.path = [] then problem o line (type ++ " block has no path") else found ref

def literate (o : Origin) (attrs : Attributes) (r : Region) (line : Nat) : Lexed :=
  let type := attrs.get "type"
  let name := attrs.get "name"
  let file := attrs.get "file"
  if type = "code" then
    requiring o line type "name" name <| .block (.code { r with name })
  else if type = "output" then
    requiring o line type "file" file <| .block (.output { r with target := file, relDir := o.relDir })
  else if type = "injection" then
    requiring o line type "name" name <| requiring o line type "file" file <|
      .block (.injection { r with name, target := file })
  else if type = "config" then
    requiring o line type "name" name <| .block (.config { r with name })
  else if type = "import" then
    withRef o line type file r.body fun ref => .block (.importing { r with ref })
  else if type = "reference" then
    requiring o line type "name" name <|
      withRef o line type file r.body fun ref => .block (.reference { r with name, ref })
  else if type = [] then problem o line "literate fence has no lit-type"
  else problem o line ("unknown block type " ++ type.quoted)

def pull? (o : Origin) (n : Nat) (line : Text) : Option Pull :=
  match Marker.pullRequest? line with
  | none => none
  | some q =>
    if line.contains Marker.processedWords then none
    else some ⟨⟨o.source, [], n, n⟩, q.path, q.name, q.marker⟩

/-- One line: the state after it and what it contributes. The line has number `n` and starts at
byte `offset`. -/
def step (o : Origin) (state : State) (n offset : Nat) (raw : Text) : State × Lexed :=
  let line := raw.dropLineEnd
  match state with
  | .outside =>
    if isFence line then (.fence line n offset [], .empty)
    else
      match Marker.customName? line with
      | some name => (.custom name n offset [], .empty)
      | none =>
        match pull? o n line with
        | some p => (.outside, .block (.pull p))
        | none => (.outside, .empty)
  | .fence opening start startByte body =>
    if isFence line then
      let span := Lexed.span ⟨startByte, offset + raw.length⟩
      if isLiterate opening then
        (.outside, span ++ literate o (.ofLine opening) ⟨o.source, body, start, n⟩ start)
      else (.outside, span)
    else (.fence opening start startByte (body ++ line ++ [Text.lf]), .empty)
  | .custom name start startByte body =>
    if Marker.isCustomEnd line then
      (.outside, .span ⟨startByte, offset + raw.length⟩ ++
        .block (.custom ⟨⟨o.source, body, start, n⟩, name⟩))
    else (.custom name start startByte (body ++ line ++ [Text.lf]), .empty)

/-- A region still open at the end is a problem where it was opened. -/
def finish (o : Origin) : State → Lexed
  | .outside => .empty
  | .fence _ line _ _ => problem o line "block opened here is never closed"
  | .custom _ line _ _ => problem o line "block opened here is never closed"

def run (o : Origin) (state : State) (n offset : Nat) : List Text → Lexed
  | [] => finish o state
  | raw :: rest =>
    let (state, found) := step o state n offset raw
    found ++ run o state (n + 1) (offset + raw.length) rest

end Lexer

def lex (source relDir text : Text) : Lexed :=
  Lexer.run ⟨source, relDir⟩ .outside 1 0 text.rawLines

end Tangle
