import Tangle.Document.Lexer
import Tangle.Markdown.Structure

namespace Tangle

namespace Lint

def bodyLines? (blocks : List Block) (line : Nat) : Option Int :=
  (blocks.reverse.find? fun b => b.region.first = (line : Int)).map fun b =>
    b.region.last - b.region.first - 1

def countLines (n : Int) : Text := if n = 1 then "1 line" else Decimal.ofInt n ++ " lines"

def problem? (source : Text) (blocks : List Block) (f : Markdown.Fence) : Option Diagnostic :=
  match bodyLines? blocks f.line with
  | none => none
  | some n =>
    if Lexer.isLiterate f.info ∧ n ≠ f.lines then
      some ⟨source, f.line,
        "literate block is closed by an inner fence; its body is cut after " ++ countLines n⟩
    else none

end Lint

/-- The literate blocks of a document that an inner fence cuts short. -/
def lint (source text : Text) (lexed : Lexed) : List Diagnostic :=
  (Markdown.fences text).filterMap (Lint.problem? source lexed.blocks)

end Tangle
