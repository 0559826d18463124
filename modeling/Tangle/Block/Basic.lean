import Tangle.Number.Decimal
import Tangle.Text.Line

namespace Tangle

inductive Kind
  | code
  | output
  | injection
  | config
  | importing
  | reference
  | custom
  | pull
  deriving DecidableEq, Repr

namespace Kind

def all : List Kind := [code, output, injection, config, importing, reference, custom, pull]

def name : Kind → Text
  | code => "code"
  | output => "output"
  | injection => "injection"
  | config => "config"
  | importing => "import"
  | reference => "reference"
  | custom => "custom"
  | pull => "pull_from"

theorem name_injective {k l : Kind} (h : k.name = l.name) : k = l := by
  cases k <;> cases l <;> first | rfl | exact absurd h (by decide)

def ofNumber? (n : Int) : Option Kind := if n < 0 then none else all[n.toNat]?

def describe (n : Int) : Text :=
  match ofNumber? n with
  | some k => k.name
  | none => "kind(" ++ Decimal.ofInt n ++ ")"

end Kind

/-- Where a block stands: its document, its lines from `first` to `last`, fences included, and the
text between them with every line ended by `LF`. -/
structure Region where
  source : Text
  body : Text
  first : Int
  last : Int
  deriving DecidableEq, Repr, Inhabited

structure Code extends Region where
  name : Text
  deriving DecidableEq, Repr

structure Output extends Region where
  target : Text
  relDir : Text
  deriving DecidableEq, Repr

structure Injection extends Region where
  name : Text
  target : Text
  deriving DecidableEq, Repr

structure Config extends Region where
  name : Text
  deriving DecidableEq, Repr

/-- A pointer to a file, to some of its lines (0 leaves an end open) or to a tagged part. -/
structure Ref where
  path : Text
  lineStart : Int
  lineEnd : Int
  tag : Text
  deriving DecidableEq, Repr, Inhabited

structure Import extends Region where
  ref : Ref
  deriving DecidableEq, Repr

structure Reference extends Region where
  name : Text
  ref : Ref
  deriving DecidableEq, Repr

structure Custom extends Region where
  name : Text
  deriving DecidableEq, Repr

structure Pull extends Region where
  path : Text
  name : Text
  marker : Text
  deriving DecidableEq, Repr

inductive Block
  | code (b : Code)
  | output (b : Output)
  | injection (b : Injection)
  | config (b : Config)
  | importing (b : Import)
  | reference (b : Reference)
  | custom (b : Custom)
  | pull (b : Pull)
  deriving DecidableEq, Repr

namespace Block

def kind : Block → Kind
  | code _ => .code
  | output _ => .output
  | injection _ => .injection
  | config _ => .config
  | importing _ => .importing
  | reference _ => .reference
  | custom _ => .custom
  | pull _ => .pull

def region : Block → Region
  | code b => b.toRegion
  | output b => b.toRegion
  | injection b => b.toRegion
  | config b => b.toRegion
  | importing b => b.toRegion
  | reference b => b.toRegion
  | custom b => b.toRegion
  | pull b => b.toRegion

def name? : Block → Option Text
  | code b => some b.name
  | injection b => some b.name
  | config b => some b.name
  | reference b => some b.name
  | custom b => some b.name
  | output _ => none
  | importing _ => none
  | pull _ => none

end Block

def placeholder (name : Text) : Text := "\x7b\x7b\x7b " ++ name ++ " \x7d\x7d\x7d"

/-- The path of the output: a bare file name goes to the document's directory. -/
def Output.path (b : Output) : Text :=
  if b.target.any fun c => c == Text.slash || c == Text.backslash then b.target
  else b.relDir ++ b.target

def Injection.placeholder (b : Injection) : Text := Tangle.placeholder b.name

end Tangle
