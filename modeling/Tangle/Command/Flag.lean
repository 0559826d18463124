import Tangle.Number.Literal

namespace Tangle.Command

open Text

inductive Flag
  | inputPath
  | outputPath
  | outputFile
  | documentPattern
  | unresolved
  | maxPasses
  | outputSource
  | absoluteSources
  | dryRun
  | verbose
  | quiet
  | help
  | version
  deriving DecidableEq, Repr

namespace Flag

def name : Flag → Text
  | inputPath => "input-path"
  | outputPath => "output-path"
  | outputFile => "output-file"
  | documentPattern => "md-file"
  | unresolved => "unresolved"
  | maxPasses => "max-passes"
  | outputSource => "output-source"
  | absoluteSources => "absolute-source-paths"
  | dryRun => "dry-run"
  | verbose => "verbose"
  | quiet => "quiet"
  | help => "help"
  | version => "version"

def letter? : Flag → Option UInt8
  | inputPath => some 105
  | outputPath => some 111
  | verbose => some 118
  | quiet => some 113
  | help => some 104
  | _ => none

def isSwitch : Flag → Bool
  | outputSource => true
  | absoluteSources => true
  | dryRun => true
  | verbose => true
  | quiet => true
  | help => true
  | version => true
  | _ => false

def shared : List Flag :=
  [inputPath, outputPath, outputFile, documentPattern, unresolved, maxPasses, outputSource,
    absoluteSources, dryRun, verbose, quiet]

def shown (f : Flag) : Text :=
  match f.letter? with
  | some c => "-" ++ [c] ++ ", --" ++ f.name
  | none => "--" ++ f.name

end Flag

structure Flags where
  texts : List (Flag × Text) := []
  truths : List (Flag × Bool) := []
  maxPasses : Option Int := none
  deriving DecidableEq, Repr

namespace Flags

def text? (fs : Flags) (f : Flag) : Option Text := fs.texts.lookup f

def truth? (fs : Flags) (f : Flag) : Option Bool := fs.truths.lookup f

def isSet (fs : Flags) (f : Flag) : Bool := fs.truth? f == some true

end Flags

inductive Fault
  | badSyntax (argument : Text)
  | unknown (name : Text)
  | unknownLetter (letter : UInt8) (letters : Text)
  | missingValue (name : Text)
  | missingLetterValue (letter : UInt8) (letters : Text)
  | badNumber (f : Flag) (value : Text) (cause : Literal.Fault)
  | badTruth (f : Flag) (value : Text) (cause : Literal.Fault)
  | tooManyArguments (count : Nat)
  deriving DecidableEq, Repr

namespace Fault

/-- A letter in single quotes. A byte that is no letter of its own shows as the first byte of its
code point. -/
def quotedLetter (b : UInt8) : Text :=
  if b = 39 then "'\\''"
  else
    let c : Nat := if b < 0x80 then b.toNat else if b < 0xC0 then 0xC2 else 0xC3
    let shown := if c = 34 then [quote] else quotePiece (.char (Char.ofNat c))
    "'" ++ shown ++ "'"

def message : Fault → Text
  | badSyntax argument => "bad flag syntax: " ++ argument
  | unknown name => "unknown flag: --" ++ name
  | unknownLetter letter letters =>
    "unknown shorthand flag: " ++ quotedLetter letter ++ " in -" ++ letters
  | missingValue name => "flag needs an argument: --" ++ name
  | missingLetterValue letter letters =>
    "flag needs an argument: " ++ quotedLetter letter ++ " in -" ++ letters
  | badNumber f value cause =>
    "invalid argument " ++ value.quoted ++ " for " ++ f.shown.quoted ++
      " flag: strconv.ParseInt: parsing " ++ value.quoted ++ ": " ++ cause.message
  | badTruth f value cause =>
    "invalid argument " ++ value.quoted ++ " for " ++ f.shown.quoted ++
      " flag: strconv.ParseBool: parsing " ++ value.quoted ++ ": " ++ cause.message
  | tooManyArguments count =>
    "accepts at most 1 arg(s), received " ++ Decimal.ofNat count

end Fault

namespace Flags

def set (fs : Flags) (f : Flag) (value : Text) : Except Fault Flags :=
  if f.isSwitch then
    match Literal.toBool value with
    | .ok b => .ok { fs with truths := (f, b) :: fs.truths }
    | .error cause => .error (.badTruth f value cause)
  else if f = .maxPasses then
    match Literal.toInt value with
    | .ok n => .ok { fs with maxPasses := some n }
    | .error cause => .error (.badNumber f value cause)
  else .ok { fs with texts := (f, value) :: fs.texts }

def truthWord : Text := "true"

def readLong (known : List Flag) (fs : Flags) (body : Text) (rest : List Text) :
    Except Fault (Flags × List Text) :=
  let (name, value?) := match cutByte equals body with
    | some (name, value) => (name, some value)
    | none => (body, none)
  if body = [] ∨ body.head? = some 45 ∨ body.head? = some equals then .error (.badSyntax ("--" ++ body))
  else
    match known.find? (·.name = name) with
    | none => .error (.unknown name)
    | some f =>
      match value?, rest with
      | some value, _ => (fs.set f value).map (·, rest)
      | none, rest =>
        if f.isSwitch then (fs.set f truthWord).map (·, rest)
        else
          match rest with
          | value :: rest => (fs.set f value).map (·, rest)
          | [] => .error (.missingValue name)

def readLetters (known : List Flag) (fs : Flags) (letters : Text) (rest : List Text) :
    Except Fault (Flags × List Text) :=
  if startsWith letters "test." then .ok (fs, rest)
  else
    match letters with
    | [] => .ok (fs, rest)
    | c :: more =>
      match known.find? (·.letter? = some c) with
      | none => .error (.unknownLetter c (c :: more))
      | some f =>
        match more with
        | 61 :: a :: value => (fs.set f (a :: value)).map (·, rest)
        | more =>
          if f.isSwitch then
            match fs.set f truthWord with
            | .error e => .error e
            | .ok fs => readLetters known fs more rest
          else if more ≠ [] then (fs.set f more).map (·, rest)
          else
            match rest with
            | value :: rest => (fs.set f value).map (·, rest)
            | [] => .error (.missingLetterValue c (c :: more))

/-- Reads all arguments. Flags may follow other arguments, and two dashes end them. -/
def read (known : List Flag) (fs : Flags) (arguments : List Text) :
    (fuel : Nat) → List Text → Except Fault (Flags × List Text)
  | 0, rest => .ok (fs, arguments ++ rest)
  | _ + 1, [] => .ok (fs, arguments)
  | fuel + 1, a :: rest =>
    match a with
    | 45 :: 45 :: body =>
      if body = [] then .ok (fs, arguments ++ rest)
      else
        match readLong known fs body rest with
        | .error e => .error e
        | .ok (fs, rest) => read known fs arguments fuel rest
    | 45 :: c :: letters =>
      match readLetters known fs (c :: letters) rest with
      | .error e => .error e
      | .ok (fs, rest) => read known fs arguments fuel rest
    | a => read known fs (arguments ++ [a]) fuel rest

def ofArguments (known : List Flag) (args : List Text) : Except Fault (Flags × List Text) :=
  read known {} [] (args.length + 1) args

end Flags

end Tangle.Command
