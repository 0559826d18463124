namespace Tangle

abbrev CharSet := List (Nat × Nat)

namespace CharSet

def contains (s : CharSet) (c : Nat) : Bool := s.any fun (lo, hi) => lo ≤ c && c ≤ hi

def hexValue (c : Char) : Nat := if c.isDigit then c.toNat - 48 else c.toNat - 87

def readHex (s : List Char) : Nat := s.foldl (fun n c => 16 * n + hexValue c) 0

def readRange (word : List Char) : Nat × Nat :=
  let lo := word.takeWhile (· != '-')
  match word.drop lo.length with
  | _ :: hi => (readHex lo, readHex hi)
  | [] => (readHex lo, readHex lo)

def readWords : List Char → List (List Char)
  | [] => []
  | c :: cs =>
    match c == ' ', readWords cs with
    | true, words => [] :: words
    | false, word :: words => (c :: word) :: words
    | false, [] => [[c]]

/-- Reads ranges such as `41-5a aa b5`, in lower-case hexadecimal. -/
def ofLines (lines : List String) : CharSet :=
  lines.flatMap fun line => ((readWords line.toList).filter (!·.isEmpty)).map readRange

end CharSet

end Tangle
