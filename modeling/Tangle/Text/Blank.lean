import Tangle.Text.Basic

namespace Tangle.Text

def isBlank1 (a : UInt8) : Bool := (9 ≤ a && a ≤ 13) || a == 32

/-- U+0085 and U+00A0. -/
def isBlank2 (a b : UInt8) : Bool := a == 0xC2 && (b == 0x85 || b == 0xA0)

/-- U+1680, U+2000 to U+200A, U+2028, U+2029, U+202F, U+205F and U+3000. -/
def isBlank3 (a b c : UInt8) : Bool :=
  (a == 0xE1 && b == 0x9A && c == 0x80) ||
  (a == 0xE2 && b == 0x80 && ((0x80 ≤ c && c ≤ 0x8A) || c == 0xA8 || c == 0xA9 || c == 0xAF)) ||
  (a == 0xE2 && b == 0x81 && c == 0x9F) ||
  (a == 0xE3 && b == 0x80 && c == 0x80)

def dropForms (one : UInt8 → Bool) (two : UInt8 → UInt8 → Bool)
    (three : UInt8 → UInt8 → UInt8 → Bool) : Text → Text
  | [] => []
  | a :: t =>
    if one a then dropForms one two three t
    else
      match t with
      | [] => [a]
      | b :: t =>
        if two a b then dropForms one two three t
        else
          match t with
          | [] => [a, b]
          | c :: t => if three a b c then dropForms one two three t else a :: b :: c :: t

def trimStart (t : Text) : Text := dropForms isBlank1 isBlank2 isBlank3 t

def trimEnd (t : Text) : Text :=
  (dropForms isBlank1 (fun b a => isBlank2 a b) (fun c b a => isBlank3 a b c) t.reverse).reverse

def trim (t : Text) : Text := t.trimStart.trimEnd

def startsBlank (t : Text) : Bool := t.trimStart.length < t.length

def takeWord : Text → Text
  | [] => []
  | b :: t => if startsBlank (b :: t) then [] else b :: takeWord t

def firstWord (t : Text) : Text := takeWord t.trimStart

end Tangle.Text
