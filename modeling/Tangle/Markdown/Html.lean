import Tangle.Text.Blank
import Tangle.Text.CaseMap

namespace Tangle.Markdown.Html

open Text

inductive Ending
  | closingTag
  | mark (t : Text)
  | blankLine
  deriving DecidableEq, Repr

def rawTags : List Text := ["script", "pre", "style", "textarea"]

def blockTags : List Text :=
  List.map ofString ["address", "article", "aside", "base", "basefont", "blockquote", "body", "caption", "center",
    "col", "colgroup", "dd", "details", "dialog", "dir", "div", "dl", "dt", "fieldset",
    "figcaption", "figure", "footer", "form", "frame", "frameset", "h1", "h2", "h3", "h4", "h5",
    "h6", "head", "header", "hr", "html", "iframe", "legend", "li", "link", "main", "menu",
    "menuitem", "meta", "nav", "noframes", "ol", "optgroup", "option", "p", "param", "search",
    "section", "summary", "table", "tbody", "td", "tfoot", "th", "thead", "title", "tr", "track",
    "ul"]

def isLetter (b : UInt8) : Bool := (65 ≤ b && b ≤ 90) || (97 ≤ b && b ≤ 122)

def isDigit (b : UInt8) : Bool := 48 ≤ b && b ≤ 57

def isTagChar (b : UInt8) : Bool := isLetter b || isDigit b || b == 45

def lower (t : Text) : Text := t.map lowerByte

def Ending.within : Ending → Text → Bool
  | closingTag, line => rawTags.any fun tag => (lower line).contains ("</" ++ tag ++ ">")
  | mark t, line => line.contains t
  | blankLine, _ => false

def isLineEnd (t : Text) : Bool := t == [] || t == [lf] || t == [cr, lf]

def tagName? : Text → Option (Text × Text)
  | b :: t =>
    if isLetter b then some (b :: t.takeWhile isTagChar, t.dropWhile isTagChar) else none
  | [] => none

def isAttrBlank (b : UInt8) : Bool := b == cr || b == lf || b == space || b == tab

def startsAttrName (b : UInt8) : Bool := isLetter b || b == 95 || b == colon

def isAttrNameChar (b : UInt8) : Bool := startsAttrName b || isDigit b || b == 46 || b == 45

def isBareValueChar (b : UInt8) : Bool :=
  b > 32 && b != quote && b != 39 && b != equals && b != 60 && b != 62 && b != backtick

def afterValue? : Text → Option Text
  | [] => none
  | b :: t =>
    if b = quote ∨ b = 39 then (cutByte b t).map (·.2)
    else if isBareValueChar b then some (t.dropWhile isBareValueChar)
    else none

def afterAttr? (t : Text) : Option Text :=
  match t, t.dropWhile isAttrBlank with
  | b :: _, c :: rest =>
    if isAttrBlank b && startsAttrName c then
      let rest := rest.dropWhile isAttrNameChar
      match rest.dropWhile isAttrBlank with
      | e :: value =>
        if e = equals then some ((afterValue? (value.dropWhile isAttrBlank)).getD rest)
        else some rest
      | [] => some rest
    else none
  | _, _ => none

def afterAttrs (t : Text) : Text :=
  match afterAttr? t with
  | none => t
  | some rest => if rest.length < t.length then afterAttrs rest else t
termination_by t.length

def closesLine (t : Text) : Bool :=
  match t.dropWhile (· == space) with
  | 62 :: rest => isLineEnd (rest.dropWhile (· == space))
  | 47 :: 62 :: rest => isLineEnd (rest.dropWhile (· == space))
  | _ => false

/-- The tag that a line consists of, without its `<`: its name, whether it closes an element, and
whether it has attributes. -/
def loneTag? (t : Text) : Option (Text × Bool × Bool) :=
  let (closing, t) := match t with
    | 47 :: t => (t.head? != some space, t.dropWhile (· == space))
    | t => (false, t)
  match tagName? t with
  | none => none
  | some (name, rest) =>
    let after := afterAttrs rest
    if closesLine after then some (lower name, closing, after.length < rest.length) else none

def leadingTag? (t : Text) : Option Text :=
  let t := match t with
    | 47 :: t => t.dropWhile (· == space)
    | t => t
  match tagName? t with
  | none => none
  | some (name, rest) =>
    match rest with
    | 32 :: _ => some (lower name)
    | 62 :: _ => some (lower name)
    | 47 :: 62 :: _ => some (lower name)
    | rest => if isLineEnd rest then some (lower name) else none

def startsRaw (t : Text) : Bool :=
  rawTags.any fun tag =>
    match after? tag (lower t) with
    | none => false
    | some [] => true
    | some (b :: rest) =>
      b == tab || b == lf || b == 12 || b == cr || b == space || b == 62 ||
        (b == 47 && rest.head? == some 62)

def isUpper (b : UInt8) : Bool := 65 ≤ b && b ≤ 90

/-- The block that a line opens, where `inParagraph` says that it would interrupt a paragraph. -/
def opening? (inParagraph : Bool) (line : Text) : Option Ending :=
  match line.dropWhile (· == space) with
  | 60 :: t =>
    if startsRaw t then some .closingTag
    else if startsWith t "!--" then some (.mark "-->")
    else if startsWith t "?" then some (.mark "?>")
    else if startsWith t "!" && (t.drop 1).head?.any isUpper then some (.mark ">")
    else if startsWith t "![CDATA[" then some (.mark "]]>")
    else
      let lone : Bool := match loneTag? t with
        | none => false
        | some (name, closing, attributes) =>
          name ∈ blockTags ||
            (name ∉ rawTags.take 3 && !inParagraph && !(closing && attributes))
      let leading : Bool := match leadingTag? t with
        | none => false
        | some name => name ∈ blockTags
      if lone || leading then some .blankLine else none
  | _ => none

end Tangle.Markdown.Html
