import Tangle.Yaml.Resolve
import Tangle.Yaml.Token

namespace Tangle.Yaml

open Text Config

inductive Kind
  | scalar
  | sequence
  | mapping
  | alias
  deriving DecidableEq, Repr

structure Node where
  kind : Kind
  text : Text
  value : Value
  key? : Option Text
  merges : Bool := false

namespace Node

def empty : Node := ⟨.scalar, [], .null, some [], false⟩

def ofScalar? (tag : Text) (plain : Bool) (t : Text) : Option Node :=
  (scalar? tag plain t).map fun v =>
    ⟨.scalar, t, v, some (if v.isNull then [] else t), plain && t == "<<" && (tag == [] || tag == "!")⟩

def sequence (items : List Node) : Node :=
  ⟨.sequence, [], .list (items.map (·.value)), none, false⟩

def hasDuplicate : List (Node × Node) → Bool
  | [] => false
  | (k, _) :: rest =>
    rest.any (fun (l, _) => l.kind == k.kind && l.text == k.text) || hasDuplicate rest

def merged? (n : Node) : Option (List (Text × Value)) :=
  match n.kind, n.value with
  | _, .map entries => some entries
  | .sequence, .list items =>
    items.foldr (fun v rest =>
      match v, rest with
      | .map entries, some rest => some (entries ++ rest)
      | _, _ => none) (some [])
  | _, _ => none

def addMissing (old : List (Text × Value)) : List (Text × Value) → List (Text × Value)
  | [] => old
  | (k, v) :: rest =>
    if old.any (·.1 == k) then addMissing old rest else addMissing (old ++ [(k, v)]) rest

def entry? (p : Node × Node) : Option (Text × Value) := p.1.key?.map (·, p.2.value)

def mapping? (pairs : List (Node × Node)) : Option Node :=
  if hasDuplicate pairs then none
  else
    let (merging, own) := pairs.partition (·.1.merges)
    match own.mapM entry?, merging.mapM fun p => p.2.merged? with
    | some entries, some others =>
      some ⟨.mapping, [], .map (addMissing (addMissing [] entries) others.flatten), none, false⟩
    | _, _ => none

end Node

/-- What is left to read, and the nodes that have names; one without a node is not complete yet. -/
structure Reader where
  tokens : List Token
  anchors : List (Text × Option Node) := []

namespace Reader

def next (r : Reader) : Reader := { r with tokens := r.tokens.drop 1 }

def at? (r : Reader) (ts : List Token) : Bool := r.tokens.head?.any (ts.contains ·)

def name (r : Reader) (anchor : Text) (n : Option Node) : Reader :=
  if anchor = [] then r else { r with anchors := (anchor, n) :: r.anchors }

def properties (r : Reader) : Text × Text × Reader :=
  match r.tokens with
  | .anchor a :: .tag t :: rest => (a, t, { r with tokens := rest })
  | .tag t :: .anchor a :: rest => (a, t, { r with tokens := rest })
  | .anchor a :: rest => (a, [], { r with tokens := rest })
  | .tag t :: rest => ([], t, { r with tokens := rest })
  | _ => ([], [], r)

mutual

/-- A node. Only in a block can a block start, and where `loose` holds the entries of a sequence may
stand without a block of their own. -/
def node (fuel : Nat) (inBlock loose : Bool) (r : Reader) : Option (Node × Reader) :=
  match fuel with
  | 0 => none
  | fuel + 1 =>
    match r.tokens with
    | .alias a :: rest =>
      match r.anchors.lookup a with
      | some (some n) =>
        some ({ n with kind := .alias, text := a, merges := false }, { r with tokens := rest })
      | _ => none
    | _ =>
      let (anchor, tag, r) := r.properties
      let r := r.name anchor none
      let found : Option (Node × Reader) :=
        match r.tokens with
        | .entry :: _ =>
          if loose then (looseItems fuel r).map fun (items, r) => (.sequence items, r)
          else if anchor ≠ [] ∨ tag ≠ [] then (Node.ofScalar? tag true []).map (·, r)
          else none
        | .scalar plain t :: _ => (Node.ofScalar? tag plain t).map (·, r.next)
        | .flowSequence :: _ =>
          (flowItems fuel true r.next).map fun (items, r) => (.sequence items, r)
        | .flowMapping :: _ =>
          match flowPairs fuel true r.next with
          | some (pairs, r) => (Node.mapping? pairs).map (·, r)
          | none => none
        | t :: _ =>
          if inBlock ∧ t = .blockSequence then
            (blockItems fuel r.next).map fun (items, r) => (.sequence items, r)
          else if inBlock ∧ t = .blockMapping then
            match blockPairs fuel r.next with
            | some (pairs, r) => (Node.mapping? pairs).map (·, r)
            | none => none
          else if anchor ≠ [] ∨ tag ≠ [] then (Node.ofScalar? tag true []).map (·, r)
          else none
        | [] => none
      found.map fun (n, r) => (n, r.name anchor (some n))

def blockItems (fuel : Nat) (r : Reader) : Option (List Node × Reader) :=
  match fuel with
  | 0 => none
  | fuel + 1 =>
    match r.tokens with
    | .blockEnd :: _ => some ([], r.next)
    | .entry :: _ =>
      let r := r.next
      match if r.at? [.entry, .blockEnd] then some (.empty, r) else node fuel true false r with
      | some (n, r) => (blockItems fuel r).map fun (items, r) => (n :: items, r)
      | none => none
    | _ => none

def looseItems (fuel : Nat) (r : Reader) : Option (List Node × Reader) :=
  match fuel with
  | 0 => none
  | fuel + 1 =>
    match r.tokens with
    | .entry :: _ =>
      let r := r.next
      match
        if r.at? [.entry, .key, .value, .blockEnd] then some (.empty, r) else node fuel true false r
      with
      | some (n, r) => (looseItems fuel r).map fun (items, r) => (n :: items, r)
      | none => none
    | _ => some ([], r)

def blockPairs (fuel : Nat) (r : Reader) : Option (List (Node × Node) × Reader) :=
  match fuel with
  | 0 => none
  | fuel + 1 =>
    let part (r : Reader) : Option (Node × Reader) :=
      if r.at? [.key, .value, .blockEnd] then some (.empty, r) else node fuel true true r
    match r.tokens with
    | .blockEnd :: _ => some ([], r.next)
    | .key :: _ =>
      match part r.next with
      | none => none
      | some (k, r) =>
        match if r.at? [.value] then part r.next else some (.empty, r) with
        | some (v, r) => (blockPairs fuel r).map fun (pairs, r) => ((k, v) :: pairs, r)
        | none => none
    | _ => none

def flowItems (fuel : Nat) (first : Bool) (r : Reader) : Option (List Node × Reader) :=
  match fuel with
  | 0 => none
  | fuel + 1 =>
    if r.at? [.flowSequenceEnd] then some ([], r.next)
    else if !first && !r.at? [.comma] then none
    else
      let r := if first then r else r.next
      if r.at? [.flowSequenceEnd] then some ([], r.next)
      else
        let item : Option (Node × Reader) :=
          if r.at? [.key] then
            let r := r.next
            match
              if r.at? [.value, .comma, .flowSequenceEnd] then some (.empty, r.next)
              else node fuel false false r
            with
            | none => none
            | some (k, r) =>
              let value : Option (Node × Reader) :=
                if r.at? [.value] then
                  let r := r.next
                  if r.at? [.comma, .flowSequenceEnd] then some (.empty, r)
                  else node fuel false false r
                else some (.empty, r)
              match value with
              | some (v, r) => (Node.mapping? [(k, v)]).map (·, r)
              | none => none
          else node fuel false false r
        match item with
        | some (n, r) => (flowItems fuel false r).map fun (items, r) => (n :: items, r)
        | none => none

def flowPairs (fuel : Nat) (first : Bool) (r : Reader) : Option (List (Node × Node) × Reader) :=
  match fuel with
  | 0 => none
  | fuel + 1 =>
    if r.at? [.flowMappingEnd] then some ([], r.next)
    else if !first && !r.at? [.comma] then none
    else
      let r := if first then r else r.next
      if r.at? [.flowMappingEnd] then some ([], r.next)
      else
        let pair : Option ((Node × Node) × Reader) :=
          if r.at? [.key] then
            let r := r.next
            match
              if r.at? [.value, .comma, .flowMappingEnd] then some (.empty, r)
              else node fuel false false r
            with
            | none => none
            | some (k, r) =>
              if r.at? [.value] then
                let r := r.next
                if r.at? [.comma, .flowMappingEnd] then some ((k, .empty), r)
                else (node fuel false false r).map fun (v, r) => ((k, v), r)
              else some ((k, .empty), r)
          else (node fuel false false r).map fun (k, r) => ((k, .empty), r)
        match pair with
        | some (p, r) => (flowPairs fuel false r).map fun (pairs, r) => (p :: pairs, r)
        | none => none

end

def content (r : Reader) : Option (Node × Reader) :=
  if r.at? [.directive, .documentStart, .documentEnd, .streamEnd] then some (.empty, r)
  else node (4 * r.tokens.length + 8) true false r

def document (r : Reader) : Option (Node × Reader) :=
  if r.at? [.streamEnd] then some (.empty, r)
  else if r.at? [.directive, .documentStart] then
    let r := { r with tokens := r.tokens.dropWhile (· == Token.directive) }
    if r.at? [.documentStart] then content r.next else none
  else node (4 * r.tokens.length + 8) true false r

end Reader

/-- The value of the first document. Two tokens behind it are looked at as well, so they must be
ones. -/
def read? (t : Text) : Option Value :=
  match stream? t with
  | none => none
  | some cs =>
    let (ts, complete) := tokens cs
    match Reader.document ⟨ts, []⟩ with
    | none => none
    | some (n, r) => if complete ∨ 3 ≤ r.tokens.length then some n.value else none

def settings? (t : Text) : Option (List (Text × Value)) :=
  match read? t with
  | some (.map entries) => some entries
  | some .null => some []
  | _ => none

end Tangle.Yaml
