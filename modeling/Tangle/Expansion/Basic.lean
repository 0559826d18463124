import Tangle.Block.Store
import Tangle.Config.Options
import Tangle.Expansion.Token
import Tangle.Extract
import Tangle.Log

/-!
Placeholders replaced by the blocks that they name. A text is gone through again and again until a
pass replaces nothing. The text of a block is expanded first and remembered, and a block that needs
itself is an error. The recursion ends because the blocks being expanded have different keys, and
all of those are keys of the store.
-/

namespace Tangle.Expansion

open Text

inductive Failure
  | cyclic (names : List Text)
  | unresolved (name : Text) (line : Nat)
  /-- Some text kept changing; `left` is what it was when the passes ran out, or nothing when it
  was the text of a block. -/
  | limit (passes : Nat) (left : Text)
  | reference (name : Text) (f : Extract.Failure)
  deriving DecidableEq, Repr

namespace Failure

def message : Failure → Text
  | cyclic names => "cyclic reference: " ++ join " -> " names
  | unresolved name line =>
    "unresolved placeholder " ++ placeholder name ++ " on line " ++ Decimal.ofNat line
  | limit passes _ => "expansion did not settle after " ++ Decimal.ofNat passes ++ " passes"
  | reference name f => "reference " ++ name ++ ": " ++ f.message

def left : Failure → Text
  | limit _ text => text
  | _ => []

def within : Failure → Failure
  | limit passes _ => limit passes []
  | f => f

end Failure

structure Context where
  store : Store
  options : Options
  base : Base
  fetch : Ref → Except Extract.Failure Text

structure Frame where
  key : Text
  name : Text
  deriving DecidableEq, Repr

def Frame.ofBlock (b : Block) : Frame :=
  let name := b.name?.getD []
  ⟨b.kind.name ++ ":" ++ b.region.source ++ ":" ++ name, name⟩

/-- What an expansion leaves behind: texts of blocks that it worked out, names that it warned about,
and its log. -/
structure Session (s : Store) where
  memo : List (s.Id × Text) := []
  warned : List Text := []
  log : List Log.Entry := []

namespace Session

def note {s : Store} (session : Session s) (level : Log.Level) (message : Text)
    (fields : List (Text × Log.Value)) : Session s :=
  { session with log := session.log ++ [⟨level, message, fields⟩] }

def remember {s : Store} (session : Session s) (i : s.Id) (text : Text) : Session s :=
  { session with memo := (i, text) :: session.memo }

end Session

abbrev Result (s : Store) (α : Type) : Type := Except Failure α × Session s

namespace Context

variable (ctx : Context)

def candidates : List Kind := [.reference, .code]

def isFrom (source document : Text) : Bool :=
  document == source || ctx.base.same document source || ctx.base.display document == source

def findQualified? (name : Text) : Option ctx.store.Id :=
  match cutLast colon name with
  | none => none
  | some (source, short) =>
    if source = [] ∨ short = [] then none
    else candidates.findSome? fun k => ctx.store.findFrom? k short.trim (ctx.isFrom source.trim)

/-- The block that a placeholder means: first with the part before the last colon as its document,
then by the whole name. -/
def find? (name : Text) : Option ctx.store.Id :=
  match ctx.findQualified? name with
  | some i => some i
  | none => candidates.findSome? fun k => ctx.store.find? k name

def provenance (b : Block) (name : Text) : Text :=
  if ctx.options.outputSource then
    let source := b.region.source
    let shown := if ctx.options.absoluteSources then ctx.base.resolve source
      else ctx.base.display source
    "// Source: " ++ shown ++ "\n// Anchor: " ++ name ++ "\n"
  else []

/-- A placeholder without a block: a failure or a warning, as the policy says. One name is warned
about once. -/
def unresolved (name : Text) (line : Nat) (s : Session ctx.store) : Result ctx.store Unit :=
  match ctx.options.unresolved with
  | .error => (.error (.unresolved name line), s)
  | .warn =>
    if s.warned.contains name then (.ok (), s)
    else
      (.ok (), { s with warned := name :: s.warned }.note .warn "Unresolved placeholder"
        [("name", .text name), ("line", .number line)])
  | _ => (.ok (), s)

abbrev Content : Type := ctx.store.Id → Session ctx.store → Result ctx.store Text

variable (content : ctx.Content)

def expandSegment (indent : Text) (line : Nat) (segment : Segment) (s : Session ctx.store) :
    Result ctx.store (Text × Nat) :=
  match segment with
  | .byte b => (.ok ([b], 0), s)
  | .token run =>
    match ctx.find? (tokenName run) with
    | none =>
      match ctx.unresolved (tokenName run) line s with
      | (.error f, s) => (.error f, s)
      | (.ok (), s) => (.ok (segment.text, 0), s)
    | some i =>
      match content i s with
      | (.error f, s) => (.error f.within, s)
      | (.ok text, s) =>
        let b := ctx.store.get i
        (.ok (hang indent (ctx.provenance b (b.name?.getD []) ++ text), 1), s)

def expandSegments (indent : Text) (line : Nat) :
    List Segment → Session ctx.store → Result ctx.store (Text × Nat)
  | [], s => (.ok ([], 0), s)
  | segment :: rest, s =>
    match ctx.expandSegment content indent line segment s with
    | (.error f, s) => (.error f, s)
    | (.ok (text, n), s) =>
      match expandSegments indent line rest s with
      | (.error f, s) => (.error f, s)
      | (.ok (more, m), s) => (.ok (text ++ more, n + m), s)

def expandLine (line : Nat) (text : Text) (s : Session ctx.store) : Result ctx.store (Text × Nat) :=
  ctx.expandSegments content (indentation text) line (segments text) s

def expandLines (line : Nat) :
    List Text → Session ctx.store → Result ctx.store (List Text × Nat)
  | [], s => (.ok ([], 0), s)
  | text :: rest, s =>
    match ctx.expandLine content line text s with
    | (.error f, s) => (.error f, s)
    | (.ok (text, n), s) =>
      match expandLines (line + 1) rest s with
      | (.error f, s) => (.error f, s)
      | (.ok (more, m), s) => (.ok (text :: more, n + m), s)

def expandPasses : (passes : Nat) → Text → Session ctx.store → Result ctx.store Text
  | 0, text, s => (.error (.limit ctx.options.maxPasses text), s)
  | passes + 1, text, s =>
    match ctx.expandLines content 1 (split lf text) s with
    | (.error f, s) => (.error f, s)
    | (.ok (lines, 0), s) => (.ok (join [lf] lines), s)
    | (.ok (lines, _ + 1), s) => expandPasses passes (join [lf] lines) s

/-- `maxPasses` passes may replace something; the one after them must not. -/
def expandWith (text : Text) (s : Session ctx.store) : Result ctx.store Text :=
  ctx.expandPasses content (ctx.options.maxPasses + 1) text s

/-- The unexpanded text of a block. A tagged part that is not closed is used as far as it goes. -/
def raw (b : Block) (s : Session ctx.store) : Result ctx.store Text :=
  match b with
  | .reference r =>
    match ctx.fetch r.ref with
    | .ok text => (.ok text, s)
    | .error f =>
      match f with
      | .tagNotClosed _ _ text =>
        (.ok text, s.note .warn "Using partial tag region"
          [("reference", .text r.name), ("error", .text f.message)])
      | f => (.error (.reference r.name f), s)
  | b => (.ok b.region.body, s)

def cycle? (stack : List Frame) (frame : Frame) : Option (List Text) :=
  if stack.all (·.key ≠ frame.key) then none
  else some ((stack.dropWhile (·.key ≠ frame.key)).map (·.name) ++ [frame.name])

def fresh (stack : List Frame) : List ctx.store.Id :=
  (List.finRange ctx.store.size).filter fun i =>
    stack.all (·.key ≠ (Frame.ofBlock (ctx.store.get i)).key)

theorem all_of_cycle?_eq_none {stack : List Frame} {frame : Frame}
    (h : cycle? stack frame = none) : stack.all (·.key ≠ frame.key) := by
  unfold cycle? at h
  split at h
  next hall => exact hall
  next => simp at h

theorem length_fresh_append_lt {stack : List Frame} {i : ctx.store.Id}
    (h : cycle? stack (Frame.ofBlock (ctx.store.get i)) = none) :
    (ctx.fresh (stack ++ [Frame.ofBlock (ctx.store.get i)])).length < (ctx.fresh stack).length := by
  have hsub : ctx.fresh (stack ++ [Frame.ofBlock (ctx.store.get i)]) =
      (ctx.fresh stack).filter fun j =>
        (Frame.ofBlock (ctx.store.get i)).key ≠ (Frame.ofBlock (ctx.store.get j)).key := by
    simp only [fresh, List.filter_filter]
    congr 1
    funext j
    simp [List.all_append, Bool.and_comm]
  rw [hsub]
  refine List.length_filter_lt_length_iff_exists.2 ⟨i, ?_, by simp⟩
  exact List.mem_filter.2 ⟨List.mem_finRange i, all_of_cycle?_eq_none h⟩

def contentOf (stack : List Frame) (i : ctx.store.Id) (s : Session ctx.store) :
    Result ctx.store Text :=
  let frame := Frame.ofBlock (ctx.store.get i)
  match _h : cycle? stack frame with
  | some names => (.error (.cyclic names), s)
  | none =>
    match s.memo.lookup i with
    | some text => (.ok text, s)
    | none =>
      match ctx.raw (ctx.store.get i) s with
      | (.error f, s) => (.error f, s)
      | (.ok raw, s) =>
        match ctx.expandWith (fun j s => contentOf (stack ++ [frame]) j s) raw.dropFinalLf s with
        | (.error f, s) => (.error f, s)
        | (.ok text, s) => (.ok text, s.remember i text)
termination_by (ctx.fresh stack).length
decreasing_by exact length_fresh_append_lt ctx _h

def start (memo : List (ctx.store.Id × Text)) : Session ctx.store := { memo }

def resolve (memo : List (ctx.store.Id × Text)) (text : Text) : Result ctx.store Text :=
  ctx.expandWith (ctx.contentOf []) text (ctx.start memo)

def body (memo : List (ctx.store.Id × Text)) (r : Region) : Result ctx.store Text :=
  ctx.resolve memo r.body.dropFinalLf

end Context

end Tangle.Expansion
