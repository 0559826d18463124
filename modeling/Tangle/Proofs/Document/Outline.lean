import Tangle.Document.Lexer
import Tangle.Proofs.Text.Lines

/-!
The outline of a document: single lines and regions in turn, and at the end perhaps a region that
nothing closes. All lines have an outline, and what the lexer finds in them is what the parts of the
outline hold, each in its place (`run_eq_gather`). So nothing but its place ties a part to what comes
before it.
-/

namespace Tangle

namespace Lexed

@[simp] theorem empty_append (a : Lexed) : empty ++ a = a := rfl

@[simp] theorem append_empty (a : Lexed) : a ++ empty = a := by
  change append a empty = a
  simp [append, empty]

theorem append_assoc (a b c : Lexed) : a ++ b ++ c = a ++ (b ++ c) := by
  change append (append a b) c = append a (append b c)
  simp [append]

def concat : List Lexed → Lexed
  | [] => .empty
  | a :: rest => a ++ concat rest

@[simp] theorem blocks_concat (as : List Lexed) : (concat as).blocks = as.flatMap blocks := by
  induction as with
  | nil => rfl
  | cons a as ih => simp [concat, ih]

@[simp] theorem spans_concat (as : List Lexed) : (concat as).spans = as.flatMap spans := by
  induction as with
  | nil => rfl
  | cons a as ih => simp [concat, ih]

@[simp] theorem diagnostics_concat (as : List Lexed) :
    (concat as).diagnostics = as.flatMap diagnostics := by
  induction as with
  | nil => rfl
  | cons a as ih => simp [concat, ih]

end Lexed

def Kind.isFenced : Kind → Bool
  | custom => false
  | pull => false
  | _ => true

def Ref.HasPath (file body : Text) : Prop :=
  ∃ ref, ofBody body = (ref, none) ∧ (ref.path ≠ [] ∨ file ≠ [])

def Kind.Complete (attrs : Attributes) (body : Text) : Kind → Prop
  | code => attrs.get "name" ≠ []
  | output => attrs.get "file" ≠ []
  | injection => attrs.get "name" ≠ [] ∧ attrs.get "file" ≠ []
  | config => attrs.get "name" ≠ []
  | importing => Ref.HasPath (attrs.get "file") body
  | reference => attrs.get "name" ≠ [] ∧ Ref.HasPath (attrs.get "file") body
  | custom => False
  | pull => False

namespace Lexer

inductive Delimiter
  | fence
  | custom (name : Text)
  deriving DecidableEq, Repr

def opens? (raw : Text) : Option Delimiter :=
  if isFence raw.dropLineEnd then some .fence
  else (Marker.customName? raw.dropLineEnd).map .custom

namespace Delimiter

def closes : Delimiter → Text → Bool
  | fence, raw => isFence raw.dropLineEnd
  | custom _, raw => Marker.isCustomEnd raw.dropLineEnd

def state (opening : Text) (n offset : Nat) (body : Text) : Delimiter → State
  | fence => .fence opening.dropLineEnd n offset body
  | custom name => .custom name n offset body

def content (o : Origin) (opening : Text) (r : Region) (line : Nat) : Delimiter → Lexed
  | fence =>
    if isLiterate opening.dropLineEnd then
      literate o (.ofLine opening.dropLineEnd) r line
    else .empty
  | custom name => .block (.custom ⟨r, name⟩)

end Delimiter

def bodyOf (inner : List Text) : Text := Text.unlines (inner.map Text.dropLineEnd)

structure Opened where
  delimiter : Delimiter
  opening : Text
  inner : List Text
  opens?_opening : opens? opening = some delimiter
  closes_inner : ∀ raw ∈ inner, delimiter.closes raw = false

structure Enclosed extends Opened where
  closing : Text
  closes_closing : delimiter.closes closing = true

namespace Enclosed

def lines (r : Enclosed) : List Text := r.opening :: (r.inner ++ [r.closing])

def place (r : Enclosed) (o : Origin) (before : List Text) : Region :=
  ⟨o.source, bodyOf r.inner, ↑(before.length + 1), ↑(before.length + 1 + 1 + r.inner.length)⟩

end Enclosed

inductive Part
  | line (raw : Text) (h : opens? raw = none)
  | enclosed (r : Enclosed)
  | unclosed (r : Opened)

namespace Part

def lines : Part → List Text
  | line raw _ => [raw]
  | enclosed r => r.lines
  | unclosed r => r.opening :: r.inner

def IsClosed : Part → Prop
  | line _ _ => True
  | enclosed _ => True
  | unclosed _ => False

/-- What a part contributes when it comes after the lines `before`. -/
def found (o : Origin) (before : List Text) : Part → Lexed
  | line raw _ =>
    match pull? o (before.length + 1) raw.dropLineEnd with
    | some p => .block (.pull p)
    | none => .empty
  | enclosed r =>
    .span ⟨before.flatten.length, (before ++ r.lines).flatten.length⟩ ++
      r.delimiter.content o r.opening (r.place o before) (before.length + 1)
  | unclosed _ => problem o (before.length + 1) "block opened here is never closed"

end Part

/-- The lines are those of the parts, and only the last part may be unclosed. -/
inductive Outline : List Part → List Text → Prop
  | nil : Outline [] []
  | cons {p : Part} {parts : List Part} {lines : List Text} (hp : p.IsClosed)
    (rest : Outline parts lines) : Outline (p :: parts) (p.lines ++ lines)
  | last (r : Opened) : Outline [.unclosed r] (r.opening :: r.inner)

theorem exists_outline (lines : List Text) : ∃ parts, Outline parts lines := by
  -- A region takes several lines at once, so the induction is on their number.
  induction h : lines.length using Nat.strong_induction_on generalizing lines with
  | _ n ih =>
    cases lines with
    | nil => exact ⟨[], .nil⟩
    | cons raw rest =>
      cases hopen : opens? raw with
      | none =>
        obtain ⟨parts, hparts⟩ := ih rest.length (by simp at h; omega) rest rfl
        exact ⟨_, .cons (p := .line raw hopen) trivial hparts⟩
      | some d =>
        cases hfind : rest.find? d.closes with
        | none =>
          refine ⟨_, .last ⟨d, raw, rest, hopen, fun raw hraw => ?_⟩⟩
          simpa using List.find?_eq_none.1 hfind raw hraw
        | some closing =>
          obtain ⟨hclose, inner, lines, rfl, hinner⟩ := List.find?_eq_some_iff_append.1 hfind
          obtain ⟨parts, hparts⟩ := ih lines.length (by simp at h; omega) lines rfl
          have hinner : ∀ raw ∈ inner, d.closes raw = false := by simpa using hinner
          let r : Enclosed := ⟨⟨d, raw, inner, hopen, hinner⟩, closing, hclose⟩
          have houtline : Outline (.enclosed r :: parts) (r.lines ++ lines) := .cons trivial hparts
          exact ⟨_, by simpa [r, Enclosed.lines] using houtline⟩

theorem Outline.flatMap_lines {parts : List Part} {lines : List Text} (h : Outline parts lines) :
    parts.flatMap Part.lines = lines := by
  induction h with
  | nil => rfl
  | cons hp rest ih => rw [List.flatMap_cons, ih]
  | last r => simp [Part.lines]

def placed (before : List Text) : List Part → List (List Text × Part)
  | [] => []
  | p :: parts => (before, p) :: placed (before ++ p.lines) parts

def gather (o : Origin) (before : List Text) (parts : List Part) : Lexed :=
  .concat ((placed before parts).map fun (earlier, p) => p.found o earlier)

theorem gather_cons (o : Origin) (before : List Text) (p : Part) (parts : List Part) :
    gather o before (p :: parts) = p.found o before ++ gather o (before ++ p.lines) parts := rfl

section Run

variable {o : Origin} {d : Delimiter} {opening raw : Text} {n m offset start : Nat} {body : Text}

theorem step_of_opens?_eq_none (hraw : opens? raw = none) (before : List Text) :
    step o .outside (before.length + 1) offset raw =
      (.outside, (Part.line raw hraw).found o before) := by
  have h := hraw
  simp only [opens?] at h
  split at h
  next => simp at h
  next hfence =>
    rw [Option.map_eq_none_iff] at h
    simp only [step, hfence, h, Part.found]
    cases pull? o (before.length + 1) raw.dropLineEnd <;> rfl

theorem step_of_opens?_eq_some (h : opens? raw = some d) :
    step o .outside n offset raw = (d.state raw n offset [], .empty) := by
  simp only [opens?] at h
  split at h
  next hfence =>
    cases h
    simp [step, hfence, Delimiter.state]
  next hfence =>
    obtain ⟨name, hname, rfl⟩ := Option.map_eq_some_iff.1 h
    simp [step, hfence, hname, Delimiter.state]

theorem step_inside (h : d.closes raw = false) :
    step o (d.state opening m start body) n offset raw =
      (d.state opening m start (body ++ raw.dropLineEnd ++ [Text.lf]), .empty) := by
  cases d with
  | fence =>
    simp only [Delimiter.closes] at h
    simp [step, Delimiter.state, h]
  | custom name =>
    simp only [Delimiter.closes] at h
    simp [step, Delimiter.state, h]

theorem step_closing (h : d.closes raw = true) :
    step o (d.state opening m start body) n offset raw =
      (.outside, .span ⟨start, offset + raw.length⟩ ++
        d.content o opening ⟨o.source, body, m, n⟩ m) := by
  cases d with
  | fence =>
    simp only [Delimiter.closes] at h
    simp only [step, Delimiter.state, h, Delimiter.content, if_true]
    split
    next => rfl
    next => rw [Lexed.append_empty]
  | custom name =>
    simp only [Delimiter.closes] at h
    simp [step, Delimiter.state, h, Delimiter.content]

theorem finish_state :
    finish o (d.state opening n start body) = problem o n "block opened here is never closed" := by
  cases d <;> rfl

theorem run_inside {inner : List Text} (h : ∀ raw ∈ inner, d.closes raw = false)
    (rest : List Text) :
    run o (d.state opening m start body) n offset (inner ++ rest) =
      run o (d.state opening m start (body ++ bodyOf inner)) (n + inner.length)
        (offset + inner.flatten.length) rest := by
  induction inner generalizing body n offset with
  | nil => simp [bodyOf, Text.unlines]
  | cons raw inner ih =>
    rw [List.cons_append, run, step_inside (h raw (List.mem_cons_self ..))]
    dsimp only
    rw [Lexed.empty_append, ih fun raw hraw => h raw (List.mem_cons_of_mem _ hraw)]
    congr 1
    · simp [bodyOf, Text.unlines]
    · simp only [List.length_cons]
      omega
    · simp only [List.flatten_cons, List.length_append]
      omega

end Run

theorem run_enclosed (o : Origin) (r : Enclosed) (before rest : List Text) :
    run o .outside (before.length + 1) before.flatten.length
        (r.opening :: (r.inner ++ r.closing :: rest)) =
      (Part.enclosed r).found o before ++
        run o .outside ((before ++ (Part.enclosed r).lines).length + 1)
          (before ++ (Part.enclosed r).lines).flatten.length rest := by
  have hcount : before.length + 1 + 1 + r.inner.length + 1 = (before ++ r.lines).length + 1 := by
    simp only [Enclosed.lines, List.length_append, List.length_cons, List.length_nil]
    omega
  have hsize : before.flatten.length + r.opening.length + r.inner.flatten.length +
      r.closing.length = (before ++ r.lines).flatten.length := by
    simp only [Enclosed.lines, List.flatten_append, List.flatten_cons, List.flatten_nil,
      List.length_append, List.length_nil]
    omega
  rw [run, step_of_opens?_eq_some r.opens?_opening]
  dsimp only
  rw [run_inside r.closes_inner, run, step_closing r.closes_closing]
  dsimp only
  rw [hcount, hsize]
  rfl

theorem run_unclosed (o : Origin) (r : Opened) (before : List Text) :
    run o .outside (before.length + 1) before.flatten.length (r.opening :: r.inner) =
      (Part.unclosed r).found o before := by
  rw [run, step_of_opens?_eq_some r.opens?_opening]
  dsimp only
  rw [← List.append_nil r.inner, run_inside r.closes_inner, run, finish_state]
  rfl

theorem run_eq_gather (o : Origin) {parts : List Part} {lines : List Text}
    (h : Outline parts lines) (before : List Text) :
    run o .outside (before.length + 1) before.flatten.length lines = gather o before parts := by
  induction h generalizing before with
  | nil => rfl
  | @cons p parts lines hp rest ih =>
    rw [gather_cons, ← ih]
    cases p with
    | line raw hraw =>
      rw [Part.lines, List.singleton_append, run, step_of_opens?_eq_none hraw]
      simp
    | enclosed r => simpa [Part.lines, Enclosed.lines] using run_enclosed o r before lines
    | unclosed r => cases hp
  | last r =>
    rw [run_unclosed, gather_cons]
    exact (Lexed.append_empty _).symm

section Found

variable {o : Origin} {line : Nat} {P : Block → Prop}

def BlockOrProblem (o : Origin) (line : Nat) (P : Block → Prop) (found : Lexed) : Prop :=
  (∃ b, P b ∧ found = .block b) ∨ ∃ message, found = problem o line message

def BlockWhen (o : Origin) (line : Nat) (C : Prop) (P : Block → Prop) (found : Lexed) : Prop :=
  (C ∧ ∃ b, P b ∧ found = .block b) ∨ (¬ C ∧ ∃ message, found = problem o line message)

section When

variable {C : Prop}

theorem BlockWhen.of_iff {C' : Prop} {found : Lexed} (h : BlockWhen o line C P found)
    (hC : C ↔ C') : BlockWhen o line C' P found := by
  rwa [propext hC] at h

theorem blockWhen_block {b : Block} (h : P b) : BlockWhen o line True P (.block b) :=
  .inl ⟨trivial, b, h, rfl⟩

theorem blockWhen_problem (hC : ¬ C) (message : Text) :
    BlockWhen o line C P (problem o line message) :=
  .inr ⟨hC, message, rfl⟩

theorem BlockWhen.requiring {found : Lexed} (h : BlockWhen o line C P found)
    (type key value : Text) :
    BlockWhen o line (value ≠ [] ∧ C) P (requiring o line type key value found) := by
  unfold Lexer.requiring
  split
  next hvalue => exact blockWhen_problem (fun hC => hC.1 hvalue) _
  next hvalue => exact h.of_iff (and_iff_right hvalue).symm

theorem blockWhen_withRef {found : Ref → Lexed}
    (h : ∀ ref, BlockWhen o line True P (found ref)) (type file body : Text) :
    BlockWhen o line (Ref.HasPath file body) P (withRef o line type file body found) := by
  unfold Lexer.withRef
  split
  next ref fault hbody =>
    apply blockWhen_problem
    rintro ⟨ref', hbody', -⟩
    simp [hbody] at hbody'
  next ref hbody =>
    have hpath : Ref.HasPath file body ↔ ref.path ≠ [] ∨ file ≠ [] := by
      simp [Ref.HasPath, hbody]
    dsimp only
    split
    next hempty =>
      split
      next hfile =>
        apply blockWhen_problem
        rw [hpath]
        exact fun hor => hor.elim (· hempty) (· hfile)
      next hfile => exact (h _).of_iff (by rw [hpath, true_iff]; exact .inr hfile)
    next hne => exact (h ref).of_iff (by rw [hpath, true_iff]; exact .inl hne)

end When

theorem exists_complete_iff {attrs : Attributes} {body : Text} {k : Kind}
    (h : attrs.get "type" = k.name) :
    (∃ l : Kind, l.name = attrs.get "type" ∧ l.Complete attrs body) ↔ k.Complete attrs body := by
  rw [h]
  constructor
  · rintro ⟨l, hl, hcomplete⟩
    rwa [← Kind.name_injective hl]
  · exact fun hcomplete => ⟨k, rfl, hcomplete⟩

/-- A literate fence holds one block, of the kind that its type names, when it has all that blocks of
this kind need, and one problem when it has not. -/
theorem blockWhen_literate (o : Origin) (attrs : Attributes) (r : Region) (line : Nat) :
    BlockWhen o line (∃ k : Kind, k.name = attrs.get "type" ∧ k.Complete attrs r.body)
      (fun b => b.region = r ∧ b.kind.isFenced = true ∧ b.kind.name = attrs.get "type")
      (literate o attrs r line) := by
  unfold literate
  dsimp only
  split_ifs with hcode houtput hinjection hconfig himport hreference hnone
  · apply ((blockWhen_block ⟨rfl, rfl, hcode.symm⟩).requiring ..).of_iff
    rw [exists_complete_iff (k := .code) hcode, and_true, Kind.Complete]
  · apply ((blockWhen_block ⟨rfl, rfl, houtput.symm⟩).requiring ..).of_iff
    rw [exists_complete_iff (k := .output) houtput, and_true, Kind.Complete]
  · apply (((blockWhen_block ⟨rfl, rfl, hinjection.symm⟩).requiring ..).requiring ..).of_iff
    rw [exists_complete_iff (k := .injection) hinjection, and_true, Kind.Complete]
  · apply ((blockWhen_block ⟨rfl, rfl, hconfig.symm⟩).requiring ..).of_iff
    rw [exists_complete_iff (k := .config) hconfig, and_true, Kind.Complete]
  · apply (blockWhen_withRef (fun ref => blockWhen_block ⟨rfl, rfl, himport.symm⟩) ..).of_iff
    rw [exists_complete_iff (k := .importing) himport, Kind.Complete]
  · apply ((blockWhen_withRef
      (fun ref => blockWhen_block ⟨rfl, rfl, hreference.symm⟩) ..).requiring ..).of_iff
    rw [exists_complete_iff (k := .reference) hreference, Kind.Complete]
  · apply blockWhen_problem
    rw [hnone]
    rintro ⟨k, hk, -⟩
    cases k <;> exact absurd hk (by decide)
  · apply blockWhen_problem
    rintro ⟨k, hk, hcomplete⟩
    cases k with
    | code => exact hcode hk.symm
    | output => exact houtput hk.symm
    | injection => exact hinjection hk.symm
    | config => exact hconfig hk.symm
    | importing => exact himport hk.symm
    | reference => exact hreference hk.symm
    | custom => exact hcomplete
    | pull => exact hcomplete

theorem blockOrProblem_literate (o : Origin) (attrs : Attributes) (r : Region) (line : Nat) :
    BlockOrProblem o line
      (fun b => b.region = r ∧ b.kind.isFenced = true ∧ b.kind.name = attrs.get "type")
      (literate o attrs r line) :=
  (blockWhen_literate o attrs r line).imp And.right And.right

theorem spans_literate (o : Origin) (attrs : Attributes) (r : Region) (line : Nat) :
    (literate o attrs r line).spans = [] := by
  rcases blockOrProblem_literate o attrs r line with ⟨b, -, h⟩ | ⟨message, h⟩
  · rw [h]; rfl
  · rw [h]; rfl

theorem mem_blocks_literate {b : Block} {attrs : Attributes} {r : Region}
    (h : b ∈ (literate o attrs r line).blocks) :
    b.region = r ∧ b.kind.isFenced = true ∧ b.kind.name = attrs.get "type" := by
  rcases blockOrProblem_literate o attrs r line with ⟨b', hb', heq⟩ | ⟨message, heq⟩
  · rw [heq] at h
    rwa [List.mem_singleton.1 h]
  · rw [heq] at h
    cases h

theorem toRegion_of_pull? {n : Nat} {t : Text} {q : Pull} (h : pull? o n t = some q) :
    q.toRegion = ⟨o.source, [], n, n⟩ := by
  unfold pull? at h
  split at h
  next => simp at h
  next =>
    split at h
    next => simp at h
    next =>
      cases h
      rfl

theorem mem_blocks_found {b : Block} {p : Part} {before : List Text}
    (h : b ∈ (p.found o before).blocks) :
    (∃ raw hraw q, p = .line raw hraw ∧ pull? o (before.length + 1) raw.dropLineEnd = some q ∧
      b = .pull q) ∨
    ∃ r, p = .enclosed r ∧ b.region = r.place o before ∧ b.kind ≠ .pull ∧
      (b.kind.isFenced = true → r.delimiter = .fence ∧
        b.kind.name = (Attributes.ofLine r.opening.dropLineEnd).get "type") := by
  cases p with
  | line raw hraw =>
    refine .inl ⟨raw, hraw, ?_⟩
    simp only [Part.found] at h
    split at h
    next q hq => exact ⟨q, rfl, hq, List.mem_singleton.1 h⟩
    next => cases h
  | enclosed r =>
    refine .inr ⟨r, rfl, ?_⟩
    simp only [Part.found, Lexed.blocks_append, List.mem_append] at h
    rcases h with h | h
    · cases h
    · cases hd : r.delimiter with
      | fence =>
        simp only [hd, Delimiter.content] at h
        split at h
        next =>
          obtain ⟨hregion, hfenced, hkind⟩ := mem_blocks_literate h
          refine ⟨hregion, ?_, fun _ => ⟨rfl, hkind⟩⟩
          intro hpull
          simp [hpull, Kind.isFenced] at hfenced
        next => cases h
      | custom name =>
        simp only [hd, Delimiter.content] at h
        rw [List.mem_singleton.1 h]
        exact ⟨rfl, by simp [Block.kind], by simp [Block.kind, Kind.isFenced]⟩
  | unclosed r => cases h

theorem spans_content (d : Delimiter) (o : Origin) (opening : Text) (r : Region) (line : Nat) :
    (d.content o opening r line).spans = [] := by
  cases d with
  | fence =>
    simp only [Delimiter.content]
    split
    next => exact spans_literate ..
    next => rfl
  | custom name => rfl

theorem mem_spans_found {s : Span} {p : Part} {before : List Text} :
    s ∈ (p.found o before).spans ↔ ∃ r, p = .enclosed r ∧
      s = ⟨before.flatten.length, (before ++ p.lines).flatten.length⟩ := by
  cases p with
  | line raw hraw =>
    simp only [Part.found]
    split <;> simp [Lexed.block, Lexed.empty]
  | enclosed r => simp [Part.found, spans_content, Lexed.span, Part.lines]
  | unclosed r => simp [Part.found, problem, Lexed.diagnostic]

end Found

section Placed

variable {before : List Text} {parts : List Part}

theorem mem_placed {earlier : List Text} {p : Part} (h : (earlier, p) ∈ placed before parts) :
    ∃ done rest, parts = done ++ p :: rest ∧ earlier = before ++ done.flatMap Part.lines := by
  induction parts generalizing before with
  | nil => cases h
  | cons q parts ih =>
    cases h with
    | head => exact ⟨[], parts, by simp⟩
    | tail _ h =>
      obtain ⟨done, rest, rfl, rfl⟩ := ih h
      exact ⟨q :: done, rest, by simp⟩

theorem pairwise_placed (before : List Text) (parts : List Part) :
    (placed before parts).Pairwise fun a b => a.1 ++ a.2.lines <+: b.1 := by
  induction parts generalizing before with
  | nil => exact .nil
  | cons p parts ih =>
    refine .cons ?_ (ih _)
    rintro ⟨earlier, q⟩ hq
    obtain ⟨done, rest, -, rfl⟩ := mem_placed hq
    exact List.prefix_append ..

theorem Outline.exists_append {lines earlier : List Text} {p : Part} (h : Outline parts lines)
    (hp : (earlier, p) ∈ placed [] parts) : ∃ later, lines = earlier ++ p.lines ++ later := by
  obtain ⟨done, rest, rfl, rfl⟩ := mem_placed hp
  exact ⟨rest.flatMap Part.lines, by simp [← h.flatMap_lines]⟩

theorem lex_eq_gather (source relDir : Text) {text : Text} (h : Outline parts text.rawLines) :
    lex source relDir text = gather ⟨source, relDir⟩ [] parts :=
  run_eq_gather _ h []

theorem mem_blocks_gather {o : Origin} {b : Block} :
    b ∈ (gather o before parts).blocks ↔
      ∃ earlier p, (earlier, p) ∈ placed before parts ∧ b ∈ (p.found o earlier).blocks := by
  simp [gather]

theorem mem_spans_gather {o : Origin} {s : Span} :
    s ∈ (gather o before parts).spans ↔
      ∃ earlier p, (earlier, p) ∈ placed before parts ∧ s ∈ (p.found o earlier).spans := by
  simp [gather]

theorem mem_diagnostics_gather {o : Origin} {d : Diagnostic} :
    d ∈ (gather o before parts).diagnostics ↔
      ∃ earlier p, (earlier, p) ∈ placed before parts ∧ d ∈ (p.found o earlier).diagnostics := by
  simp [gather]

end Placed

end Lexer

end Tangle
