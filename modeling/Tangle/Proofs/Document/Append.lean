import Tangle.Proofs.Document.Outline

namespace Tangle

def Region.shift (k : Nat) (r : Region) : Region :=
  { r with first := r.first + k, last := r.last + k }

def Block.shift (k : Nat) : Block → Block
  | code b => .code { b with toRegion := b.toRegion.shift k }
  | output b => .output { b with toRegion := b.toRegion.shift k }
  | injection b => .injection { b with toRegion := b.toRegion.shift k }
  | config b => .config { b with toRegion := b.toRegion.shift k }
  | importing b => .importing { b with toRegion := b.toRegion.shift k }
  | reference b => .reference { b with toRegion := b.toRegion.shift k }
  | custom b => .custom { b with toRegion := b.toRegion.shift k }
  | pull b => .pull { b with toRegion := b.toRegion.shift k }

def Span.shift (k : Nat) (s : Span) : Span := ⟨s.start + k, s.stop + k⟩

def Diagnostic.shift (k : Nat) (d : Diagnostic) : Diagnostic := { d with line := d.line + k }

namespace Lexed

def shift (lines bytes : Nat) (found : Lexed) : Lexed :=
  ⟨found.blocks.map (·.shift lines), found.spans.map (·.shift bytes),
    found.diagnostics.map (·.shift lines)⟩

theorem shift_append (lines bytes : Nat) (a b : Lexed) :
    (a ++ b).shift lines bytes = a.shift lines bytes ++ b.shift lines bytes := by
  change shift lines bytes (append a b) = append (shift lines bytes a) (shift lines bytes b)
  simp [shift, append]

theorem shift_concat (lines bytes : Nat) (as : List Lexed) :
    (concat as).shift lines bytes = concat (as.map (·.shift lines bytes)) := by
  induction as with
  | nil => rfl
  | cons a as ih => rw [concat, shift_append, ih]; rfl

end Lexed

namespace Lexer

section Shift

variable (o : Origin) (k m line : Nat)

theorem problem_shift (message : Text) :
    problem o (line + k) message = (problem o line message).shift k m := by
  simp [problem, Lexed.diagnostic, Lexed.shift, Diagnostic.shift]

theorem requiring_shift (type key value : Text) (found : Lexed) :
    requiring o (line + k) type key value (found.shift k m) =
      (requiring o line type key value found).shift k m := by
  unfold requiring
  split
  next => exact problem_shift ..
  next => rfl

theorem withRef_shift (type file body : Text) (found : Ref → Lexed) :
    withRef o (line + k) type file body (fun ref => (found ref).shift k m) =
      (withRef o line type file body found).shift k m := by
  unfold withRef
  split
  next => exact problem_shift ..
  next ref _ =>
    dsimp only
    generalize (if ref.path = [] then { ref with path := file } else ref) = ref
    split
    next => exact problem_shift ..
    next => rfl

theorem literate_shift (attrs : Attributes) (r : Region) :
    literate o attrs (r.shift k) (line + k) = (literate o attrs r line).shift k m := by
  unfold literate
  dsimp only
  split_ifs
  · rw [← requiring_shift]; rfl
  · rw [← requiring_shift]; rfl
  · rw [← requiring_shift, ← requiring_shift]; rfl
  · rw [← requiring_shift]; rfl
  · rw [← withRef_shift]; rfl
  · rw [← requiring_shift, ← withRef_shift]; rfl
  · exact problem_shift ..
  · exact problem_shift ..

theorem content_shift (d : Delimiter) (opening : Text) (r : Region) :
    d.content o opening (r.shift k) (line + k) = (d.content o opening r line).shift k m := by
  cases d with
  | fence =>
    simp only [Delimiter.content]
    split
    next => exact literate_shift ..
    next => rfl
  | custom name => rfl

theorem pull?_shift (t : Text) :
    pull? o (line + k) t =
      (pull? o line t).map fun p => { p with toRegion := p.toRegion.shift k } := by
  unfold pull?
  split
  next => rfl
  next =>
    split
    next => rfl
    next => simp [Region.shift]

theorem found_append (p : Part) (lines before : List Text) :
    p.found o (lines ++ before) =
      (p.found o before).shift lines.length lines.flatten.length := by
  have hline : (lines ++ before).length + 1 = before.length + 1 + lines.length := by
    simp only [List.length_append]
    omega
  cases p with
  | line raw hraw =>
    rw [Part.found, Part.found, hline, pull?_shift o lines.length (before.length + 1)]
    cases pull? o (before.length + 1) raw.dropLineEnd <;> rfl
  | enclosed r =>
    have hplace : r.place o (lines ++ before) = (r.place o before).shift lines.length := by
      simp [Enclosed.place, Region.shift]
      omega
    have hspan : (⟨(lines ++ before).flatten.length, (lines ++ before ++ r.lines).flatten.length⟩ :
        Span) = Span.shift lines.flatten.length
          ⟨before.flatten.length, (before ++ r.lines).flatten.length⟩ := by
      simp only [Span.shift, List.flatten_append, List.length_append, Span.mk.injEq]
      omega
    rw [Part.found, Part.found, Lexed.shift_append, hplace, hspan, hline, ← content_shift]
    rfl
  | unclosed r =>
    rw [Part.found, hline]
    exact problem_shift ..

theorem placed_append (lines before : List Text) (parts : List Part) :
    placed (lines ++ before) parts =
      (placed before parts).map fun (earlier, p) => (lines ++ earlier, p) := by
  induction parts generalizing before with
  | nil => rfl
  | cons p parts ih => simp [placed, ← ih]

theorem gather_shift (lines before : List Text) (parts : List Part) :
    gather o (lines ++ before) parts =
      (gather o before parts).shift lines.length lines.flatten.length := by
  rw [gather, gather, placed_append, List.map_map, Lexed.shift_concat, List.map_map]
  congr 1
  apply List.map_congr_left
  rintro ⟨earlier, p⟩ -
  exact found_append o p lines earlier

end Shift

theorem gather_append (o : Origin) (before : List Text) (parts more : List Part) :
    gather o before (parts ++ more) =
      gather o before parts ++ gather o (before ++ parts.flatMap Part.lines) more := by
  induction parts generalizing before with
  | nil => simp [gather, placed, Lexed.concat]
  | cons p parts ih => simp [gather_cons, ih, Lexed.append_assoc]

theorem Outline.append {parts more : List Part} {lines later : List Text}
    (h : Outline parts lines) (hclosed : ∀ p ∈ parts, p.IsClosed) (h' : Outline more later) :
    Outline (parts ++ more) (lines ++ later) := by
  induction h with
  | nil => exact h'
  | cons hp rest ih =>
    rw [List.append_assoc]
    exact .cons hp (ih fun q hq => hclosed q (List.mem_cons_of_mem _ hq))
  | last r => exact (hclosed _ (List.mem_cons_self ..)).elim

theorem exists_mem_placed {parts : List Part} {p : Part} (h : p ∈ parts) (before : List Text) :
    ∃ earlier, (earlier, p) ∈ placed before parts := by
  induction parts generalizing before with
  | nil => cases h
  | cons q parts ih =>
    cases h with
    | head => exact ⟨before, List.mem_cons_self ..⟩
    | tail _ h =>
      obtain ⟨earlier, hmem⟩ := ih h (before ++ q.lines)
      exact ⟨earlier, List.mem_cons_of_mem _ hmem⟩

theorem isClosed_of_diagnostics {o : Origin} {before : List Text} {parts : List Part}
    (h : ∀ d ∈ (gather o before parts).diagnostics,
      d.message ≠ "block opened here is never closed") :
    ∀ p ∈ parts, p.IsClosed := by
  intro p hp
  cases p with
  | line raw hraw => trivial
  | enclosed r => trivial
  | unclosed r =>
    obtain ⟨earlier, hmem⟩ := exists_mem_placed hp before
    exact h _ (mem_diagnostics_gather.2 ⟨earlier, _, hmem, List.mem_cons_self ..⟩) rfl

end Lexer

open Lexer in
/-- A document that starts on a new line where no region is open is read as if it stood alone. -/
theorem lex_append (source relDir : Text) {text : Text} (hended : text.Ended)
    (hclosed : ∀ d ∈ (lex source relDir text).diagnostics,
      d.message ≠ "block opened here is never closed") (more : Text) :
    lex source relDir (text ++ more) =
      lex source relDir text ++
        (lex source relDir more).shift text.rawLines.length text.length := by
  obtain ⟨parts, hparts⟩ := exists_outline text.rawLines
  obtain ⟨parts', hparts'⟩ := exists_outline more.rawLines
  rw [lex_eq_gather source relDir hparts] at hclosed
  have hall : Outline (parts ++ parts') (text ++ more).rawLines := by
    rw [Text.rawLines_append hended]
    exact hparts.append (isClosed_of_diagnostics hclosed) hparts'
  rw [lex_eq_gather source relDir hall, lex_eq_gather source relDir hparts,
    lex_eq_gather source relDir hparts', gather_append, List.nil_append, hparts.flatMap_lines]
  have hshift := gather_shift ⟨source, relDir⟩ text.rawLines [] parts'
  rw [List.append_nil, Text.flatten_rawLines] at hshift
  rw [hshift]

def chapter : Text :=
  "# A\r\n```go lit-type:code lit-name:a\r\nx\r\n```\r\n" ++
    "<!-- block: c -->\n```\n<!-- end_block -->\n```lit-type:code\n```\n"

def sequel : Text := "```\n```\n<!-- pull_from: e.md, block: c -->\n```go\nz"

theorem lex_append_chapter :
    chapter.Ended ∧
      (lex "d.md" [] chapter).diagnostics = [⟨"d.md", 8, "code block is missing lit-name"⟩] ∧
      lex "d.md" [] (chapter ++ sequel) = lex "d.md" [] chapter ++
        ⟨[.pull ⟨⟨"d.md", [], 12, 12⟩, "e.md", "c", "<!-- pull_from: e.md, block: c -->"⟩],
          [⟨107, 115⟩], [⟨"d.md", 13, "block opened here is never closed"⟩]⟩ := by
  have hended : chapter.Ended := by decide +kernel
  have hdiagnostics : (lex "d.md" [] chapter).diagnostics =
      [⟨"d.md", 8, "code block is missing lit-name"⟩] := by
    decide +kernel
  have hclosed : ∀ d ∈ (lex "d.md" [] chapter).diagnostics,
      d.message ≠ "block opened here is never closed" := by
    rw [hdiagnostics]
    decide
  have hsequel : (lex "d.md" [] sequel).shift chapter.rawLines.length chapter.length =
      ⟨[.pull ⟨⟨"d.md", [], 12, 12⟩, "e.md", "c", "<!-- pull_from: e.md, block: c -->"⟩],
        [⟨107, 115⟩], [⟨"d.md", 13, "block opened here is never closed"⟩]⟩ := by
    decide +kernel
  refine ⟨hended, hdiagnostics, ?_⟩
  rw [lex_append "d.md" [] hended hclosed, hsequel]

end Tangle
