import Tangle.Proofs.Document.Attribute
import Tangle.Proofs.Document.Edit

namespace Tangle

namespace Lexer

theorem literate_nil (o : Origin) (r : Region) (line : Nat) :
    literate o [] r line = problem o line "literate fence has no lit-type" := rfl

theorem content_of_groupStarts_eq_nil {opening : Text}
    (h : Fence.groupStarts opening.dropLineEnd = []) (o : Origin) (r : Region) (line : Nat) :
    Delimiter.fence.content o opening r line =
      if isLiterate opening.dropLineEnd then problem o line "literate fence has no lit-type"
      else .empty := by
  have hattrs : Attributes.ofLine opening.dropLineEnd = [] := by
    rw [Attributes.ofLine, Fence.groupStarts_eq_nil_iff.1 h]
    rfl
  rw [Delimiter.content, hattrs, literate_nil]

theorem lex_enclosed {source relDir text : Text} {before after : List Text} {r : Enclosed}
    (hlines : text.rawLines = before ++ r.lines ++ after)
    (hclosed : ∀ d ∈ (lex source relDir before.flatten).diagnostics,
      d.message ≠ "block opened here is never closed") :
    lex source relDir text = lex source relDir before.flatten ++
      ((Part.enclosed r).found ⟨source, relDir⟩ before ++
        (lex source relDir after.flatten).shift (before ++ r.lines).length
          (before ++ r.lines).flatten.length) := by
  have hbefore := (Text.rawLines_parted (hlines.trans (List.append_assoc ..))).1
  have hafter := (Text.rawLines_parted hlines).2.1
  obtain ⟨done, hdone⟩ := exists_outline before
  obtain ⟨later, hlater⟩ := exists_outline after
  have hlex : lex source relDir before.flatten = gather ⟨source, relDir⟩ [] done :=
    lex_eq_gather source relDir (hbefore.symm ▸ hdone)
  have hlex' : lex source relDir after.flatten = gather ⟨source, relDir⟩ [] later :=
    lex_eq_gather source relDir (hafter.symm ▸ hlater)
  rw [hlex] at hclosed
  have houtline : Outline (done ++ .enclosed r :: later) text.rawLines := by
    rw [hlines, List.append_assoc]
    exact hdone.append (isClosed_of_diagnostics hclosed) (.cons (p := .enclosed r) trivial hlater)
  rw [hlex, hlex', lex_eq_gather source relDir houtline, gather_part, hdone.flatMap_lines,
    ← gather_eq_shift]
  rfl

end Lexer

open Lexer in
/-- A fence without groups contributes its span, no block, and a problem just if `lit-` occurs in its
opening line all the same. What comes before it and after it is read as if it stood alone. -/
theorem lex_plain_fence {source relDir text : Text} {before after : List Text} {r : Enclosed}
    (hlines : text.rawLines = before ++ r.lines ++ after)
    (hclosed : ∀ d ∈ (lex source relDir before.flatten).diagnostics,
      d.message ≠ "block opened here is never closed")
    (hfence : r.delimiter = .fence) (hplain : Fence.groupStarts r.opening.dropLineEnd = []) :
    lex source relDir text = lex source relDir before.flatten ++
      (⟨[], [⟨before.flatten.length, (before ++ r.lines).flatten.length⟩],
          if isLiterate r.opening.dropLineEnd then
            [⟨source, ↑(before.length + 1), "literate fence has no lit-type"⟩]
          else []⟩ ++
        (lex source relDir after.flatten).shift (before ++ r.lines).length
          (before ++ r.lines).flatten.length) := by
  rw [lex_enclosed hlines hclosed, Part.found, hfence, content_of_groupStarts_eq_nil hplain]
  split <;> rfl

def snippet : Lexer.Enclosed where
  delimiter := .fence
  opening := "```js\n"
  inner := ["\x7b\x7b\x7b a \x7d\x7d\x7d\n"]
  closing := "```\n"
  opens?_opening := by decide +kernel
  closes_inner := by decide +kernel
  closes_closing := by decide +kernel

def program : Text := "```js lit-type:code lit-name:a\nx\n```\n"

def request : Text := "<!-- pull_from: e.md, block: c -->\n"

theorem lex_plain_fence_snippet :
    Fence.groupStarts snippet.opening.dropLineEnd = [] ∧
      lex "d.md" [] (program ++ snippet.lines.flatten ++ request) = lex "d.md" [] program ++
        ⟨[.pull ⟨⟨"d.md", [], 7, 7⟩, "e.md", "c", "<!-- pull_from: e.md, block: c -->"⟩],
          [⟨37, 57⟩], []⟩ := by
  have hplain : Fence.groupStarts snippet.opening.dropLineEnd = [] := by decide +kernel
  have hlines : Text.rawLines (program ++ snippet.lines.flatten ++ request) =
      program.rawLines ++ snippet.lines ++ request.rawLines := by
    decide +kernel
  have hclosed : ∀ d ∈ (lex "d.md" [] program.rawLines.flatten).diagnostics,
      d.message ≠ "block opened here is never closed" := by
    decide +kernel
  refine ⟨hplain, (lex_plain_fence hlines hclosed rfl hplain).trans ?_⟩
  decide +kernel

/-- The fence `split-view` has no groups, but it is not passed over. -/
theorem lex_split_view :
    Fence.groupStarts "```split-view" = [] ∧
      lex "d.md" [] "```split-view\ny\n```\n" =
        ⟨[], [⟨0, 20⟩], [⟨"d.md", 1, "literate fence has no lit-type"⟩]⟩ := by
  decide +kernel

end Tangle
