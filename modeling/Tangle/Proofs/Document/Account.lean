import Tangle.Proofs.Document.Edit
import Tangle.Proofs.Document.Marker
import Mathlib.Data.List.Forall2

namespace Tangle

namespace Lexer

inductive Share (o : Origin) (before : List Text) : Part → List Block → List Diagnostic → Prop
  | request {raw : Text} {hraw : opens? raw = none} {q : Pull}
    (hrequest : Marker.pullRequest? raw.dropLineEnd = some ⟨q.path, q.name, q.marker⟩)
    (hwords : raw.dropLineEnd.contains Marker.processedWords = false)
    (hplace : q.toRegion = ⟨o.source, [], ↑(before.length + 1), ↑(before.length + 1)⟩) :
    Share o before (.line raw hraw) [.pull q] []
  | prose {raw : Text} {hraw : opens? raw = none}
    (hwords : ∀ q, Marker.pullRequest? raw.dropLineEnd = some q →
      raw.dropLineEnd.contains Marker.processedWords = true) :
    Share o before (.line raw hraw) [] []
  | block {r : Enclosed} {b : Block} (hfence : r.delimiter = .fence)
    (hliterate : isLiterate r.opening.dropLineEnd = true) (hplace : b.region = r.place o before)
    (hkind : b.kind.name = (Attributes.ofLine r.opening.dropLineEnd).get "type")
    (hcomplete : b.kind.Complete (.ofLine r.opening.dropLineEnd) b.region.body) :
    Share o before (.enclosed r) [b] []
  | fault {r : Enclosed} (hfence : r.delimiter = .fence)
    (hliterate : isLiterate r.opening.dropLineEnd = true)
    (hincomplete : ∀ k : Kind, k.name = (Attributes.ofLine r.opening.dropLineEnd).get "type" →
      ¬ k.Complete (.ofLine r.opening.dropLineEnd) (bodyOf r.inner)) (message : Text) :
    Share o before (.enclosed r) [] [⟨o.source, ↑(before.length + 1), message⟩]
  | plain {r : Enclosed} (hfence : r.delimiter = .fence)
    (hliterate : isLiterate r.opening.dropLineEnd = false) : Share o before (.enclosed r) [] []
  | custom {r : Enclosed} {name : Text} (hcustom : r.delimiter = .custom name) :
    Share o before (.enclosed r) [.custom ⟨r.place o before, name⟩] []
  | unclosed (r : Opened) :
    Share o before (.unclosed r) []
      [⟨o.source, ↑(before.length + 1), "block opened here is never closed"⟩]

variable {o : Origin} {before : List Text}

theorem share_literate {r : Enclosed} (hfence : r.delimiter = .fence)
    (hliterate : isLiterate r.opening.dropLineEnd = true) :
    Share o before (.enclosed r)
      (literate o (.ofLine r.opening.dropLineEnd) (r.place o before) (before.length + 1)).blocks
      (literate o (.ofLine r.opening.dropLineEnd) (r.place o before)
        (before.length + 1)).diagnostics := by
  rcases blockWhen_literate o (.ofLine r.opening.dropLineEnd) (r.place o before)
    (before.length + 1) with
    ⟨hcomplete, b, ⟨hplace, -, hkind⟩, hfound⟩ | ⟨hincomplete, message, hfound⟩
  · rw [hfound]
    rw [exists_complete_iff hkind.symm, ← hplace] at hcomplete
    exact .block hfence hliterate hplace hkind hcomplete
  · rw [hfound]
    exact .fault hfence hliterate (fun k hk hcomplete => hincomplete ⟨k, hk, hcomplete⟩) message

theorem share_found (o : Origin) (before : List Text) (p : Part) :
    Share o before p (p.found o before).blocks (p.found o before).diagnostics := by
  cases p with
  | line raw hraw =>
    simp only [Part.found]
    cases hpull : pull? o (before.length + 1) raw.dropLineEnd with
    | some q =>
      obtain ⟨hrequest, hwords, hplace⟩ := pull?_eq_some_iff.1 hpull
      exact .request hrequest hwords hplace
    | none => exact .prose (pull?_eq_none_iff.1 hpull)
  | enclosed r =>
    cases hd : r.delimiter with
    | fence =>
      simp only [Part.found, hd, Delimiter.content]
      split
      next hliterate => exact share_literate hd hliterate
      next hliterate => exact .plain hd (by simpa using hliterate)
    | custom name =>
      simp only [Part.found, hd, Delimiter.content]
      exact .custom hd
  | unclosed r => exact .unclosed r

theorem exists_shares (o : Origin) (before : List Text) (parts : List Part) :
    ∃ shares : List (List Block × List Diagnostic),
      List.Forall₂ (fun part share => Share o part.1 part.2 share.1 share.2)
        (placed before parts) shares ∧
      (gather o before parts).blocks = shares.flatMap Prod.fst ∧
      (gather o before parts).diagnostics = shares.flatMap Prod.snd := by
  refine ⟨(placed before parts).map fun part =>
    ((part.2.found o part.1).blocks, (part.2.found o part.1).diagnostics), ?_, ?_, ?_⟩
  · rw [List.forall₂_map_right_iff, List.forall₂_same]
    exact fun part _ => share_found o part.1 part.2
  · rw [gather, Lexed.blocks_concat, List.flatMap_map, List.flatMap_map]
  · rw [gather, Lexed.diagnostics_concat, List.flatMap_map, List.flatMap_map]

theorem getLast?_diagnostics_of_unclosed {parts : List Part} {lines earlier : List Text}
    {r : Opened} (h : Outline parts lines) (hr : (earlier, .unclosed r) ∈ placed before parts) :
    (gather o before parts).diagnostics.getLast? =
      some ⟨o.source, ↑(earlier.length + 1), "block opened here is never closed"⟩ := by
  obtain ⟨done, later, rfl, rfl⟩ := mem_placed hr
  obtain rfl := h.eq_nil_of_unclosed
  rw [gather_append, gather_cons, Lexed.diagnostics_append]
  exact List.getLast?_concat

end Lexer

open Lexer in
/-- Every document has an outline, and what is found in the document is what the parts of its outline
have for their shares, in their order. The problem of a region that nothing closes comes last. -/
theorem lex_accounts (source relDir text : Text) :
    (∃ parts, Outline parts text.rawLines) ∧
    ∀ parts, Outline parts text.rawLines →
      (∃ shares : List (List Block × List Diagnostic),
        List.Forall₂ (fun part share => Share ⟨source, relDir⟩ part.1 part.2 share.1 share.2)
          (placed [] parts) shares ∧
        (lex source relDir text).blocks = shares.flatMap Prod.fst ∧
        (lex source relDir text).diagnostics = shares.flatMap Prod.snd) ∧
      ∀ earlier r, (earlier, Part.unclosed r) ∈ placed [] parts →
        (lex source relDir text).diagnostics.getLast? =
          some ⟨source, ↑(earlier.length + 1), "block opened here is never closed"⟩ := by
  refine ⟨exists_outline text.rawLines, fun parts houtline => ?_⟩
  rw [lex_eq_gather source relDir houtline]
  exact ⟨exists_shares ⟨source, relDir⟩ [] parts,
    fun earlier r hr => getLast?_diagnostics_of_unclosed houtline hr⟩

end Tangle
