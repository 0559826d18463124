import Tangle.Proofs.Document.Outline

namespace Tangle

open Text

namespace Region

def linesIn (r : Region) (lines : List Text) : List Text :=
  (lines.take r.last.toNat).drop (r.first.toNat - 1)

def spanIn (r : Region) (lines : List Text) : Span :=
  ⟨(lines.take (r.first.toNat - 1)).flatten.length, (lines.take r.last.toNat).flatten.length⟩

end Region

/-- Blocks and spans follow one another in the text, spans consist of whole lines, and every block
but a pull is a span with its body between two delimiters. -/
structure Lexed.Partitions (found : Lexed) (text : Text) : Prop where
  blocks_inside : ∀ b ∈ found.blocks,
    1 ≤ b.region.first ∧ b.region.first ≤ b.region.last ∧ b.region.last ≤ text.rawLines.length
  blocks_ordered : found.blocks.Pairwise fun a b => a.region.last < b.region.first
  spans_inside : ∀ s ∈ found.spans, s.start < s.stop ∧ s.stop ≤ text.length
  spans_ordered : found.spans.Pairwise fun s t => s.stop ≤ t.start
  spans_lines : ∀ s ∈ found.spans,
    Ended (text.take s.start) ∧ (Ended (text.take s.stop) ∨ s.stop = text.length)
  blocks_spans : ∀ b ∈ found.blocks, b.kind ≠ .pull →
    b.region.spanIn text.rawLines ∈ found.spans
  blocks_lines : ∀ b ∈ found.blocks, b.kind ≠ .pull → ∃ opening inner closing,
    b.region.linesIn text.rawLines = opening :: (inner ++ [closing]) ∧
    b.region.body = unlines (inner.map dropLineEnd) ∧
    (b.kind.isFenced = true → Lexer.isFence opening = true ∧ Lexer.isFence closing = true ∧
      ∀ raw ∈ inner, Lexer.isFence raw = false)

namespace Lexer

theorem isFence_dropLineEnd (raw : Text) : isFence raw.dropLineEnd = isFence raw := by
  have hmark : fenceMark.all (fun b => !isLineEnd b) = true := by decide
  apply startsWith_dropLineEnd
  simpa using hmark

theorem closes_fence (raw : Text) : Delimiter.fence.closes raw = isFence raw :=
  isFence_dropLineEnd raw

theorem isFence_of_opens? {raw : Text} (h : opens? raw = some .fence) : isFence raw = true := by
  simp only [opens?] at h
  split at h
  next hfence => rwa [isFence_dropLineEnd] at hfence
  next => simp at h

theorem Enclosed.isFence_of_delimiter (r : Enclosed) (h : r.delimiter = .fence) :
    isFence r.opening = true ∧ isFence r.closing = true ∧ ∀ raw ∈ r.inner, isFence raw = false := by
  have hopening := r.opens?_opening
  have hinner := r.closes_inner
  have hclosing := r.closes_closing
  rw [h] at hopening hclosing
  simp only [h, closes_fence] at hinner hclosing
  exact ⟨isFence_of_opens? hopening, hclosing, hinner⟩

theorem Part.length_lines_pos (p : Part) : 0 < p.lines.length := by
  cases p <;> simp [lines, Enclosed.lines]

theorem Part.flatten_lines_pos {p : Part} (h : ∀ raw ∈ p.lines, raw ≠ []) :
    0 < p.lines.flatten.length := by
  obtain ⟨raw, lines, hlines⟩ := List.exists_cons_of_length_pos p.length_lines_pos
  have := List.length_pos_iff.2 (h raw (by simp [hlines]))
  simp [hlines]
  omega

section

variable {o : Origin} {earlier later : List Text} {p : Part} {b : Block} {r : Region}

theorem lines_of_mem_blocks (h : b ∈ (p.found o earlier).blocks) :
    b.region.first = ↑(earlier.length + 1) ∧ b.region.last = ↑(earlier ++ p.lines).length := by
  rcases mem_blocks_found h with ⟨raw, hraw, q, rfl, hq, rfl⟩ | ⟨r, rfl, hregion, -, -⟩
  · simp [Block.region, toRegion_of_pull? hq, Part.lines]
  · rw [hregion]
    simp [Enclosed.place, Part.lines, Enclosed.lines]
    omega

theorem linesIn_append (hfirst : r.first = ↑(earlier.length + 1))
    (hlast : r.last = ↑(earlier ++ p.lines).length) :
    r.linesIn (earlier ++ p.lines ++ later) = p.lines := by
  rw [Region.linesIn, hfirst, hlast, Int.toNat_natCast, Int.toNat_natCast, List.take_left,
    Nat.add_sub_cancel, List.drop_left]

theorem spanIn_append (hfirst : r.first = ↑(earlier.length + 1))
    (hlast : r.last = ↑(earlier ++ p.lines).length) :
    r.spanIn (earlier ++ p.lines ++ later) =
      ⟨earlier.flatten.length, (earlier ++ p.lines).flatten.length⟩ := by
  rw [Region.spanIn, hfirst, hlast, Int.toNat_natCast, Int.toNat_natCast, List.take_left,
    Nat.add_sub_cancel, List.append_assoc, List.take_left]

end

theorem length_blocks_literate (o : Origin) (attrs : Attributes) (r : Region) (line : Nat) :
    (literate o attrs r line).blocks.length ≤ 1 := by
  rcases blockOrProblem_literate o attrs r line with ⟨b, -, h⟩ | ⟨message, h⟩
  · simp [h, Lexed.block]
  · simp [h, problem, Lexed.diagnostic]

theorem length_blocks_found (o : Origin) (before : List Text) (p : Part) :
    (p.found o before).blocks.length ≤ 1 := by
  cases p with
  | line raw hraw =>
    simp only [Part.found]
    split <;> simp [Lexed.block, Lexed.empty]
  | enclosed r =>
    simp only [Part.found, Lexed.blocks_append, Lexed.span, List.nil_append]
    cases r.delimiter with
    | fence =>
      simp only [Delimiter.content]
      split
      next => exact length_blocks_literate ..
      next => simp [Lexed.empty]
    | custom name => simp [Delimiter.content, Lexed.block]
  | unclosed r => simp [Part.found, problem, Lexed.diagnostic]

theorem length_spans_found (o : Origin) (before : List Text) (p : Part) :
    (p.found o before).spans.length ≤ 1 := by
  cases p with
  | line raw hraw =>
    simp only [Part.found]
    split <;> simp [Lexed.block, Lexed.empty]
  | enclosed r => simp [Part.found, Lexed.span, spans_content]
  | unclosed r => simp [Part.found, problem, Lexed.diagnostic]

theorem pairwise_flatMap_placed {α : Type} {R : α → α → Prop} {f : List Text × Part → List α}
    (hone : ∀ a, (f a).length ≤ 1)
    (hR : ∀ a b, a.1 ++ a.2.lines <+: b.1 → ∀ x ∈ f a, ∀ y ∈ f b, R x y)
    (before : List Text) (parts : List Part) : ((placed before parts).flatMap f).Pairwise R := by
  rw [List.pairwise_flatMap]
  refine ⟨fun a _ => ?_, (pairwise_placed before parts).imp (hR _ _)⟩
  have ha := hone a
  match f a, ha with
  | [], _ => exact .nil
  | [x], _ => exact List.pairwise_singleton ..

theorem pairwise_blocks_gather (o : Origin) (before : List Text) (parts : List Part) :
    (gather o before parts).blocks.Pairwise fun a b => a.region.last < b.region.first := by
  rw [gather, Lexed.blocks_concat, List.flatMap_map]
  apply pairwise_flatMap_placed (fun a => length_blocks_found o a.1 a.2)
  intro a b hab x hx y hy
  have hlast := (lines_of_mem_blocks hx).2
  have hfirst := (lines_of_mem_blocks hy).1
  have := hab.length_le
  omega

theorem pairwise_spans_gather (o : Origin) (before : List Text) (parts : List Part) :
    (gather o before parts).spans.Pairwise fun s t => s.stop ≤ t.start := by
  rw [gather, Lexed.spans_concat, List.flatMap_map]
  apply pairwise_flatMap_placed (fun a => length_spans_found o a.1 a.2)
  intro a b hab x hx y hy
  obtain ⟨-, -, rfl⟩ := mem_spans_found.1 hx
  obtain ⟨-, -, rfl⟩ := mem_spans_found.1 hy
  obtain ⟨between, hbetween⟩ := hab
  rw [← hbetween]
  simp

theorem span_of_part {text : Text} {earlier later : List Text} {p : Part}
    (h : text.rawLines = earlier ++ p.lines ++ later) :
    earlier.flatten.length < (earlier ++ p.lines).flatten.length ∧
      (earlier ++ p.lines).flatten.length ≤ text.length ∧
      Ended (text.take earlier.flatten.length) ∧
      (Ended (text.take (earlier ++ p.lines).flatten.length) ∨
        (earlier ++ p.lines).flatten.length = text.length) := by
  have htext : text = (earlier ++ p.lines).flatten ++ later.flatten := by
    rw [← List.flatten_append, ← h, flatten_rawLines]
  have htext' : text = earlier.flatten ++ (p.lines ++ later).flatten := by
    rw [← List.flatten_append, ← List.append_assoc, ← h, flatten_rawLines]
  have hpos : 0 < p.lines.flatten.length := by
    apply Part.flatten_lines_pos
    intro raw hraw
    exact ne_nil_of_mem_rawLines (t := text) (by simp [h, hraw])
  have hstart : Ended earlier.flatten := by
    refine (rawLines_parted (h.trans (List.append_assoc ..))).2.2 ?_
    exact List.append_ne_nil_of_left_ne_nil (List.length_pos_iff.1 p.length_lines_pos) _
  refine ⟨?_, ?_, ?_, ?_⟩
  · simp only [List.flatten_append, List.length_append]
    omega
  · rw [htext, List.length_append]
    omega
  · rwa [htext', List.take_left]
  · rw [htext, List.take_left]
    by_cases hlater : later = []
    · exact .inr (by simp [hlater])
    · exact .inl ((rawLines_parted h).2.2 hlater)

section

variable {source relDir text : Text}

theorem exists_part_of_mem_blocks {b : Block} (h : b ∈ (lex source relDir text).blocks) :
    ∃ (earlier : List Text) (p : Part) (later : List Text),
      text.rawLines = earlier ++ p.lines ++ later ∧
      b ∈ (p.found ⟨source, relDir⟩ earlier).blocks ∧
      (p.found ⟨source, relDir⟩ earlier).spans ⊆ (lex source relDir text).spans := by
  obtain ⟨parts, houtline⟩ := exists_outline text.rawLines
  rw [lex_eq_gather source relDir houtline] at h ⊢
  obtain ⟨earlier, p, hp, hb⟩ := mem_blocks_gather.1 h
  obtain ⟨later, hlines⟩ := houtline.exists_append hp
  exact ⟨earlier, p, later, hlines, hb, fun s hs => mem_spans_gather.2 ⟨earlier, p, hp, hs⟩⟩

theorem exists_literate_of_mem_blocks {b : Block} (h : b ∈ (lex source relDir text).blocks)
    (hfenced : b.kind.isFenced = true) :
    ∃ opening ∈ text.rawLines, ∃ r line,
      b ∈ (literate ⟨source, relDir⟩ (.ofLine opening.dropLineEnd) r line).blocks := by
  obtain ⟨earlier, p, later, hlines, hb, -⟩ := exists_part_of_mem_blocks h
  rcases mem_blocks_found hb with ⟨_, _, q, -, -, rfl⟩ | ⟨r, rfl, -, -, hfence⟩
  · cases hfenced
  · have hopening : r.opening ∈ text.rawLines := by simp [hlines, Part.lines, Enclosed.lines]
    simp only [Part.found, (hfence hfenced).1, Delimiter.content, Lexed.blocks_append] at hb
    rcases List.mem_append.1 hb with hspan | hb
    · cases hspan
    · split at hb
      next => exact ⟨r.opening, hopening, _, _, hb⟩
      next => cases hb

theorem exists_part_of_mem_spans {s : Span} (h : s ∈ (lex source relDir text).spans) :
    ∃ (earlier : List Text) (p : Part) (later : List Text),
      text.rawLines = earlier ++ p.lines ++ later ∧
      s = ⟨earlier.flatten.length, (earlier ++ p.lines).flatten.length⟩ := by
  obtain ⟨parts, houtline⟩ := exists_outline text.rawLines
  rw [lex_eq_gather source relDir houtline] at h
  obtain ⟨earlier, p, hp, hs⟩ := mem_spans_gather.1 h
  obtain ⟨later, hlines⟩ := houtline.exists_append hp
  obtain ⟨-, -, hs⟩ := mem_spans_found.1 hs
  exact ⟨earlier, p, later, hlines, hs⟩

variable (source relDir text)

theorem pairwise_blocks_lex :
    (lex source relDir text).blocks.Pairwise fun a b => a.region.last < b.region.first := by
  obtain ⟨parts, houtline⟩ := exists_outline text.rawLines
  rw [lex_eq_gather source relDir houtline]
  exact pairwise_blocks_gather ..

theorem pairwise_spans_lex :
    (lex source relDir text).spans.Pairwise fun s t => s.stop ≤ t.start := by
  obtain ⟨parts, houtline⟩ := exists_outline text.rawLines
  rw [lex_eq_gather source relDir houtline]
  exact pairwise_spans_gather ..

end

end Lexer

open Lexer in
theorem lex_partitions (source relDir text : Text) :
    (lex source relDir text).Partitions text where
  blocks_inside b hb := by
    obtain ⟨earlier, p, later, hlines, hb, -⟩ := exists_part_of_mem_blocks hb
    obtain ⟨hfirst, hlast⟩ := lines_of_mem_blocks hb
    have := p.length_lines_pos
    simp only [hlines, List.length_append] at hlast ⊢
    omega
  blocks_ordered := pairwise_blocks_lex source relDir text
  spans_inside s hs := by
    obtain ⟨earlier, p, later, hlines, rfl⟩ := exists_part_of_mem_spans hs
    obtain ⟨hlt, hle, -⟩ := span_of_part hlines
    exact ⟨hlt, hle⟩
  spans_ordered := pairwise_spans_lex source relDir text
  spans_lines s hs := by
    obtain ⟨earlier, p, later, hlines, rfl⟩ := exists_part_of_mem_spans hs
    exact (span_of_part hlines).2.2
  blocks_spans b hb hkind := by
    obtain ⟨earlier, p, later, hlines, hb, hspans⟩ := exists_part_of_mem_blocks hb
    obtain ⟨hfirst, hlast⟩ := lines_of_mem_blocks hb
    apply hspans
    rw [hlines, spanIn_append hfirst hlast, mem_spans_found]
    rcases mem_blocks_found hb with ⟨_, _, _, _, _, rfl⟩ | ⟨r, hr, -⟩
    · exact absurd rfl hkind
    · exact ⟨r, hr, rfl⟩
  blocks_lines b hb hkind := by
    obtain ⟨earlier, p, later, hlines, hb, -⟩ := exists_part_of_mem_blocks hb
    obtain ⟨hfirst, hlast⟩ := lines_of_mem_blocks hb
    rw [hlines, linesIn_append hfirst hlast]
    rcases mem_blocks_found hb with ⟨_, _, _, _, _, rfl⟩ | ⟨r, rfl, hregion, -, hfenced⟩
    · exact absurd rfl hkind
    · refine ⟨r.opening, r.inner, r.closing, rfl, by rw [hregion]; rfl, fun hkind => ?_⟩
      exact r.isFence_of_delimiter (hfenced hkind).1

end Tangle
