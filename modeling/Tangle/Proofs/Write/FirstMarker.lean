import Tangle.Proofs.Document.Request
import Tangle.Proofs.Write.Pending

namespace Tangle

open Text

namespace Text

structure Occurrence (text word : Text) where
  above : List Text
  lead : Text
  tail : Text
  below : List Text
  lines_eq : text.rawLines = above ++ (lead ++ word ++ tail) :: below

namespace Occurrence

variable {text word : Text}

def before (place : Occurrence text word) : Text := place.above.flatten ++ place.lead

def after (place : Occurrence text word) : Text := place.tail ++ place.below.flatten

def line (place : Occurrence text word) : Nat := place.above.length + 1

def lineText (place : Occurrence text word) : Text :=
  (place.lead ++ word ++ place.tail).dropLineEnd

def IsFirst (place : Occurrence text word) : Prop :=
  ∀ before after : Text, text = before ++ word ++ after → place.before.length ≤ before.length

theorem eq_append (place : Occurrence text word) : text = place.before ++ word ++ place.after := by
  have htext := congrArg List.flatten place.lines_eq
  rw [flatten_rawLines] at htext
  simpa [before, after] using htext

def under (place : Occurrence text word) {line : Text} (h : lf ∉ line) :
    Occurrence (line ++ lf :: text) word where
  above := (line ++ [lf]) :: place.above
  lead := place.lead
  tail := place.tail
  below := place.below
  lines_eq := by rw [rawLines_append_cons h, place.lines_eq, List.cons_append]

end Occurrence

theorem exists_occurrence {t word before rest : Text} (hne : word ≠ []) (hword : lf ∉ word)
    (h : t = before ++ (word ++ rest)) :
    ∃ place : Occurrence t word, before = place.before ∧ rest = place.after := by
  induction t using lines_induction generalizing before with
  | nil => simp_all
  | last line hline hlf =>
    refine ⟨⟨[], before, rest, [], ?_⟩, ?_, ?_⟩
    · rw [rawLines_eq_singleton hline hlf, h, List.append_assoc, List.nil_append]
    · simp [Occurrence.before]
    · simp [Occurrence.after]
  | cons line t hlf ih =>
    rcases List.append_eq_append_iff.1 h with ⟨c, rfl, hc⟩ | ⟨c, rfl, hc⟩
    · cases c with
      | nil =>
        have hlead : word <+: [] ++ lf :: t := ⟨rest, hc.symm⟩
        exact absurd (List.prefix_nil.1 (prefix_of_prefix_append_cons hword hlead)) hne
      | cons b c =>
        simp only [List.cons_append, List.cons.injEq] at hc
        obtain ⟨rfl, ht⟩ := hc
        obtain ⟨place, hbefore, hrest⟩ := ih ht
        refine ⟨place.under hlf, ?_, hrest⟩
        simp [Occurrence.before, Occurrence.under, hbefore]
    · obtain ⟨d, rfl⟩ := prefix_of_prefix_append_cons hword ⟨rest, hc⟩
      refine ⟨⟨[], before, d ++ [lf], t.rawLines, ?_⟩, ?_, ?_⟩
      · rw [rawLines_append_cons hlf]
        simp
      · simp [Occurrence.before]
      · simpa [Occurrence.after] using hc

namespace Occurrence

variable {text word : Text}

theorem lines_isPrefix (place : Occurrence text word) :
    place.above ++ [place.lead ++ word ++ place.tail] <+: text.rawLines :=
  ⟨place.below, by simp [place.lines_eq]⟩

theorem line_le_of_length_le {a b : Occurrence text word} (hne : word ≠ [])
    (h : a.before.length ≤ b.before.length) : a.line ≤ b.line := by
  by_contra hlt
  -- The line of `b` would be one of the lines above that of `a`.
  have hlines : b.above ++ [b.lead ++ word ++ b.tail] <+: a.above := by
    apply List.prefix_of_prefix_length_le b.lines_isPrefix
      ((List.prefix_append ..).trans a.lines_isPrefix)
    simp only [line, List.length_append, List.length_singleton] at hlt ⊢
    omega
  obtain ⟨between, hbetween⟩ := hlines
  have hpos := List.length_pos_iff.2 hne
  simp only [before, ← hbetween, List.flatten_append, List.flatten_singleton,
    List.length_append] at h
  omega

theorem IsFirst.lead_eq_nil {place : Occurrence text word} (h : place.IsFirst)
    (hstarts : word <+: place.lead ++ word ++ place.tail) : place.lead = [] := by
  obtain ⟨rest, hrest⟩ := hstarts
  have htext : text = place.above.flatten ++ word ++ (rest ++ place.below.flatten) := by
    have heq := congrArg List.flatten place.lines_eq
    rw [flatten_rawLines, ← hrest] at heq
    simpa using heq
  have hle := h _ _ htext
  rw [before, List.length_append] at hle
  exact List.eq_nil_of_length_eq_zero (by omega)

def Requested (place : Occurrence text word) (found : Lexed) : Prop :=
  ∃ q ∈ found.store.pulls, q.first = place.line ∧ q.marker = word

def Enclosed (place : Occurrence text word) (found : Lexed) : Prop :=
  ∃ s ∈ found.spans, s.start ≤ place.above.flatten.length ∧ place.above.flatten.length < s.stop

end Occurrence

end Text

namespace Lexer

variable {o : Origin} {done later : List Part} {p : Part}

theorem exists_pull?_iff {line : Text} {r : Marker.PullRequest}
    (h : Marker.pullRequest? line = some r) (n : Nat) (tail : Text) :
    (∃ q, pull? o n (r.marker ++ tail).dropLineEnd = some q ∧ q.marker = r.marker) ↔
      (r.marker ++ tail).dropLineEnd.contains Marker.processedWords = false ∧
        ¬ Marker.ReadsOn r.name tail.dropLineEnd := by
  rw [dropLineEnd_append (Marker.dropLineEnd_marker h)]
  obtain ⟨q', hq', hiff⟩ := Marker.exists_pullRequest?_append h tail.dropLineEnd
  rw [← hiff]
  constructor
  · rintro ⟨q, hq, hmarker⟩
    obtain ⟨hrequest, hwords, -⟩ := pull?_eq_some_iff.1 hq
    cases hq'.symm.trans hrequest
    exact ⟨hwords, hmarker⟩
  · rintro ⟨hwords, hmarker⟩
    exact ⟨⟨⟨o.source, [], n, n⟩, q'.path, q'.name, q'.marker⟩,
      pull?_eq_some_iff.2 ⟨hq', hwords, rfl⟩, hmarker⟩

theorem exists_part_of_line {parts : List Part} {above below : List Text} {raw : Text}
    (h : parts.flatMap Part.lines = above ++ raw :: below) :
    ∃ done p later inside after, parts = done ++ p :: later ∧ p.lines = inside ++ raw :: after ∧
      above = done.flatMap Part.lines ++ inside := by
  induction parts generalizing above with
  | nil => simp at h
  | cons p parts ih =>
    rw [List.flatMap_cons] at h
    rcases List.append_eq_append_iff.1 h with ⟨c, rfl, hc⟩ | ⟨c, hc, hraw⟩
    · obtain ⟨done, q, later, inside, after, rfl, hq, rfl⟩ := ih hc
      exact ⟨p :: done, q, later, inside, after, rfl, hq, by simp⟩
    · cases c with
      | nil =>
        obtain ⟨done, q, later, inside, after, rfl, hq, hnil⟩ :=
          @ih [] (by simpa using hraw.symm)
        exact ⟨p :: done, q, later, inside, after, rfl, hq, by simp_all⟩
      | cons b c =>
        simp only [List.cons_append, List.cons.injEq] at hraw
        obtain ⟨rfl, -⟩ := hraw
        exact ⟨[], p, parts, above, c, rfl, hc, by simp⟩

theorem exists_span_iff {inside after : List Text} {raw : Text} (hraw : raw ≠ [])
    (hp : p.lines = inside ++ raw :: after) :
    (∃ s ∈ (gather o [] (done ++ p :: later)).spans,
      s.start ≤ (done.flatMap Part.lines ++ inside).flatten.length ∧
        (done.flatMap Part.lines ++ inside).flatten.length < s.stop) ↔ ∃ r, p = .enclosed r := by
  have hpos := List.length_pos_iff.2 hraw
  rw [gather_part, Lexed.spans_append, Lexed.spans_append]
  constructor
  · rintro ⟨s, hs, hstart, hstop⟩
    simp only [List.flatten_append, List.length_append] at hstart hstop
    rcases List.mem_append.1 hs with hs | hs
    · have := (bytes_of_mem_gather hs).2
      rw [List.nil_append] at this
      omega
    rcases List.mem_append.1 hs with hs | hs
    · obtain ⟨r, hr, -⟩ := mem_spans_found.1 hs
      exact ⟨r, hr⟩
    · have := (bytes_of_mem_gather hs).1
      simp only [hp, List.flatten_append, List.flatten_cons, List.length_append] at this
      omega
  · rintro ⟨r, hr⟩
    have hs : _ ∈ (p.found o (done.flatMap Part.lines)).spans := mem_spans_found.2 ⟨r, hr, rfl⟩
    refine ⟨_, List.mem_append_right _ (List.mem_append_left _ hs), ?_⟩
    simp only [hp, List.flatten_append, List.flatten_cons, List.length_append]
    omega

end Lexer

namespace Patch

open Lexer

variable {source relDir text body : Text} {p : Pull}

theorem exists_occurrence_of_mem_pulls (hp : p ∈ (lex source relDir text).store.pulls) :
    ∃ place : Occurrence text p.marker, place.lead = [] ∧ p.first = place.line ∧
      Marker.pullRequest? place.lineText = some ⟨p.path, p.name, p.marker⟩ ∧
      p.marker ≠ [] ∧ lf ∉ p.marker := by
  obtain ⟨done, raw, hraw, later, houtline, hpull, -⟩ := exists_outline_of_mem_pulls hp
  have hsplit : text.rawLines = done.flatMap Part.lines ++ raw :: later.flatMap Part.lines := by
    simp [← houtline.flatMap_lines, Part.lines]
  have hline : lf ∉ raw.dropLineEnd := lf_notMem_dropLineEnd (t := text) (by simp [hsplit])
  obtain ⟨hlead, -, hne, hmarker, -⟩ := of_pull?_eq_some hline hpull
  obtain ⟨tail, rfl⟩ := hlead.trans (trimEndWhile_isPrefix isLineEnd raw)
  obtain ⟨hrequest, -, hregion⟩ := pull?_eq_some_iff.1 hpull
  exact ⟨⟨_, [], tail, _, hsplit⟩, rfl, by rw [hregion]; rfl, hrequest, hne, hmarker⟩

theorem exists_pull?_lineText_iff {o : Origin} {line : Text} {r : Marker.PullRequest}
    (hrequest : Marker.pullRequest? line = some r) {place : Occurrence text r.marker}
    (hfirst : place.IsFirst) (n : Nat) :
    (∃ q, Lexer.pull? o n place.lineText = some q ∧ q.marker = r.marker) ↔
      place.lead = [] ∧ place.lineText.contains Marker.processedWords = false ∧
        ¬ Marker.ReadsOn r.name place.tail.dropLineEnd := by
  by_cases hlead : place.lead = []
  · rw [Occurrence.lineText, hlead, List.nil_append, exists_pull?_iff hrequest]
    simp
  · refine iff_of_false ?_ fun h => hlead h.1
    rintro ⟨q, hq, hmarker⟩
    have hstarts := (Marker.of_pullRequest?_eq_some (pull?_eq_some_iff.1 hq).1).1
    rw [hmarker] at hstarts
    exact hlead (hfirst.lead_eq_nil (hstarts.trans (trimEndWhile_isPrefix _ _)))

theorem requested_iff_of_part {word : Text} {place : Occurrence text word} {done later : List Part}
    {part : Part} {inside after : List Text}
    (houtline : Outline (done ++ part :: later) text.rawLines)
    (hlines : part.lines = inside ++ (place.lead ++ word ++ place.tail) :: after)
    (habove : place.above = done.flatMap Part.lines ++ inside) :
    place.Requested (lex source relDir text) ↔
      ∃ hopens, part = .line (place.lead ++ word ++ place.tail) hopens ∧
        ∃ q, Lexer.pull? ⟨source, relDir⟩ place.line place.lineText = some q ∧ q.marker = word := by
  have hcount : place.line = (done.flatMap Part.lines).length + inside.length + 1 := by
    rw [Occurrence.line, habove, List.length_append]
  have halone : ∀ {raw hopens}, part = .line raw hopens →
      inside = [] ∧ place.lead ++ word ++ place.tail = raw := by
    rintro raw hopens rfl
    simp only [Part.lines, List.singleton_eq_append_iff, List.cons.injEq] at hlines
    tauto
  rw [Occurrence.Requested, lex_eq_gather source relDir houtline]
  constructor
  · rintro ⟨q, hq, hfirst, hmarker⟩
    have hlast : q.first ≤ (done.flatMap Part.lines ++ part.lines).length := by
      rw [hfirst, hcount, List.length_append, hlines, List.length_append, List.length_cons]
      omega
    obtain ⟨raw, hopens, hpart, hpull⟩ := exists_line_of_mem_pulls hq (by omega) hlast
    obtain ⟨rfl, rfl⟩ := halone hpart
    rw [List.length_nil, Nat.add_zero] at hcount
    rw [← hcount] at hpull
    exact ⟨hopens, hpart, q, hpull, hmarker⟩
  · rintro ⟨hopens, hpart, q, hpull, hmarker⟩
    obtain ⟨rfl, -⟩ := halone hpart
    refine ⟨q, ?_, by rw [toRegion_of_pull? hpull], hmarker⟩
    rw [List.length_nil, Nat.add_zero] at hcount
    rw [hcount] at hpull
    rw [hpart]
    exact mem_pulls_of_pull? hpull

/-- The line where a marker first occurs asks for a block by that marker if it starts with it, lies
in no region, does not tell that it was processed and is not read beyond the marker. -/
theorem requested_iff (hp : p ∈ (lex source relDir text).store.pulls)
    {place : Occurrence text p.marker} (hfirst : place.IsFirst) :
    place.Requested (lex source relDir text) ↔
      place.lead = [] ∧ ¬ place.Enclosed (lex source relDir text) ∧
        place.lineText.contains Marker.processedWords = false ∧
        ¬ Marker.ReadsOn p.name place.tail.dropLineEnd := by
  obtain ⟨own, -, hline, hrequest, hne, -⟩ := exists_occurrence_of_mem_pulls hp
  have hle : place.line ≤ own.line := Occurrence.line_le_of_length_le hne (hfirst _ _ own.eq_append)
  obtain ⟨parts, houtline⟩ := exists_outline text.rawLines
  obtain ⟨done, part, later, inside, after, rfl, hlines, habove⟩ :=
    exists_part_of_line (houtline.flatMap_lines.trans place.lines_eq)
  have hraw : place.lead ++ p.marker ++ place.tail ≠ [] := by simp [hne]
  have henclosed : place.Enclosed (lex source relDir text) ↔ ∃ r, part = .enclosed r := by
    rw [Occurrence.Enclosed, lex_eq_gather source relDir houtline, habove]
    exact exists_span_iff hraw hlines
  rw [requested_iff_of_part houtline hlines habove, henclosed]
  cases part with
  | line raw hopens =>
    obtain rfl : place.lead ++ p.marker ++ place.tail = raw := by
      simp only [Part.lines, List.singleton_eq_append_iff, List.cons.injEq] at hlines
      tauto
    have hnone : opens? (place.lead ++ (p.marker ++ place.tail)) = none := by
      rwa [← List.append_assoc]
    simpa [hnone] using exists_pull?_lineText_iff hrequest hfirst place.line
  | enclosed r => simp
  | unclosed r =>
    -- The line of the pull would lie in the open region.
    obtain rfl := houtline.eq_nil_of_unclosed
    have hlast : own.line ≤ (done.flatMap Part.lines ++ (Part.unclosed r).lines).length := by
      have htotal := congrArg List.length (houtline.flatMap_lines.trans own.lines_eq)
      simp only [List.flatMap_append, List.flatMap_cons, List.flatMap_nil, List.length_append,
        List.length_cons, List.length_nil] at htotal
      rw [Occurrence.line, List.length_append]
      omega
    have habove := congrArg List.length habove
    rw [List.length_append] at habove
    rw [Occurrence.line] at hle
    rw [lex_eq_gather source relDir houtline] at hp
    obtain ⟨_, _, hpart, -⟩ := exists_line_of_mem_pulls hp (by omega) (by omega)
    cases hpart

def pullAt (text : Text) (n : Nat) (p : Pull) (body : Text) : Text :=
  (text.rawLines.take (n - 1)).flatten ++
    (Marker.pull p.path p.name true ++ [lf] ++ body.dropFinalLf) ++
    (text.rawLines.drop (n - 1)).flatten.drop p.marker.length

theorem pullAt_line {place : Occurrence text p.marker} (h : place.lead = []) (body : Text) :
    pullAt text place.line p body =
      place.before ++ (Marker.pull p.path p.name true ++ [lf] ++ body.dropFinalLf) ++
        place.after := by
  rw [pullAt, Occurrence.line, Nat.add_sub_cancel, place.lines_eq, List.take_left, List.drop_left]
  simp [Occurrence.before, Occurrence.after, h]

theorem exists_first_occurrence (hp : p ∈ (lex source relDir text).store.pulls) (body : Text) :
    ∃ place : Occurrence text p.marker, place.IsFirst ∧
      pull? text p.marker p.path p.name body =
        some (place.before ++ (Marker.pull p.path p.name true ++ [lf] ++ body.dropFinalLf) ++
          place.after) := by
  obtain ⟨own, -, -, -, hne, hlf⟩ := exists_occurrence_of_mem_pulls hp
  have hinfix : p.marker <:+: text := ⟨own.before, own.after, own.eq_append.symm⟩
  obtain ⟨⟨before, rest⟩, hcut⟩ :=
    Option.isSome_iff_exists.1 (contains_iff_isInfix.2 hinfix)
  have htext := cut_eq_some hcut
  rw [List.append_assoc] at htext
  obtain ⟨place, rfl, rfl⟩ := exists_occurrence hne hlf htext
  exact ⟨place, fun before after h => length_le_of_cut hcut h, pull?_of_cut hne hcut ..⟩

/-- A pull is carried out where its marker first occurs. That is the line of a request, and the
marker at its start, unless the marker is quoted there; where no line above holds it, it is the line
of the pull. -/
theorem pull_at_first_occurrence (hp : p ∈ (lex source relDir text).store.pulls) (body : Text) :
    ∃ place : Occurrence text p.marker, place.IsFirst ∧
      pull? text p.marker p.path p.name body =
        some (place.before ++ (Marker.pull p.path p.name true ++ [lf] ++ body.dropFinalLf) ++
          place.after) ∧
      place.line ≤ p.first ∧
      (place.Requested (lex source relDir text) ↔
        place.lead = [] ∧ ¬ place.Enclosed (lex source relDir text) ∧
          place.lineText.contains Marker.processedWords = false ∧
          ¬ Marker.ReadsOn p.name place.tail.dropLineEnd) ∧
      (place.Requested (lex source relDir text) →
        pull? text p.marker p.path p.name body = some (pullAt text place.line p body)) ∧
      ((∀ raw ∈ text.rawLines.take (p.first.toNat - 1), ¬ p.marker <:+: raw) →
        place.line = p.first) := by
  obtain ⟨place, hfirst, hpull⟩ := exists_first_occurrence hp body
  obtain ⟨own, -, hline, -, hne, -⟩ := exists_occurrence_of_mem_pulls hp
  have hle : place.line ≤ own.line := Occurrence.line_le_of_length_le hne (hfirst _ _ own.eq_append)
  have hiff := requested_iff hp hfirst
  refine ⟨place, hfirst, hpull, by omega, hiff, fun h => ?_, fun hfree => ?_⟩
  · rw [hpull, pullAt_line (hiff.1 h).1]
  · by_contra hne
    have hshown : place.above ++ [place.lead ++ p.marker ++ place.tail] <+:
        text.rawLines.take (p.first.toNat - 1) := by
      rw [List.prefix_take_iff]
      refine ⟨place.lines_isPrefix, ?_⟩
      rw [Occurrence.line] at hle hne
      rw [List.length_append, List.length_singleton]
      omega
    exact hfree _ (hshown.subset (by simp)) ⟨place.lead, place.tail, rfl⟩

def manual : Text :=
  "```md\n<!-- pull_from: e.md, block: c -->\n```\n<!-- pull_from: e.md, block: c -->\n"

def manualPull : Pull := ⟨⟨"d.md", [], 4, 4⟩, "e.md", "c", "<!-- pull_from: e.md, block: c -->"⟩

theorem pull_at_first_occurrence_manual :
    manualPull ∈ (lex "d.md" [] manual).store.pulls ∧
      ∃ place : Occurrence manual manualPull.marker, place.before.length ≤ 6 ∧ place.line ≤ 4 ∧
        pull? manual manualPull.marker "e.md" "c" "x\n" =
          some (place.before ++ (Marker.pull "e.md" "c" true ++ "\nx") ++ place.after) ∧
        ¬ place.Requested (lex "d.md" [] manual) := by
  have hpulls : (lex "d.md" [] manual).store.pulls = [manualPull] := by decide +kernel
  have hp : manualPull ∈ (lex "d.md" [] manual).store.pulls := by simp [hpulls]
  obtain ⟨place, hfirst, hpull, hline, -, hrequested, -⟩ := pull_at_first_occurrence hp "x\n"
  refine ⟨hp, place, ?_, Int.ofNat_le.1 hline, hpull, fun h => ?_⟩
  · exact hfirst "```md\n" "\n```\n<!-- pull_from: e.md, block: c -->\n" (by decide +kernel)
  · have hpullAt := hrequested h
    obtain ⟨q, hq, hqline, -⟩ := h
    rw [hpulls, List.mem_singleton] at hq
    subst hq
    have hfour : place.line = 4 := Int.ofNat_inj.1 hqline.symm
    rw [hfour] at hpullAt
    exact absurd hpullAt (by decide +kernel)

/-- Documents that hold the text of a marker above the line where it is a request: in a fence, in a
custom block, within a line, on a line that tells of a processed marker, and on a line where the
blank name of the marker is read on. -/
def quotations : List Text :=
  let marker : Text := "<!-- pull_from: e.md, block: c -->"
  let nameless : Text := "<!-- pull_from: e.md, block: -->"
  [manual,
    "<!-- block: k -->\n" ++ marker ++ "\n<!-- end_block -->\n" ++ marker ++ "\n",
    "See " ++ marker ++ ".\n" ++ marker ++ "\n",
    marker ++ " processed: true\n" ++ marker ++ "\n",
    nameless ++ " -->\n" ++ nameless ++ "\n"]

/-- The pull goes into the fence of the first document, and in all of them to a line that is no
request. -/
theorem pull_quotations :
    pull? manual manualPull.marker "e.md" "c" "x\n" =
        some ("```md\n" ++ (Marker.pull "e.md" "c" true ++ "\nx") ++ "\n```\n" ++
          manualPull.marker ++ "\n") ∧
      ∀ text ∈ quotations, ∃ p ∈ (lex "d.md" [] text).store.pulls,
        (pull? text p.marker p.path p.name "x\n").isSome = true ∧
        ∀ q ∈ (lex "d.md" [] text).store.pulls, q.marker = p.marker →
          pull? text p.marker p.path p.name "x\n" ≠ some (pullAt text q.first.toNat p "x\n") := by
  decide +kernel

end Patch

end Tangle
