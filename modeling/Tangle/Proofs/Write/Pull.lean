import Tangle.Proofs.Document.Marker
import Tangle.Proofs.Write.Import

namespace Tangle

open Text

namespace Text

theorem length_split (sep : UInt8) (t : Text) : (split sep t).length = t.count sep + 1 := by
  induction t with
  | nil => rfl
  | cons b t ih =>
    simp only [split]
    split
    next h => simp [h, ih]
    next h =>
      split
      next part parts hsplit =>
        rw [hsplit] at ih
        simpa [h] using ih
      next hsplit => exact absurd hsplit (split_ne_nil sep t)

theorem length_rawLines_append_lf (t : Text) : (rawLines (t ++ [lf])).length = t.count lf + 1 := by
  induction t using lines_induction with
  | nil => rfl
  | last line hne hline =>
    rw [rawLines_append_cons hline, List.count_eq_zero_of_not_mem hline]
    rfl
  | cons line t hline ih =>
    rw [List.append_assoc, List.cons_append, rawLines_append_cons hline, List.length_cons, ih,
      List.count_append, List.count_eq_zero_of_not_mem hline, List.count_cons_self]
    omega

theorem length_rawLines {t : Text} (h : t.Ended) : t.rawLines.length = t.count lf := by
  rcases h with rfl | h
  · rfl
  · obtain ⟨u, rfl⟩ := List.getLast?_eq_some_iff.1 (endsWith_iff.1 h)
    rw [length_rawLines_append_lf, List.count_append]
    rfl

theorem subset_of_mem_rawLines {t raw : Text} (h : raw ∈ t.rawLines) : raw ⊆ t := by
  intro b hb
  rw [← flatten_rawLines t]
  exact List.mem_flatten.2 ⟨raw, h, hb⟩

theorem of_rawLines_eq {t raw : Text} {before after : List Text}
    (h : t.rawLines = before ++ raw :: after) :
    ∃ line : Text, lf ∉ line ∧ (raw = line ++ [lf] ∨ raw = line ∧ after = []) := by
  induction t using lines_induction generalizing before with
  | nil => simp [rawLines] at h
  | last line hne hline =>
    rw [rawLines_eq_singleton hne hline] at h
    cases before with
    | nil =>
      simp only [List.nil_append, List.cons.injEq] at h
      exact ⟨line, hline, .inr ⟨h.1.symm, h.2.symm⟩⟩
    | cons => simp at h
  | cons line t hline ih =>
    rw [rawLines_append_cons hline] at h
    cases before with
    | nil =>
      simp only [List.nil_append, List.cons.injEq] at h
      exact ⟨line, hline, .inl h.1.symm⟩
    | cons first before =>
      simp only [List.cons_append, List.cons.injEq] at h
      exact ih h.2

end Text

namespace Marker

theorem dropLineEnd_pull (path name : Text) (processed : Bool) :
    (pull path name processed).dropLineEnd = pull path name processed := by
  have hend : trimEndWhile isLineEnd " -->" = " -->" := by decide
  have hend' : trimEndWhile isLineEnd ", processed: true -->" = ", processed: true -->" := by decide
  cases processed with
  | false => rw [pull, if_neg (by decide), dropLineEnd, trimEndWhile_append (by decide), hend]
  | true => rw [pull, if_pos rfl, dropLineEnd, trimEndWhile_append (by decide), hend']

theorem lf_notMem_pull {path name : Text} (hpath : lf ∉ path) (hname : lf ∉ name)
    (processed : Bool) : lf ∉ pull path name processed := by
  have h₁ : lf ∉ ofString "<!-- pull_from: " := by decide
  have h₂ : lf ∉ ofString ", block: " := by decide
  have h₃ : lf ∉ ofString " -->" := by decide
  have h₄ : lf ∉ ofString ", processed: true -->" := by decide
  cases processed <;> simp [pull, *]

theorem silent_pull (path name : Text) : Lexer.Silent (pull path name true ++ [lf]) := by
  have hwords : (pull path name true).contains processedWords = true := by
    rw [contains_iff_isInfix]
    have hclosing : processedWords <:+: ofString ", processed: true -->" := ⟨", ", " -->", rfl⟩
    apply hclosing.trans
    rw [pull, if_pos rfl]
    exact (List.suffix_append ..).isInfix
  unfold Lexer.Silent Lexer.opens?
  rw [dropLineEnd_append_lf, dropLineEnd_pull]
  exact ⟨rfl, fun _ _ => hwords⟩

end Marker

namespace Patch

open Lexer

section Silent

variable {t body tail : Text}

theorem silent_append_of_notMem {line : Text} (hline : lf ∉ line) (h : Silent line)
    (htail : tail.Inkless) : ∀ raw ∈ rawLines (line ++ tail), Silent raw := by
  induction tail using lines_induction with
  | nil =>
    by_cases hne : line = []
    · simp [hne, rawLines]
    · simpa [rawLines_eq_singleton hne hline] using h
  | last w hne hw =>
    have hlf : lf ∉ line ++ w := by simp [hline, hw]
    rw [rawLines_eq_singleton (by simp [hne]) hlf]
    simpa using h.append htail
  | cons w t hw ih =>
    have hlf : lf ∉ line ++ w := by simp [hline, hw]
    have hfirst : Inkless (w ++ [lf]) := fun b hb => htail b (by simp at hb ⊢; tauto)
    have hrest : Inkless t := fun b hb => htail b (by simp [hb])
    rw [← List.append_assoc, rawLines_append_cons hlf]
    intro raw hraw
    rcases List.mem_cons.1 hraw with rfl | hraw
    · rw [List.append_assoc]
      exact h.append hfirst
    · exact silent_of_inkless fun b hb => hrest b (subset_of_mem_rawLines hraw hb)

theorem silent_append (h : ∀ raw ∈ rawLines t, Silent raw) (htail : tail.Inkless) :
    ∀ raw ∈ rawLines (t ++ tail), Silent raw := by
  induction t using lines_induction with
  | nil => exact silent_append_of_notMem List.not_mem_nil silent_nil htail
  | last line hne hline =>
    rw [rawLines_eq_singleton hne hline] at h
    exact silent_append_of_notMem hline (h line (List.mem_singleton_self _)) htail
  | cons line t hline ih =>
    rw [rawLines_append_cons hline] at h
    rw [List.append_assoc, List.cons_append, rawLines_append_cons hline]
    intro raw hraw
    rcases List.mem_cons.1 hraw with rfl | hraw
    · exact h _ (List.mem_cons_self ..)
    · exact ih (fun raw hraw => h raw (List.mem_cons_of_mem _ hraw)) raw hraw

theorem silent_of_append_lf (h : ∀ raw ∈ rawLines (t ++ [lf]), Silent raw) :
    ∀ raw ∈ rawLines t, Silent raw := by
  induction t using lines_induction with
  | nil => simp [rawLines]
  | last line hne hline =>
    rw [rawLines_append_cons hline] at h
    rw [rawLines_eq_singleton hne hline]
    intro raw hraw
    obtain rfl := List.mem_singleton.1 hraw
    exact (h _ (List.mem_cons_self ..)).of_dropLineEnd_eq (dropLineEnd_append_lf _).symm
  | cons line t hline ih =>
    rw [List.append_assoc, List.cons_append, rawLines_append_cons hline] at h
    rw [rawLines_append_cons hline]
    intro raw hraw
    rcases List.mem_cons.1 hraw with rfl | hraw
    · exact h _ (List.mem_cons_self ..)
    · exact ih (fun raw hraw => h raw (List.mem_cons_of_mem _ hraw)) raw hraw

theorem silent_dropFinalLf (h : ∀ raw ∈ rawLines body, Silent raw) :
    ∀ raw ∈ rawLines body.dropFinalLf, Silent raw := by
  unfold dropFinalLf
  split
  next hends =>
    apply silent_of_append_lf
    rwa [List.dropLast_append_getLast?]
    exact endsWith_iff.1 hends
  next => exact h

end Silent

theorem pull?_of_cut {text marker before rest : Text} (hne : marker ≠ [])
    (hcut : cut marker text = some (before, rest)) (path name body : Text) :
    pull? text marker path name body =
      some (before ++ (Marker.pull path name true ++ [lf] ++ body.dropFinalLf) ++ rest) := by
  rw [pull?, if_neg hne, hcut]
  rfl

section Outline

variable {text marker path name body tail : Text}

theorem exists_tail {before after : List Text}
    (h : text.rawLines = before ++ (marker ++ tail) :: after) (hmarker : lf ∉ marker) :
    ∃ w : Text, lf ∉ w ∧ (tail = w ++ [lf] ∨ tail = w ∧ after = []) := by
  obtain ⟨line, hline, heq | ⟨heq, rfl⟩⟩ := of_rawLines_eq h
  · rcases List.append_eq_append_iff.1 heq with ⟨w, rfl, rfl⟩ | ⟨c, rfl, hc⟩
    · exact ⟨w, fun hw => hline (List.mem_append_right _ hw), .inl rfl⟩
    · cases c with
      | nil => exact ⟨[], List.not_mem_nil, .inl hc.symm⟩
      | cons b c =>
        simp only [List.cons_append, List.cons.injEq] at hc
        exact absurd (by simp [← hc.1]) hmarker
  · exact ⟨tail, fun htail => hline (heq ▸ List.mem_append_right _ htail), .inr ⟨rfl, rfl⟩⟩

theorem inkless_tail {before after : List Text}
    (h : text.rawLines = before ++ (marker ++ tail) :: after) (hmarker : lf ∉ marker)
    (hblank : trim ((tail ++ after.flatten).takeWhile (· ≠ lf)) = []) : tail.Inkless := by
  obtain ⟨w, hw, hends⟩ := exists_tail h hmarker
  have hall : ∀ b ∈ w, decide (b ≠ lf) = true := by
    intro b hb
    exact decide_eq_true fun hlf => hw (hlf ▸ hb)
  rcases hends with rfl | ⟨rfl, rfl⟩
  · rw [List.append_assoc, List.takeWhile_append_of_pos hall] at hblank
    refine Inkless.append (inkless_of_trim ?_) (inkless_of_isLineEnd (by decide +kernel))
    simpa using hblank
  · rw [List.flatten_nil, List.takeWhile_append_of_pos hall] at hblank
    exact inkless_of_trim (by simpa using hblank)

theorem exists_outline_pull {done later : List Part} {hraw : opens? (marker ++ tail) = none}
    (houtline : Outline (done ++ .line (marker ++ tail) hraw :: later) text.rawLines)
    (htail : tail.Inkless) (hmarker : lf ∉ marker) (hpath : lf ∉ path) (hname : lf ∉ name)
    (hbody : ∀ raw ∈ rawLines body, Silent raw) :
    ∃ new : List Part, (∀ o before, gather o before new = .empty) ∧
      new.flatMap Part.lines =
        (Marker.pull path name true ++ [lf]) :: rawLines (body.dropFinalLf ++ tail) ∧
      Outline (done ++ (new ++ later)) (rawLines ((done.flatMap Part.lines).flatten ++
        (Marker.pull path name true ++ [lf] ++ body.dropFinalLf) ++
        (tail ++ (later.flatMap Part.lines).flatten))) := by
  have hsilent : ∀ raw ∈ (Marker.pull path name true ++ [lf]) ::
      rawLines (body.dropFinalLf ++ tail), Silent raw := by
    intro raw hmem
    rcases List.mem_cons.1 hmem with rfl | hmem
    · exact Marker.silent_pull path name
    · exact silent_append (silent_dropFinalLf hbody) htail raw hmem
  obtain ⟨new, hclosed, hlines, hempty⟩ := exists_parts_of_silent hsilent
  refine ⟨new, hempty, hlines, ?_⟩
  have hsplit : text.rawLines =
      done.flatMap Part.lines ++ (marker ++ tail) :: later.flatMap Part.lines := by
    simp [← houtline.flatMap_lines, Part.lines]
  obtain ⟨hdone, -, hended⟩ := rawLines_parted hsplit
  have hlater := (rawLines_parted (hsplit.trans (List.append_cons ..))).2.1
  have hrest : rawLines (body.dropFinalLf ++ tail ++ (later.flatMap Part.lines).flatten) =
      rawLines (body.dropFinalLf ++ tail) ++ later.flatMap Part.lines := by
    obtain ⟨w, -, rfl | ⟨-, hnil⟩⟩ := exists_tail hsplit hmarker
    · rw [rawLines_append, hlater]
      exact .inr (by simp [endsWith_iff])
    · simp [hnil]
  have hexchange := houtline.exchange trivial hclosed
  rw [hlines] at hexchange
  convert hexchange using 1
  simp only [List.append_assoc, List.cons_append, List.nil_append] at hrest ⊢
  rw [rawLines_append (hended (by simp)), hdone,
    rawLines_append_cons (Marker.lf_notMem_pull hpath hname _), hrest]

end Outline

variable {source relDir text body rest : Text} {p : Pull}

theorem exists_outline_of_mem_pulls (h : p ∈ (lex source relDir text).store.pulls) :
    ∃ done raw hraw later, Outline (done ++ .line raw hraw :: later) text.rawLines ∧
      Lexer.pull? ⟨source, relDir⟩ ((done.flatMap Part.lines).length + 1) raw.dropLineEnd =
        some p ∧
      .pull p ∈ ((Part.line raw hraw).found ⟨source, relDir⟩ (done.flatMap Part.lines)).blocks := by
  obtain ⟨done, q, later, houtline, hb⟩ := exists_outline_of_mem_blocks (Store.mem_pulls.1 h)
  rcases mem_blocks_found hb with ⟨raw, hraw, q', rfl, hq', heq⟩ | ⟨_, _, _, hkind, _⟩
  · cases heq
    exact ⟨done, raw, hraw, later, houtline, hq', hb⟩
  · exact absurd rfl hkind

theorem of_pull?_eq_some {o : Origin} {n : Nat} {raw : Text} (hraw : lf ∉ raw.dropLineEnd)
    (h : Lexer.pull? o n raw.dropLineEnd = some p) :
    p.marker <+: raw.dropLineEnd ∧ Marker.opening <+: p.marker ∧ p.marker ≠ [] ∧ lf ∉ p.marker ∧
      lf ∉ p.path ∧ lf ∉ p.name := by
  obtain ⟨hq, -, -⟩ := pull?_eq_some_iff.1 h
  obtain ⟨hmarker, hopening, hpath, hname⟩ := Marker.of_pullRequest?_eq_some hq
  refine ⟨hmarker, hopening, ?_, fun hlf => hraw (hmarker.subset hlf), fun hlf => hraw (hpath hlf),
    fun hlf => hraw (hname hlf)⟩
  rintro hnil
  dsimp only at hopening
  rw [hnil] at hopening
  exact absurd (List.prefix_nil.1 hopening) (by decide)

/-- Pulling a block into a document takes its request away and keeps all other blocks. -/
theorem lex_pull (hp : p ∈ (lex source relDir text).store.pulls)
    (hfirst : cut p.marker text = some ((text.rawLines.take (p.first.toNat - 1)).flatten, rest))
    (hblank : trim (rest.takeWhile (· ≠ lf)) = []) (hbody : lex source relDir body = .empty) :
    ∃ out, pull? text p.marker p.path p.name body = some out ∧
      (lex source relDir out).blocks =
        ((lex source relDir text).blocks.filter (· ≠ .pull p)).map
          (·.moveBelow p.first (split lf body.dropFinalLf).length) ∧
      (lex source relDir out).diagnostics = (lex source relDir text).diagnostics.map
        (·.moveBelow p.first (split lf body.dropFinalLf).length) ∧
      out.rawLines[p.first.toNat - 1]? = some (Marker.pull p.path p.name true ++ [lf]) ∧
      (∀ n offset, step ⟨source, relDir⟩ .outside n offset
        (Marker.pull p.path p.name true ++ [lf]) = (.outside, .empty)) ∧
      (∀ b ∈ (lex source relDir out).blocks, b.region.first ≠ p.first) ∧
      ∀ d ∈ (lex source relDir out).diagnostics, d.line ≠ p.first := by
  obtain ⟨done, raw, hraw, later, houtline, hpull, hb⟩ := exists_outline_of_mem_pulls hp
  obtain ⟨hblocks, hdiagnostics⟩ := found_of_mem_blocks hb
  have hsplit : text.rawLines = done.flatMap Part.lines ++ raw :: later.flatMap Part.lines := by
    simp [← houtline.flatMap_lines, Part.lines]
  have hline : lf ∉ raw.dropLineEnd := lf_notMem_dropLineEnd (t := text) (by simp [hsplit])
  obtain ⟨hlead, -, hne, hmarker, hpath, hname⟩ := of_pull?_eq_some hline hpull
  obtain ⟨tail, rfl⟩ := hlead.trans (trimEndWhile_isPrefix isLineEnd raw)
  have hregion := toRegion_of_pull? hpull
  have hstart : p.first = ↑((done.flatMap Part.lines).length + 1) := by rw [hregion]
  rw [hstart, Int.toNat_natCast, Nat.add_sub_cancel] at hfirst ⊢
  rw [hsplit, List.take_left] at hfirst
  have hrest : rest = tail ++ (later.flatMap Part.lines).flatten := by
    have htext := congrArg List.flatten hsplit
    rw [flatten_rawLines, cut_eq_some hfirst] at htext
    simpa using htext
  obtain ⟨w, hw, hends⟩ := exists_tail hsplit hmarker
  have htail := inkless_tail hsplit hmarker (hrest ▸ hblank)
  obtain ⟨new, hempty, hlines, hout⟩ :=
    exists_outline_pull houtline htail hmarker hpath hname (silent_of_lex_eq_empty hbody)
  have hk : later ≠ [] → ((split lf body.dropFinalLf).length : Int) =
      (new.flatMap Part.lines).length - (Part.line (p.marker ++ tail) hraw).lines.length := by
    intro hlater
    obtain ⟨q, later, rfl⟩ := List.exists_cons_of_ne_nil hlater
    rcases hends with rfl | ⟨-, hnil⟩
    · rw [hlines, length_split, List.length_cons, ← List.append_assoc, length_rawLines_append_lf,
        List.count_append, List.count_eq_zero_of_not_mem hw]
      simp [Part.lines]
    · have := q.length_lines_pos
      simp_all
  have hnew : new ≠ [] := by
    rintro rfl
    simp at hlines
  refine ⟨_, pull?_of_cut hne hfirst _ _ _, ?_⟩
  rw [hrest, lex_eq_gather source relDir houtline, lex_eq_gather source relDir hout]
  refine ⟨?_, ?_, ?_, (Marker.silent_pull _ _).step _, fun b hb => ?_, fun d hd => ?_⟩
  · have hexchange := blocks_exchange hblocks (by rw [hempty]; rfl) hk
    rwa [Block.region, hregion] at hexchange
  · exact diagnostics_exchange (by simp [Part.lines]) hdiagnostics (by rw [hempty]; rfl) hk
  · rw [← hout.flatMap_lines, List.flatMap_append, List.flatMap_append, hlines]
    simp
  · exact first_ne_of_exchange (by rw [hempty]; rfl) hnew hb
  · exact line_ne_of_exchange (by rw [hempty]; rfl) hnew hd

def postscript : Text :=
  " \t\r\n<!-- block: k -->\ny\n<!-- end_block -->\n```lit-type:code\n```\n```js"

def letter : Text :=
  "```go lit-type:code lit-name:a\nx\n```\n<!--pull_from:e.md,block:c-->" ++ postscript

def letterPull : Pull := ⟨⟨"d.md", [], 4, 4⟩, "e.md", "c", "<!--pull_from:e.md,block:c-->"⟩

theorem lex_pull_letter :
    letterPull ∈ (lex "d.md" [] letter).store.pulls ∧
      ∃ out, pull? letter "<!--pull_from:e.md,block:c-->" "e.md" "c" "1\n--> 2\n\n" = some out ∧
        (lex "d.md" [] out).blocks =
          [.code ⟨⟨"d.md", "x\n", 1, 3⟩, "a"⟩, .custom ⟨⟨"d.md", "y\n", 8, 10⟩, "k"⟩] ∧
        (lex "d.md" [] out).diagnostics =
          [⟨"d.md", 11, "code block is missing lit-name"⟩,
            ⟨"d.md", 13, "block opened here is never closed"⟩] := by
  have hp : letterPull ∈ (lex "d.md" [] letter).store.pulls := by decide +kernel
  have hfirst : cut letterPull.marker letter =
      some ((letter.rawLines.take (letterPull.first.toNat - 1)).flatten, postscript) := by
    decide +kernel
  have hblank : trim (postscript.takeWhile (· ≠ lf)) = [] := by decide +kernel
  have hbody : lex "d.md" [] "1\n--> 2\n\n" = .empty := by decide +kernel
  obtain ⟨out, hout, hblocks, hdiagnostics, -⟩ := lex_pull hp hfirst hblank hbody
  refine ⟨hp, out, hout, hblocks.trans ?_, hdiagnostics.trans ?_⟩
  · decide +kernel
  · decide +kernel

end Patch

end Tangle
