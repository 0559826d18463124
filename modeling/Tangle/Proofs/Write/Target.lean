import Tangle.Proofs.Document.Partition
import Tangle.Proofs.Scan.Documents
import Tangle.Write.Writer

namespace Tangle

open Text

namespace Lexer

theorem relDir_of_mem_literate {o : Origin} {attrs : Attributes} {r : Region} {line : Nat}
    {out : Output} (h : .output out ∈ (literate o attrs r line).blocks) : out.relDir = o.relDir := by
  have htype : attrs.get "type" = "output" := (mem_blocks_literate h).2.2.symm
  have hcode : ofString "output" ≠ "code" := by decide
  simp only [literate, htype, hcode, if_true, if_false, requiring] at h
  split at h
  next => cases h
  next =>
    cases List.mem_singleton.1 h
    rfl

theorem relDir_of_mem_lex {source relDir text : Text} {out : Output}
    (h : .output out ∈ (lex source relDir text).blocks) : out.relDir = relDir := by
  obtain ⟨opening, -, r, line, hb⟩ := exists_literate_of_mem_blocks h rfl
  exact relDir_of_mem_literate hb

end Lexer

namespace Output

structure BareIn (root document : Text) (out : Output) : Prop where
  below : Scan.Below root document
  mem_lex : ∃ text, .output out ∈ (lex document (Scan.relDir root document) text).blocks
  slash_notMem : slash ∉ out.target
  backslash_notMem : backslash ∉ out.target

variable {root document : Text} {out : Output}

theorem path_of_bare (hslash : slash ∉ out.target) (hbackslash : backslash ∉ out.target) :
    out.path = out.relDir ++ out.target := by
  have hbare : (out.target.any fun c => c == slash || c == backslash) = false := by
    rw [List.any_eq_false]
    intro c hc
    simp [ne_of_mem_of_not_mem hc hslash, ne_of_mem_of_not_mem hc hbackslash]
  rw [path, hbare]
  rfl

theorem BareIn.exists_dirs (h : out.BareIn root document) (hroot : Path.isAbsolute root = true) :
    ∃ dirs, Path.components (Path.directory document) = Path.components root ++ dirs ∧
      (∀ c ∈ dirs, Path.IsPart c ∧ c ≠ "..") ∧
      out.path = dirs.flatMap (· ++ [slash]) ++ out.target := by
  obtain ⟨habsolute, names, hne, hnames⟩ := h.below
  obtain ⟨dirs, hdirs⟩ := Path.prefix_components_directory habsolute hne hnames
  obtain ⟨text, hlex⟩ := h.mem_lex
  refine ⟨dirs, hdirs.symm,
    Path.names_of_components (Path.isFull_directory habsolute).absolute hdirs.symm, ?_⟩
  rw [path_of_bare h.slash_notMem h.backslash_notMem, Lexer.relDir_of_mem_lex hlex,
    Scan.relDir_eq hroot habsolute hdirs.symm]

end Output

namespace Writer

variable {w : Writer}

def top (w : Writer) : Text := if w.outputPath = [] then w.base.path else w.outputPath

theorem target_eq_against (w : Writer) (out : Output) :
    w.target out = Path.against w.top out.path := by
  by_cases hnone : w.outputPath = []
  · simp only [target, top, hnone, ne_eq, not_true_eq_false, if_false, if_true]
    rfl
  · simp only [target, top, hnone, ne_eq, not_false_eq_true, if_true, if_false]

theorem top_ne_nil (hbase : Path.isAbsolute w.base.path = true) : w.top ≠ [] := by
  unfold top
  split_ifs with hnone
  · exact Path.ne_nil_of_isAbsolute hbase
  · exact hnone

section Bare

variable {out out' : Output} {document document' : Text}
  (hbase : Path.isAbsolute w.base.path = true) (h : out.BareIn w.base.path document)

include hbase h

theorem target_eq_append : w.target out = Path.append w.top out.path := by
  obtain ⟨dirs, -, hdirs, hpath⟩ := h.exists_dirs hbase
  have hrelative : Path.isAbsolute out.path = false := by
    rw [hpath]
    exact Path.isAbsolute_flatMap_append (fun c hc => (hdirs c hc).1) h.slash_notMem
  rw [target_eq_against, Path.against, hrelative, if_neg Bool.false_ne_true]

theorem target_of_bareIn :
    ∃ rel, Path.relative? w.base.path (Path.directory document) = some rel ∧
      Path.append w.base.path rel = Path.directory document ∧
      w.target out = Path.against (Path.append w.top rel) out.target := by
  obtain ⟨dirs, hdirectory, hdirs, hpath⟩ := h.exists_dirs hbase
  have hdirs : ∀ c ∈ dirs, Path.IsPart c := fun c hc => (hdirs c hc).1
  have hfull := Path.isFull_directory h.below.1
  have habsolute := hbase.trans hfull.absolute.symm
  have htop := top_ne_nil hbase
  have hparts : Path.parts out.path = Path.parts (join [slash] dirs) ++ Path.parts out.target := by
    rw [hpath, Path.parts_flatMap_append hdirs, Path.parts_join hdirs]
  refine ⟨_, Path.relative?_eq_render habsolute hdirectory, ?_, ?_⟩
  · rw [Path.append_render_eq_clean (Path.ne_nil_of_isAbsolute hbase) habsolute hdirectory,
      hfull.clean]
  · calc
      w.target out = Path.append w.top out.path := target_eq_append hbase h
      _ = Path.append (Path.append w.top (join [slash] dirs)) out.target :=
        (Path.append_append htop hparts).symm
      _ = Path.append (Path.append w.top (Path.render false dirs)) out.target := by
        rw [Path.append_render htop]
      _ = Path.against (Path.append w.top (Path.render false dirs)) out.target := by
        rw [Path.against, Path.isAbsolute_of_slash_notMem h.slash_notMem,
          if_neg Bool.false_ne_true]

theorem exists_components_target (hdot : out.target ≠ ".") (hdots : out.target ≠ "..") :
    ∃ dirs, Path.components (Path.directory document) = Path.components w.base.path ++ dirs ∧
      Path.components (w.target out) =
        Path.components w.top ++ (dirs ++ Path.parts out.target) := by
  obtain ⟨dirs, hdirectory, hdirs, hpath⟩ := h.exists_dirs hbase
  have hparts : Path.parts out.path = dirs ++ Path.parts out.target := by
    rw [hpath, Path.parts_flatMap_append fun c hc => (hdirs c hc).1]
  refine ⟨dirs, hdirectory, ?_⟩
  rw [target_eq_append hbase h, ← hparts]
  apply Path.components_append_of_names (top_ne_nil hbase)
  intro c hc
  rw [hparts, List.mem_append] at hc
  rcases hc with hc | hc
  · exact ⟨(hdirs c hc).1.ne_dot, (hdirs c hc).2⟩
  · rw [Path.eq_of_mem_parts h.slash_notMem hc]
    exact ⟨hdot, hdots⟩

theorem directory_eq_of_target_eq (h' : out'.BareIn w.base.path document')
    (htarget : out.target = out'.target) (hdot : out.target ≠ ".") (hdots : out.target ≠ "..")
    (hsame : w.target out = w.target out') :
    Path.directory document = Path.directory document' := by
  obtain ⟨dirs, hdirectory, hcomponents⟩ := exists_components_target hbase h hdot hdots
  obtain ⟨dirs', hdirectory', hcomponents'⟩ :=
    exists_components_target hbase h' (htarget ▸ hdot) (htarget ▸ hdots)
  -- The names of the directories stand between what both paths start with and the common target.
  have hdirs : dirs = dirs' := by
    rw [hsame, hcomponents', htarget] at hcomponents
    exact (List.append_cancel_right (List.append_cancel_left hcomponents)).symm
  have hfull := Path.isFull_directory h.below.1
  have hfull' := Path.isFull_directory h'.below.1
  exact Path.eq_of_components hfull.clean hfull'.clean
    (hfull.absolute.trans hfull'.absolute.symm) (by rw [hdirectory, hdirectory', hdirs])

end Bare

/-- A bare target lands beside its document, or at the same place below the output path. So outputs
with one bare target that is no dot name get one path just if their documents are in one
directory. -/
theorem target_beside (hbase : Path.isAbsolute w.base.path = true) :
    (∀ (document : Text) (out : Output), out.BareIn w.base.path document →
      ∃ rel, Path.relative? w.base.path (Path.directory document) = some rel ∧
        (w.outputPath = [] →
          w.target out = Path.against (Path.directory document) out.target) ∧
        (w.outputPath ≠ [] →
          w.target out = Path.against (Path.append w.outputPath rel) out.target)) ∧
    ∀ (document document' : Text) (out out' : Output), out.BareIn w.base.path document →
      out'.BareIn w.base.path document' → out.target = out'.target →
      out.target ≠ "." → out.target ≠ ".." →
      (w.target out = w.target out' ↔ Path.directory document = Path.directory document') := by
  refine ⟨fun document out hbare => ?_,
    fun document document' out out' hbare hbare' htarget hdot hdots => ?_⟩
  · obtain ⟨rel, hrel, hway, hplace⟩ := target_of_bareIn hbase hbare
    refine ⟨rel, hrel, fun hnone => ?_, fun hsome => ?_⟩
    · rw [hplace, top, if_pos hnone, hway]
    · rw [hplace, top, if_neg hsome]
  · refine ⟨directory_eq_of_target_eq hbase hbare hbare' htarget hdot hdots, fun hsame => ?_⟩
    obtain ⟨rel, hrel, -, hplace⟩ := target_of_bareIn hbase hbare
    obtain ⟨rel', hrel', -, hplace'⟩ := target_of_bareIn hbase hbare'
    rw [hsame, hrel'] at hrel
    rw [hplace, hplace', Option.some.inj hrel, htarget]

def chapter : Text := "```c lit-type:output lit-file:..m\nx\n```\n"

def deepOutput : Output := ⟨⟨"/proj/..a/b c/d.md", "x\n", 1, 3⟩, "..m", "..a/b c/"⟩

def flatOutput : Output := ⟨⟨"/proj/x/../d.md", "x\n", 1, 3⟩, "..m", []⟩

theorem target_beside_chapter :
    deepOutput.BareIn "/proj" "/proj/..a/b c/d.md" ∧ flatOutput.BareIn "/proj" "/proj/x/../d.md" ∧
      target ⟨⟨"/proj"⟩, []⟩ deepOutput = "/proj/..a/b c/..m" ∧
      target ⟨⟨"/proj"⟩, []⟩ flatOutput = "/proj/..m" ∧
      target ⟨⟨"/proj"⟩, "/out"⟩ deepOutput = "/out/..a/b c/..m" ∧
      target ⟨⟨"/proj"⟩, "/out"⟩ deepOutput ≠ target ⟨⟨"/proj"⟩, "/out"⟩ flatOutput := by
  have hdeep : deepOutput.BareIn "/proj" "/proj/..a/b c/d.md" :=
    ⟨⟨by decide, [ofString "..a", ofString "b c", ofString "d.md"], by decide, by decide⟩,
      ⟨chapter, by decide +kernel⟩, by decide, by decide⟩
  have hflat : flatOutput.BareIn "/proj" "/proj/x/../d.md" :=
    ⟨⟨by decide, [ofString "d.md"], by decide, by decide⟩, ⟨chapter, by decide +kernel⟩, by decide,
      by decide⟩
  obtain ⟨hbeside, -⟩ := target_beside (w := ⟨⟨"/proj"⟩, []⟩) (by decide)
  obtain ⟨-, -, hfirst, -⟩ := hbeside _ _ hdeep
  obtain ⟨-, -, hsecond, -⟩ := hbeside _ _ hflat
  obtain ⟨hbelow, hapart⟩ := target_beside (w := ⟨⟨"/proj"⟩, "/out"⟩) (by decide)
  obtain ⟨rel, hrel, -, hout⟩ := hbelow _ _ hdeep
  have hway : Path.relative? "/proj" (Path.directory "/proj/..a/b c/d.md") =
      some (ofString "..a/b c") := by decide
  obtain rfl := Option.some.inj (hway.symm.trans hrel)
  refine ⟨hdeep, hflat, (hfirst rfl).trans (by decide), (hsecond rfl).trans (by decide),
    (hout (by decide)).trans (by decide), ?_⟩
  exact (hapart _ _ _ _ hdeep hflat rfl (by decide) (by decide)).not.2 (by decide)

end Writer

end Tangle
