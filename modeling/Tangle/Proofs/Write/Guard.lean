import Tangle.Proofs.Document.Edit
import Tangle.Proofs.Write.Import

namespace Tangle

open Text

def Lexed.NoneOpen (found : Lexed) : Prop :=
  ∀ d ∈ found.diagnostics, d.message ≠ "block opened here is never closed"

instance (found : Lexed) : Decidable found.NoneOpen :=
  inferInstanceAs (Decidable (∀ d ∈ found.diagnostics, _))

namespace Lexer

section Message

variable {o : Origin} {line : Nat} {found : Lexed}

def EndsOther (found : Lexed) : Prop := ∀ d ∈ found.diagnostics, d.message.getLast? ≠ some 100

theorem EndsOther.noneOpen (h : EndsOther found) : found.NoneOpen := by
  intro d hd hmessage
  refine h d hd ?_
  rw [hmessage]
  decide

theorem endsOther_problem (lead : Text) {tail : Text} (hne : tail ≠ [])
    (h : tail.getLast? ≠ some 100) : EndsOther (problem o line (lead ++ tail)) := by
  intro d hd
  rw [List.mem_singleton.1 hd]
  rwa [List.getLast?_append_of_ne_nil _ hne]

theorem endsOther_quoted (lead t : Text) : EndsOther (problem o line (lead ++ t.quoted)) := by
  apply endsOther_problem
  · simp [quoted]
  · rw [quoted, List.getLast?_append_of_ne_nil _ (by simp)]
    decide

theorem EndsOther.requiring (hfound : EndsOther found) {key : Text} (hne : key ≠ [])
    (hkey : key.getLast? ≠ some 100) (type value : Text) :
    EndsOther (requiring o line type key value found) := by
  unfold Lexer.requiring
  split
  next => exact endsOther_problem _ hne hkey
  next => exact hfound

theorem EndsOther.withRef {found : Ref → Lexed} (h : ∀ ref, EndsOther (found ref))
    (type file body : Text) : EndsOther (withRef o line type file body found) := by
  unfold Lexer.withRef
  split
  next => exact endsOther_quoted _ _
  next ref _ =>
    dsimp only
    generalize (if ref.path = [] then { ref with path := file } else ref) = ref
    split
    next => exact endsOther_problem _ (by decide) (by decide)
    next => exact h ref

theorem endsOther_block (b : Block) : EndsOther (.block b) := by
  intro d hd
  cases hd

theorem endsOther_literate (o : Origin) (attrs : Attributes) (r : Region) (line : Nat) :
    EndsOther (literate o attrs r line) := by
  have hname : ofString "name" ≠ [] ∧ (ofString "name").getLast? ≠ some 100 := by decide
  have hfile : ofString "file" ≠ [] ∧ (ofString "file").getLast? ≠ some 100 := by decide
  unfold literate
  dsimp only
  split_ifs
  · exact .requiring (endsOther_block _) hname.1 hname.2 _ _
  · exact .requiring (endsOther_block _) hfile.1 hfile.2 _ _
  · exact .requiring (.requiring (endsOther_block _) hfile.1 hfile.2 _ _) hname.1 hname.2 _ _
  · exact .requiring (endsOther_block _) hname.1 hname.2 _ _
  · exact .withRef (fun _ => endsOther_block _) _ _ _
  · exact .requiring (.withRef (fun _ => endsOther_block _) _ _ _) hname.1 hname.2 _ _
  · exact endsOther_problem [] (by decide) (by decide)
  · exact endsOther_quoted _ _

theorem noneOpen_found {p : Part} (h : p.IsClosed) (before : List Text) :
    (p.found o before).NoneOpen := by
  cases p with
  | line raw hraw =>
    simp only [Part.found]
    split
    next => exact (endsOther_block _).noneOpen
    next => simp [Lexed.NoneOpen, Lexed.empty]
  | enclosed r =>
    simp only [Part.found, Lexed.NoneOpen, Lexed.diagnostics_append, Lexed.span, List.nil_append]
    cases r.delimiter with
    | fence =>
      simp only [Delimiter.content]
      split
      next => exact (endsOther_literate _ _ _ _).noneOpen
      next => simp [Lexed.empty]
    | custom name => exact (endsOther_block _).noneOpen
  | unclosed r => cases h

end Message

theorem noneOpen_gather_iff {o : Origin} {before : List Text} {parts : List Part} :
    (gather o before parts).NoneOpen ↔ ∀ p ∈ parts, p.IsClosed := by
  refine ⟨isClosed_of_diagnostics, fun h d hd => ?_⟩
  obtain ⟨earlier, p, hp, hfound⟩ := mem_diagnostics_gather.1 hd
  obtain ⟨done, rest, rfl, -⟩ := mem_placed hp
  exact noneOpen_found (h p (by simp)) earlier d hfound

theorem opens?_of_isFence {raw : Text} (h : isFence raw = true) : opens? raw = some .fence := by
  rw [opens?, if_pos]
  rwa [isFence_dropLineEnd]

end Lexer

namespace Patch

open Lexer

theorem eq_of_flatten_length {lines a b : List Text} (hne : ∀ raw ∈ lines, raw ≠ [])
    (ha : a <+: lines) (hb : b <+: lines) (h : a.flatten.length = b.flatten.length) : a = b := by
  have hshort : ∀ {a b : List Text}, a <+: b → b <+: lines →
      a.flatten.length = b.flatten.length → a = b := by
    rintro a _ ⟨c, rfl⟩ hb h
    cases c with
    | nil => rw [List.append_nil]
    | cons raw c =>
      have hpos := List.length_pos_iff.2 (hne raw (hb.subset (by simp)))
      simp only [List.flatten_append, List.flatten_cons, List.length_append] at h
      omega
  rcases List.prefix_or_prefix_of_prefix ha hb with hab | hba
  · exact hshort hab hb h
  · exact (hshort hba ha h.symm).symm

namespace Range

variable {r : Range} {lines : List Text} {first last : Int} {source relDir text : Text}

theorem exists_covers (hfirst : 1 ≤ first) (hle : first ≤ last) (hlast : last ≤ lines.length) :
    ∃ r : Range, r.Covers lines first last := by
  obtain ⟨n, rfl⟩ : ∃ n : Nat, first = ↑(n + 1) := ⟨first.toNat - 1, by omega⟩
  obtain ⟨k, rfl⟩ : ∃ k : Nat, last = ↑(n + 1 + k) := ⟨last.toNat - (n + 1), by omega⟩
  obtain ⟨opening, rest, hrest⟩ := List.exists_cons_of_length_pos (l := lines.drop n)
    (by rw [List.length_drop]; omega)
  have hk : k ≤ rest.length := by
    have := congrArg List.length hrest
    rw [List.length_drop, List.length_cons] at this
    omega
  refine ⟨⟨lines.take n, opening, rest.take k, rest.drop k⟩, ?_, ?_, ?_⟩
  · rw [List.append_assoc, List.cons_append, List.take_append_drop, ← hrest, List.take_append_drop]
  · rw [List.length_take, Nat.min_eq_left (by omega)]
  · rw [List.length_append, List.length_cons, List.length_take, List.length_take,
      Nat.min_eq_left (by omega), Nat.min_eq_left hk]
    omega

def span (r : Range) : Span :=
  ⟨r.before.flatten.length, (r.before ++ r.opening :: r.rest).flatten.length⟩

theorem Covers.spanIn_eq (h : r.Covers lines first last) (source body : Text) :
    Region.spanIn ⟨source, body, first, last⟩ lines = r.span := by
  rw [Region.spanIn, h.first_eq, h.last_eq, Int.toNat_natCast, Int.toNat_natCast,
    Nat.add_sub_cancel, h.lines_eq, List.take_left, List.append_assoc, List.take_left]
  rfl

theorem closing_eq_getLast (h : r.rest ≠ []) : r.closing = r.rest.getLast h := by
  simp [closing, List.getLast_cons h]

theorem Covers.of_mem_spans (h : r.Covers text.rawLines first last)
    (hopening : isFence r.opening = true) (hspan : r.span ∈ (lex source relDir text).spans) :
    r.rest ≠ [] ∧ (∀ raw ∈ r.rest.dropLast, isFence raw = false) ∧
      (lex source relDir r.before.flatten).NoneOpen := by
  obtain ⟨parts, houtline⟩ := exists_outline text.rawLines
  rw [lex_eq_gather source relDir houtline] at hspan
  obtain ⟨earlier, p, hp, hfound⟩ := mem_spans_gather.1 hspan
  obtain ⟨later, hlines⟩ := houtline.exists_append hp
  obtain ⟨done, rest, rfl, rfl⟩ := mem_placed hp
  obtain ⟨e, rfl, heq⟩ := mem_spans_found.1 hfound
  rw [List.nil_append] at hlines heq
  obtain ⟨hstart, hstop⟩ := Span.mk.inj heq
  have hne : ∀ raw ∈ text.rawLines, raw ≠ [] := fun raw hraw => ne_nil_of_mem_rawLines hraw
  -- The region starts and ends with the same bytes as the lines do, so it consists of them.
  have hbefore : r.before = done.flatMap Part.lines := by
    refine eq_of_flatten_length hne ?_ ?_ hstart
    · exact ⟨_, by rw [h.lines_eq, List.append_assoc]⟩
    · exact ⟨_, by rw [hlines, List.append_assoc]⟩
  have hregion : r.before ++ r.opening :: r.rest = done.flatMap Part.lines ++ e.lines :=
    eq_of_flatten_length hne ⟨_, h.lines_eq.symm⟩ ⟨_, hlines.symm⟩ hstop
  rw [hbefore, List.append_cancel_left_eq, Enclosed.lines, List.cons.injEq] at hregion
  obtain ⟨hfirst, hrest⟩ := hregion
  have hfence : e.delimiter = .fence := by
    have hopens := e.opens?_opening
    rw [← hfirst, opens?_of_isFence hopening] at hopens
    exact (Option.some.inj hopens).symm
  obtain ⟨-, -, hinner⟩ := e.isFence_of_delimiter hfence
  refine ⟨by simp [hrest], by simpa [hrest] using hinner, ?_⟩
  have hdone : Outline done (rawLines r.before.flatten) := by
    rw [(rawLines_parted (h.lines_eq.trans (List.append_assoc ..))).1, hbefore]
    exact Outline.of_isClosed houtline.isClosed_of_append
  rw [lex_eq_gather source relDir hdone, noneOpen_gather_iff]
  exact houtline.isClosed_of_append

theorem Covers.mem_spans (h : r.Covers text.rawLines first last)
    (hopening : isFence r.opening = true) (hclosing : isFence r.closing = true)
    (hrest : r.rest ≠ []) (hinner : ∀ raw ∈ r.rest.dropLast, isFence raw = false)
    (hopen : (lex source relDir r.before.flatten).NoneOpen) :
    r.span ∈ (lex source relDir text).spans := by
  obtain ⟨done, hdone⟩ := exists_outline (rawLines r.before.flatten)
  obtain ⟨later, hlater⟩ := exists_outline r.after
  rw [lex_eq_gather source relDir hdone, noneOpen_gather_iff] at hopen
  rw [(rawLines_parted (h.lines_eq.trans (List.append_assoc ..))).1] at hdone
  let e : Enclosed := ⟨⟨.fence, r.opening, r.rest.dropLast, opens?_of_isFence hopening,
    fun raw hraw => (closes_fence raw).trans (hinner raw hraw)⟩, r.closing,
    (closes_fence _).trans hclosing⟩
  have he : e.lines = r.opening :: r.rest := by
    change r.opening :: (r.rest.dropLast ++ [r.closing]) = _
    rw [closing_eq_getLast hrest, List.dropLast_append_getLast]
  have houtline : Outline (done ++ .enclosed e :: later) text.rawLines := by
    have hall := hdone.append hopen (.cons (p := .enclosed e) trivial hlater)
    rwa [Part.lines, he, ← List.append_assoc, ← h.lines_eq] at hall
  have hfound : r.span ∈
      ((Part.enclosed e).found ⟨source, relDir⟩ (done.flatMap Part.lines)).spans := by
    rw [mem_spans_found, hdone.flatMap_lines, Part.lines, he]
    exact ⟨e, rfl, rfl⟩
  rw [lex_eq_gather source relDir houtline, gather_part, Lexed.spans_append, Lexed.spans_append]
  exact List.mem_append_right _ (List.mem_append_left _ hfound)

theorem Covers.mem_spans_iff (h : r.Covers text.rawLines first last) (hfenced : r.Fenced) :
    Region.spanIn ⟨source, [], first, last⟩ text.rawLines ∈ (lex source relDir text).spans ↔
      r.rest ≠ [] ∧ (∀ raw ∈ r.rest.dropLast, isFence raw = false) ∧
        (lex source relDir r.before.flatten).NoneOpen := by
  rw [h.spanIn_eq]
  obtain ⟨himport, hclosing⟩ := hfenced
  rw [isImportFence, Bool.and_eq_true, isFence_dropLineEnd] at himport
  constructor
  · exact h.of_mem_spans himport.1
  · rintro ⟨hrest, hinner, hopen⟩
    exact h.mem_spans himport.1 hclosing hrest hinner hopen

end Range

/-- A splice fails, and leaves the document as it is, unless its lines are there and start and end
with the fences of an import. Then it replaces these lines and no others. They are a region of the
text just if no other fence stands between them and no region is open before them. -/
theorem spliceImport_guarded (source relDir text : Text) (first last : Int) (content : Text) :
    (∀ f, spliceImport text first last content = .error f →
      ∀ (files : Files.Tree) (imp : Import), files.read imp.source = .ok text →
        imp.first = first → imp.last = last →
        Writer.importInto files imp.source [(imp, content)] =
          .fail files (.splice imp.source f)) ∧
    ((first < 1 ∨ last < first ∨ text.rawLines.length < last) ∧
        spliceImport text first last content =
          .error (.outside first last text.rawLines.length) ∨
      ∃ r : Range, r.Covers text.rawLines first last ∧
        (¬ r.Fenced ∧ spliceImport text first last content = .error (.moved first last) ∨
          r.Fenced ∧ spliceImport text first last content = .ok (r.replaced content) ∧
            (Region.spanIn ⟨source, [], first, last⟩ text.rawLines ∈
                (lex source relDir text).spans ↔
              r.rest ≠ [] ∧ (∀ raw ∈ r.rest.dropLast, isFence raw = false) ∧
                (lex source relDir r.before.flatten).NoneOpen))) := by
  constructor
  · rintro f hsplice files imp hread rfl rfl
    simp only [Writer.importInto, hread, spliceImports, hsplice]
  · by_cases houtside : first < 1 ∨ last < first ∨ text.rawLines.length < last
    · exact .inl ⟨houtside, if_pos houtside⟩
    · obtain ⟨r, hr⟩ : ∃ r : Range, r.Covers text.rawLines first last :=
        Range.exists_covers (by omega) (by omega) (by omega)
      obtain ⟨hreplaced, hmoved⟩ := hr.spliceImport_eq content
      refine .inr ⟨r, hr, ?_⟩
      by_cases hfenced : r.Fenced
      · exact .inr ⟨hfenced, hreplaced hfenced, hr.mem_spans_iff hfenced⟩
      · exact .inl ⟨hfenced, hmoved hfenced⟩

def crowded : Text := "```js lit-type:import lit-file:a.js\n```\nkeep me\n```js\ncode\n```\n"

/-- Lines that are no region but are taken for an import: two fences with a line of prose between
them, a single line, a closing fence that reads like an opening one, and a fence that is quoted in a
custom block. -/
def misreadings : List (Text × Int × Int) :=
  [(crowded, 1, 6),
    ("```js lit-type:import lit-file:a.js\n```\n", 1, 1),
    ("```\n```js lit-type:import lit-file:a.js\n```\n", 2, 3),
    ("<!-- block: k -->\n```js lit-type:import lit-file:a.js\n```\n<!-- end_block -->\n", 2, 3)]

theorem spliceImport_misreadings :
    spliceImport crowded 1 6 "new\n" = .ok "```js\nnew\n```\n" ∧
      ∀ c ∈ misreadings, (spliceImport c.1 c.2.1 c.2.2 "new\n").toOption.isSome = true ∧
        Region.spanIn ⟨"d.md", [], c.2.1, c.2.2⟩ c.1.rawLines ∉ (lex "d.md" [] c.1).spans := by
  decide +kernel

end Patch

end Tangle
