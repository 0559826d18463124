import Tangle.Config.Resolve
import Tangle.Proofs.Block.Directive
import Tangle.Proofs.Document.Partition
import Tangle.Proofs.Text.FileLines

namespace Tangle

open Text

namespace Policy

theorem read_eq_error_iff {word : Text} {u : Unknown} :
    read word = .error u ↔ u = ⟨word⟩ ∧ word.trim.toLower ≠ "keep" ∧
      word.trim.toLower ≠ "warn" ∧ word.trim.toLower ≠ "error" := by
  unfold read ofWord
  split_ifs with hkeep hwarn herror
  · simp [hkeep]
  · simp [hwarn]
  · simp [herror]
  · simp [hkeep, hwarn, herror, eq_comm]

end Policy

namespace Config

variable {line source : Text} {cause : Cause} {o o' : Options} {n m : Int} {lines : List Text}

inductive Offends (line : Text) : Cause → Prop
  | policy {d : Directive} (hline : d.StandsOn line) (hkey : d.key = "unresolved")
    (hkeep : d.value.toLower ≠ "keep") (hwarn : d.value.toLower ≠ "warn")
    (herror : d.value.toLower ≠ "error") : Offends line (.policy ⟨d.value⟩)
  | maxPasses {d : Directive} (hline : d.StandsOn line) (hkey : d.key = "max_passes")
    (hvalue : ¬ Decimal.IsPositive d.value) : Offends line (.maxPasses d.value)

theorem Offends.of_trim_eq {line' : Text} (h : Offends line cause) (htrim : line.trim = line'.trim) :
    Offends line' cause := by
  have hstands : ∀ d : Directive, d.StandsOn line → d.StandsOn line' := by
    intro d
    rw [← Directive.ofLine?_eq_some_iff, ← Directive.ofLine?_eq_some_iff, Directive.ofLine?, htrim]
    exact id
  cases h with
  | policy hline hkey hkeep hwarn herror =>
    exact .policy (hstands _ hline) hkey hkeep hwarn herror
  | maxPasses hline hkey hvalue => exact .maxPasses (hstands _ hline) hkey hvalue

def isBad (line : Text) : Bool :=
  match Directive.ofLine? line with
  | none => false
  | some d =>
    d.key == "unresolved" && !(Policy.read d.value).isOk ||
      d.key == "max_passes" && !(Decimal.toInt? d.value).any (1 ≤ ·)

def badLines (b : Config) : List Text :=
  if b.name = "general" then (b.body.split lf).filter isBad else []

theorem isOk_applyLine (o : Options) (line : Text) : (applyLine o line).isOk = !isBad line := by
  unfold applyLine isBad
  cases Directive.ofLine? line with
  | none => rfl
  | some d =>
    have hkeys : ofString "output_source" ≠ "unresolved" ∧ ofString "output_source" ≠ "max_passes" ∧
        ofString "output_source_absolute_paths" ≠ "unresolved" ∧
        ofString "output_source_absolute_paths" ≠ "max_passes" ∧
        ofString "unresolved" ≠ "max_passes" := by decide
    dsimp only
    split_ifs with hsource habsolute hpolicy hpasses
    · simp [hsource, hkeys, Except.isOk, Except.toBool]
    · simp [habsolute, hkeys, Except.isOk, Except.toBool]
    · cases Policy.read d.value <;> simp [hpolicy, hkeys, Except.isOk, Except.toBool]
    · cases Decimal.toInt? d.value with
      | none => simp [hpasses, Except.isOk, Except.toBool]
      | some n =>
        dsimp only
        split_ifs with h <;> simp [hpasses, hkeys.2.2.2.2.symm, h, Except.isOk, Except.toBool]
        omega
    · simp [hpolicy, hpasses, Except.isOk, Except.toBool]

theorem not_offends_nil : ¬ Offends [] cause := by
  rintro (⟨⟨key, value, hnil, -⟩, -⟩ | ⟨⟨key, value, hnil, -⟩, -⟩) <;> simp at hnil

theorem applyLine_eq_error_iff : applyLine o line = .error cause ↔ Offends line cause := by
  have hkeys : ofString "unresolved" ≠ "output_source" ∧
      ofString "unresolved" ≠ "output_source_absolute_paths" ∧
      ofString "max_passes" ≠ "output_source" ∧
      ofString "max_passes" ≠ "output_source_absolute_paths" ∧
      ofString "max_passes" ≠ "unresolved" := by decide
  obtain ⟨hsource, habsolute, hsource', habsolute', hpolicy⟩ := hkeys
  constructor
  · intro h
    unfold applyLine at h
    split at h
    next => cases h
    next d hd =>
      have hline := Directive.ofLine?_eq_some_iff.1 hd
      split_ifs at h with _ _ hkey hkey
      · split at h
        next => cases h
        next u hu =>
          obtain ⟨rfl, hkeep, hwarn, herror⟩ := Policy.read_eq_error_iff.1 hu
          rw [hline.trim_value] at hkeep hwarn herror
          obtain rfl := Except.error.inj h
          exact .policy hline hkey hkeep hwarn herror
      · have hvalue : ¬ Decimal.IsPositive d.value := by
          rw [Decimal.isPositive_iff]
          rintro ⟨n, hn, hpos⟩
          simp only [hn] at h
          rw [if_neg (by omega)] at h
          cases h
        split at h
        next n hn =>
          split_ifs at h
          obtain rfl := Except.error.inj h
          exact .maxPasses hline hkey hvalue
        next =>
          obtain rfl := Except.error.inj h
          exact .maxPasses hline hkey hvalue
  · intro h
    cases h with
    | @policy d hline hkey hkeep hwarn herror =>
      have hread : Policy.read d.value = .error ⟨d.value⟩ := by
        rw [Policy.read_eq_error_iff, hline.trim_value]
        exact ⟨rfl, hkeep, hwarn, herror⟩
      rw [applyLine, Directive.ofLine?_eq_some_iff.2 hline]
      simp only [hkey, hsource, habsolute, hread, if_true, if_false]
    | @maxPasses d hline hkey hvalue =>
      rw [applyLine, Directive.ofLine?_eq_some_iff.2 hline]
      simp only [hkey, hsource', habsolute', hpolicy, if_true, if_false]
      split
      next n hn =>
        refine if_pos ?_
        by_contra hpos
        exact hvalue (Decimal.isPositive_iff.2 ⟨n, hn, by omega⟩)
      next => rfl

theorem isBad_iff : isBad line = true ↔ ∃ cause, Offends line cause := by
  have hok := isOk_applyLine .defaults line
  cases happly : applyLine .defaults line with
  | ok o =>
    rw [happly] at hok
    refine iff_of_false (by simpa [Except.isOk, Except.toBool] using hok) ?_
    rintro ⟨cause, hoffends⟩
    rw [← applyLine_eq_error_iff (o := .defaults), happly] at hoffends
    cases hoffends
  | error cause =>
    rw [happly] at hok
    refine iff_of_true (by simpa [Except.isOk, Except.toBool] using hok) ?_
    exact ⟨cause, applyLine_eq_error_iff.1 happly⟩

instance (line : Text) : Decidable (∃ cause, Offends line cause) := decidable_of_iff _ isBad_iff

section Lines

theorem mem_faults_applyLines {f : Fault} :
    f ∈ (applyLines source o n lines).2 ↔ f.source = source ∧
      ∃ (i : Nat) (line : Text), lines[i]? = some line ∧ f.line = n + i ∧ Offends line f.cause := by
  induction lines generalizing o n with
  | nil => simp [applyLines]
  | cons line lines ih =>
    -- The faults of the lines after the first, counted from the first.
    have hrest : ∀ o', f ∈ (applyLines source o' (n + 1) lines).2 ↔ f.source = source ∧
        ∃ (i : Nat) (line' : Text), (line :: lines)[i + 1]? = some line' ∧
          f.line = n + ↑(i + 1) ∧ Offends line' f.cause := by
      intro o'
      rw [ih]
      simp only [List.getElem?_cons_succ, Nat.cast_add, Nat.cast_one, add_assoc,
        add_comm (1 : Int)]
    unfold applyLines
    cases happly : applyLine o line with
    | ok o' =>
      rw [hrest]
      refine and_congr_right fun _ => ⟨?_, ?_⟩
      · rintro ⟨i, hi⟩
        exact ⟨i + 1, hi⟩
      · rintro ⟨_ | i, line', hline, hnumber, hoffends⟩
        · obtain rfl := Option.some.inj hline
          rw [← applyLine_eq_error_iff (o := o), happly] at hoffends
          cases hoffends
        · exact ⟨i, line', hline, hnumber, hoffends⟩
    | error cause =>
      have hline := applyLine_eq_error_iff.1 happly
      rw [List.mem_cons, hrest]
      constructor
      · rintro (rfl | ⟨hsource, i, hi⟩)
        · exact ⟨rfl, 0, line, rfl, by simp, hline⟩
        · exact ⟨hsource, i + 1, hi⟩
      · rintro ⟨hsource, _ | i, line', hline', hnumber, hoffends⟩
        · obtain rfl := Option.some.inj hline'
          rw [← applyLine_eq_error_iff (o := o), happly] at hoffends
          have hcause := Except.error.inj hoffends
          obtain ⟨source', number, cause'⟩ := f
          obtain rfl : source' = source := hsource
          obtain rfl : number = n := by simpa using hnumber
          obtain rfl : cause = cause' := hcause
          exact .inl rfl
        · exact .inr ⟨hsource, i, line', hline', hnumber, hoffends⟩

theorem pairwise_faults_applyLines (source : Text) (o : Options) (n : Int) (lines : List Text) :
    (applyLines source o n lines).2.Pairwise (·.line < ·.line) := by
  induction lines generalizing o n with
  | nil => exact .nil
  | cons line lines ih =>
    unfold applyLines
    cases applyLine o line with
    | ok o' => exact ih o' (n + 1)
    | error cause =>
      refine List.pairwise_cons.2 ⟨fun f hf => ?_, ih o (n + 1)⟩
      obtain ⟨-, i, -, -, hnumber, -⟩ := mem_faults_applyLines.1 hf
      simp only [hnumber]
      omega

theorem faults_applyLines (source : Text) (o o' : Options) (n : Int) (lines : List Text) :
    (applyLines source o n lines).2 = (applyLines source o' n lines).2 := by
  induction lines generalizing o o' n with
  | nil => rfl
  | cons line lines ih =>
    unfold applyLines
    cases happly : applyLine o line with
    | ok a =>
      cases happly' : applyLine o' line with
      | ok a' => exact ih a a' (n + 1)
      | error cause =>
        rw [applyLine_eq_error_iff, ← applyLine_eq_error_iff (o := o), happly] at happly'
        cases happly'
    | error cause =>
      rw [applyLine_eq_error_iff.2 (applyLine_eq_error_iff.1 happly)]
      exact congrArg (⟨source, n, cause⟩ :: ·) (ih o o' (n + 1))

theorem applyLines_filter (source : Text) (o : Options) (n m : Int) (lines : List Text) :
    applyLines source o m (lines.filter fun line => ¬ ∃ cause, Offends line cause) =
      ((applyLines source o n lines).1, []) := by
  induction lines generalizing o n m with
  | nil => rfl
  | cons line lines ih =>
    cases happly : applyLine o line with
    | ok o' =>
      have hline : ¬ ∃ cause, Offends line cause := by
        rintro ⟨cause, hoffends⟩
        rw [← applyLine_eq_error_iff (o := o), happly] at hoffends
        cases hoffends
      rw [List.filter_cons_of_pos (by simpa using hline), applyLines, applyLines, happly]
      exact ih o' (n + 1) (m + 1)
    | error cause =>
      have hline : ∃ cause, Offends line cause := ⟨cause, applyLine_eq_error_iff.1 happly⟩
      rw [List.filter_cons_of_neg (by simpa using hline), applyLines, happly]
      exact ih o (n + 1) m

theorem length_applyLines (source : Text) (o : Options) (n : Int) (lines : List Text) :
    (applyLines source o n lines).2.length = (lines.filter isBad).length := by
  induction lines generalizing o n with
  | nil => rfl
  | cons line lines ih =>
    have hbad := isOk_applyLine o line
    unfold applyLines
    cases happly : applyLine o line with
    | ok o' =>
      rw [happly] at hbad
      rw [List.filter_cons_of_neg (by simpa [Except.isOk, Except.toBool] using hbad)]
      exact ih o' (n + 1)
    | error cause =>
      rw [happly] at hbad
      rw [List.filter_cons_of_pos (by simpa [Except.isOk, Except.toBool] using hbad)]
      exact congrArg (· + 1) (ih o (n + 1))

end Lines

section Blocks

variable {b : Config}

theorem applyBlock_of_general (h : b.name = "general") (o : Options) :
    applyBlock o b = applyLines b.source o (b.first + 1) (b.body.split lf) := by
  have hinclude : ofString "general" ≠ "include" := by decide
  have hignore : ofString "general" ≠ "ignore" := by decide
  simp only [applyBlock, h, hinclude, hignore, if_true, if_false]

theorem faults_applyBlock (o o' : Options) (b : Config) :
    (applyBlock o b).2 = (applyBlock o' b).2 := by
  unfold applyBlock
  split_ifs
  · rfl
  · rfl
  · exact faults_applyLines ..
  · rfl

theorem faults_resolve (o o' : Options) (bs : List Config) :
    (resolve o bs).2 = (resolve o' bs).2 := by
  induction bs generalizing o o' with
  | nil => rfl
  | cons b bs ih => exact congrArg₂ (· ++ ·) (faults_applyBlock o o' b) (ih _ _)

theorem resolve_append (o : Options) (bs more : List Config) :
    resolve o (bs ++ more) = ((resolve (resolve o bs).1 more).1,
      (resolve o bs).2 ++ (resolve (resolve o bs).1 more).2) := by
  induction bs generalizing o with
  | nil => rfl
  | cons b bs ih => simp only [List.cons_append, resolve, ih, List.append_assoc]

def withoutOffences (b : Config) : Config :=
  { b with body := join [lf] ((b.body.split lf).filter fun line => ¬ ∃ cause, Offends line cause) }

theorem applyBlock_withoutOffences (h : b.name = "general") (o : Options) :
    applyBlock o b.withoutOffences = ((applyBlock o b).1, []) := by
  have hlines : ∀ line ∈ (b.body.split lf).filter fun line => ¬ ∃ cause, Offends line cause,
      lf ∉ line := fun line hline => notMem_of_mem_split (List.mem_of_mem_filter hline)
  have happly := applyLines_filter b.source o (b.first + 1) (b.first + 1) (b.body.split lf)
  rw [applyBlock_of_general h, applyBlock_of_general (b := b.withoutOffences) h, ← happly]
  dsimp only [withoutOffences]
  generalize (b.body.split lf).filter (fun line => ¬ ∃ cause, Offends line cause) = kept at hlines
  cases kept with
  | nil => rfl
  | cons line kept => rw [split_join (List.cons_ne_nil line kept) hlines]

theorem length_resolve (o : Options) (bs : List Config) :
    (resolve o bs).2.length = (bs.flatMap badLines).length := by
  induction bs generalizing o with
  | nil => rfl
  | cons b bs ih =>
    have hblock : (applyBlock o b).2.length = (badLines b).length := by
      unfold applyBlock badLines
      by_cases hgeneral : b.name = "general"
      · have hinclude : ofString "general" ≠ "include" := by decide
        have hignore : ofString "general" ≠ "ignore" := by decide
        simp only [hgeneral, hinclude, hignore, if_true, if_false]
        exact length_applyLines ..
      · rw [if_neg hgeneral, if_neg hgeneral]
        split_ifs <;> rfl
    rw [List.flatMap_cons, List.length_append, ← hblock, ← ih (applyBlock o b).1,
      ← List.length_append]
    rfl

end Blocks

section Document

variable {b : Config} {relDir text : Text}

theorem exists_inner (hb : .config b ∈ (lex source relDir text).blocks) :
    b.source = source ∧ ∃ earlier inner later : List Text, text.rawLines = earlier ++ inner ++ later ∧
      b.body = unlines (inner.map dropLineEnd) ∧ b.first = earlier.length ∧
      b.last = b.first + inner.length + 1 := by
  obtain ⟨earlier, p, later, hlines, hfound, -⟩ := Lexer.exists_part_of_mem_blocks hb
  rcases Lexer.mem_blocks_found hfound with ⟨_, _, _, _, _, hpull⟩ | ⟨r, rfl, hregion, -, -⟩
  · cases hpull
  · have hplace : b.toRegion = r.place ⟨source, relDir⟩ earlier := hregion
    refine ⟨congrArg Region.source hplace, earlier ++ [r.opening], r.inner, r.closing :: later,
      ?_, congrArg Region.body hplace, ?_, ?_⟩
    · rw [hlines]
      simp [Lexer.Part.lines, Lexer.Enclosed.lines]
    · rw [hplace]
      simp [Lexer.Enclosed.place]
    · rw [hplace]
      simp only [Lexer.Enclosed.place]
      omega

theorem offends_split_body {earlier inner later : List Text}
    (hlines : text.rawLines = earlier ++ inner ++ later) (i : Nat) :
    (∃ line, (split lf (unlines (inner.map dropLineEnd)))[i]? = some line ∧ Offends line cause) ↔
      i < inner.length ∧
        ∃ line, (text.split lf)[earlier.length + i]? = some line ∧ Offends line cause := by
  have hlf : ∀ line ∈ inner.map dropLineEnd, lf ∉ line := by
    intro line hline
    obtain ⟨raw, hraw, rfl⟩ := List.mem_map.1 hline
    exact lf_notMem_dropLineEnd (t := text) (by simp [hlines, hraw])
  rw [split_unlines hlf]
  by_cases hi : i < inner.length
  · have hbody : (inner.map dropLineEnd ++ [[]])[i]? = some inner[i].dropLineEnd := by
      rw [List.getElem?_append_left (by simpa using hi)]
      simp [hi]
    have hdocument : (text.split lf)[earlier.length + i]? = some inner[i].dropFinalLf := by
      have hprefix := map_dropFinalLf_rawLines text
      rw [hlines, List.append_assoc, List.map_append, List.map_append] at hprefix
      obtain ⟨more, hmore⟩ := hprefix
      rw [← hmore, List.append_assoc, List.getElem?_append_right (by simp), List.append_assoc,
        List.getElem?_append_left (by simpa using hi)]
      simp [hi]
    have htrim : inner[i].dropLineEnd.trim = inner[i].dropFinalLf.trim := by
      rw [trim_dropLineEnd, trim_dropFinalLf]
    simp only [hbody, hdocument, hi, Option.some.injEq, exists_eq_left', true_and]
    exact ⟨fun h => h.of_trim_eq htrim, fun h => h.of_trim_eq htrim.symm⟩
  · refine iff_of_false ?_ fun h => hi h.1
    rintro ⟨line, hline, hoffends⟩
    rw [List.getElem?_append_right (by simpa using hi)] at hline
    obtain rfl := List.mem_singleton.1 (List.mem_of_getElem? hline)
    exact not_offends_nil hoffends

/-- The faults of a block stand at the lines of its document that have them, each once and in
order, and the options are as if these lines were not there. -/
theorem resolve_isolates (hb : .config b ∈ (lex source relDir text).blocks)
    (hname : b.name = "general") (o : Options) (before after : List Config) :
    ∃ faults : List Fault,
      (resolve o (before ++ b :: after)).2 =
        (resolve o before).2 ++ faults ++ (resolve o after).2 ∧
      faults.Pairwise (·.line < ·.line) ∧
      (∀ f, f ∈ faults ↔ f.source = source ∧ b.first < f.line ∧ f.line < b.last ∧
        ∃ line, (text.split lf)[f.line.toNat - 1]? = some line ∧ Offends line f.cause) ∧
      (∀ f ∈ faults, f.message =
        source ++ ":" ++ Decimal.ofInt f.line ++ ": " ++ f.cause.message) ∧
      resolve o (before ++ b.withoutOffences :: after) =
        ((resolve o (before ++ b :: after)).1, (resolve o before).2 ++ (resolve o after).2) := by
  obtain ⟨hsource, earlier, inner, later, hlines, hbody, hfirst, hlast⟩ := exists_inner hb
  have hmem : ∀ f : Fault, f ∈ (applyBlock o b).2 ↔
      f.source = source ∧ b.first < f.line ∧ f.line < b.last ∧
        ∃ line, (text.split lf)[f.line.toNat - 1]? = some line ∧ Offends line f.cause := by
    intro f
    rw [applyBlock_of_general hname, mem_faults_applyLines, hsource, hbody]
    refine and_congr_right fun _ => ⟨?_, ?_⟩
    · rintro ⟨i, line, hline, hnumber, hoffends⟩
      obtain ⟨hi, hdocument⟩ := (offends_split_body hlines i).1 ⟨line, hline, hoffends⟩
      have hindex : f.line.toNat - 1 = earlier.length + i := by omega
      exact ⟨by omega, by omega, hindex ▸ hdocument⟩
    · rintro ⟨hlt, hgt, hdocument⟩
      have hindex : f.line.toNat - 1 = earlier.length + (f.line.toNat - 1 - earlier.length) := by
        omega
      rw [hindex] at hdocument
      obtain ⟨line, hline, hoffends⟩ := (offends_split_body hlines _).2 ⟨by omega, hdocument⟩
      exact ⟨_, line, hline, by omega, hoffends⟩
  refine ⟨(applyBlock o b).2, ?_, ?_, hmem, fun f hf => ?_, ?_⟩
  · simp only [resolve_append, resolve]
    rw [faults_applyBlock _ o, faults_resolve _ o after, List.append_assoc]
  · rw [applyBlock_of_general hname]
    exact pairwise_faults_applyLines ..
  · rw [Fault.message, ((hmem f).1 hf).1]
  · simp only [resolve_append, resolve, applyBlock_withoutOffences hname, List.nil_append]
    rw [faults_resolve _ o after]

def troubled : Text :=
  "Settings\n```ini lit-type:config lit-name:general\n" ++
    "max_passes=0\r\n unresolved = Loud\nmax_passes=3\n```\n"

def troubledBlock : Config :=
  ⟨⟨"d.md", "max_passes=0\n unresolved = Loud\nmax_passes=3\n", 2, 6⟩, "general"⟩

theorem resolve_isolates_troubled :
    .config troubledBlock ∈ (lex "d.md" [] troubled).blocks ∧ troubledBlock.name = "general" ∧
      ⟨"d.md", 4, .policy ⟨"Loud"⟩⟩ ∈ (resolve .defaults [troubledBlock]).2 ∧
      (resolve .defaults [troubledBlock.withoutOffences]).1 =
        (resolve .defaults [troubledBlock]).1 := by
  have hb : .config troubledBlock ∈ (lex "d.md" [] troubled).blocks := by decide +kernel
  obtain ⟨faults, hfaults, -, hmem, -, hrest⟩ := resolve_isolates hb rfl .defaults [] []
  have hline : (troubled.split lf)[3]? = some (ofString " unresolved = Loud") := by
    decide +kernel
  have hstands : Directive.StandsOn ⟨"unresolved", "Loud"⟩ " unresolved = Loud" :=
    ⟨" unresolved ", " Loud", by decide +kernel⟩
  have hpolicy : Offends " unresolved = Loud" (.policy ⟨"Loud"⟩) :=
    .policy hstands rfl (by decide +kernel) (by decide +kernel) (by decide +kernel)
  have hfault : ⟨"d.md", 4, .policy ⟨"Loud"⟩⟩ ∈ faults :=
    (hmem _).2 ⟨rfl, by decide, by decide, _, hline, hpolicy⟩
  rw [List.nil_append, List.nil_append] at hrest
  rw [List.nil_append] at hfaults
  refine ⟨hb, rfl, ?_, by rw [hrest]⟩
  rw [hfaults]
  exact List.mem_append_left _ (List.mem_append_right _ hfault)

end Document

end Config

end Tangle
