import Tangle.Proofs.Config.Fault
import Tangle.Proofs.Run.Plan

namespace Tangle

structure Overrides.InForce (ov : Overrides) (env : Environment) (o : Options) : Prop where
  inputPath : ∀ p, ov.inputPath = some p → o.inputPath = env.expandHome p
  outputPath : ∀ p, ov.outputPath = some p → o.outputPath = Options.outputRoot env p
  outputFile : ∀ target, ov.outputFile = some target → o.outputFile = target
  documentPattern : ∀ pattern, ov.documentPattern = some pattern → o.documentPattern = pattern
  outputSource : ∀ b, ov.outputSource = some b → o.outputSource = b
  absoluteSources : ∀ b, ov.absoluteSources = some b → o.absoluteSources = b
  unresolved : ∀ policy, ov.unresolved = some policy → o.unresolved = policy
  maxPasses : ∀ n, ov.maxPasses = some n → 0 < n → o.maxPasses = n
  dryRun : ∀ b, ov.dryRun = some b → o.dryRun = b

namespace Options

variable {env : Environment} {ov : Overrides} {o o' : Options}

theorem inForce_override (env : Environment) (o : Options) (ov : Overrides) :
    ov.InForce env (o.override env ov) where
  inputPath p h := by simp [override, h]
  outputPath p h := by simp [override, h]
  outputFile target h := by simp [override, h]
  documentPattern pattern h := by simp [override, h]
  outputSource b h := by simp [override, h]
  absoluteSources b h := by simp [override, h]
  unresolved policy h := by simp [override, h]
  maxPasses n h hpos := by
    simp only [override, h, passLimit, hpos, if_true]
    omega
  dryRun b h := by simp [override, h]

theorem passLimit_passLimit (old : Nat) (given : Option Int) :
    passLimit (passLimit old given) given = passLimit old given := by
  cases given with
  | none => rfl
  | some n =>
    simp only [passLimit]
    split <;> rfl

theorem override_override (env : Environment) (o : Options) (ov : Overrides) :
    (o.override env ov).override env ov = o.override env ov := by
  have hgetD : ∀ {α : Type} (given : Option α) (old : α),
      given.getD (given.getD old) = given.getD old := by
    intro α given old
    cases given <;> rfl
  simp only [override, hgetD, passLimit_passLimit]

/-- Options that differ only where the overrides decide. -/
def Alike (env : Environment) (ov : Overrides) (o o' : Options) : Prop :=
  o.override env ov = o'.override env ov

theorem alike_override (env : Environment) (o : Options) (ov : Overrides) :
    Alike env ov (o.override env ov) o :=
  override_override env o ov

theorem Alike.map (f g : Options → Options)
    (hf : ∀ o, (f o).override env ov = g (o.override env ov)) (h : Alike env ov o o') :
    Alike env ov (f o) (f o') := by
  rw [Alike, hf, hf, h]

end Options

namespace Config

open Options

variable {env : Environment} {ov : Overrides} {o o' : Options}

theorem applyLine_alike (h : Alike env ov o o') (line : Text) :
    (∃ cause, applyLine o line = .error cause ∧ applyLine o' line = .error cause) ∨
      ∃ a a', applyLine o line = .ok a ∧ applyLine o' line = .ok a' ∧ Alike env ov a a' := by
  unfold applyLine
  cases Directive.ofLine? line with
  | none => exact .inr ⟨o, o', rfl, rfl, h⟩
  | some d =>
    dsimp only
    split_ifs
    · exact .inr ⟨_, _, rfl, rfl, h.map ({ · with outputSource := d.value = "true" })
        ({ · with outputSource := ov.outputSource.getD (d.value = "true") }) fun _ => rfl⟩
    · exact .inr ⟨_, _, rfl, rfl, h.map ({ · with absoluteSources := d.value = "true" })
        ({ · with absoluteSources := ov.absoluteSources.getD (d.value = "true") }) fun _ => rfl⟩
    · cases Policy.read d.value with
      | error u => exact .inl ⟨_, rfl, rfl⟩
      | ok policy =>
        exact .inr ⟨_, _, rfl, rfl, h.map ({ · with unresolved := policy })
          ({ · with unresolved := ov.unresolved.getD policy }) fun _ => rfl⟩
    · cases Decimal.toInt? d.value with
      | none => exact .inl ⟨_, rfl, rfl⟩
      | some n =>
        dsimp only
        split_ifs
        · exact .inl ⟨_, rfl, rfl⟩
        · exact .inr ⟨_, _, rfl, rfl, h.map ({ · with maxPasses := n.toNat })
            ({ · with maxPasses := passLimit n.toNat ov.maxPasses }) fun _ => rfl⟩
    · exact .inr ⟨o, o', rfl, rfl, h⟩

theorem applyLines_alike (h : Alike env ov o o') (source : Text) (n : Int) (lines : List Text) :
    Alike env ov (applyLines source o n lines).1 (applyLines source o' n lines).1 ∧
      (applyLines source o n lines).2 = (applyLines source o' n lines).2 := by
  induction lines generalizing o o' n with
  | nil => exact ⟨h, rfl⟩
  | cons line lines ih =>
    unfold applyLines
    rcases applyLine_alike h line with ⟨cause, hline, hline'⟩ | ⟨a, a', hline, hline', ha⟩
    · obtain ⟨hlast, hfaults⟩ := ih h (n + 1)
      rw [hline, hline']
      exact ⟨hlast, congrArg (⟨source, n, cause⟩ :: ·) hfaults⟩
    · rw [hline, hline']
      exact ih ha (n + 1)

theorem applyBlock_alike (h : Alike env ov o o') (b : Config) :
    Alike env ov (applyBlock o b).1 (applyBlock o' b).1 ∧
      (applyBlock o b).2 = (applyBlock o' b).2 := by
  unfold applyBlock
  split_ifs
  · exact ⟨h.map (fun o => { o with included := o.included ++ listedPaths b })
      (fun o => { o with included := o.included ++ listedPaths b }) fun _ => rfl, rfl⟩
  · exact ⟨h.map (fun o => { o with ignored := o.ignored ++ listedPaths b })
      (fun o => { o with ignored := o.ignored ++ listedPaths b }) fun _ => rfl, rfl⟩
  · exact applyLines_alike h ..
  · exact ⟨h, rfl⟩

theorem resolve_alike (h : Alike env ov o o') (bs : List Config) :
    Alike env ov (resolve o bs).1 (resolve o' bs).1 ∧ (resolve o bs).2 = (resolve o' bs).2 := by
  induction bs generalizing o o' with
  | nil => exact ⟨h, rfl⟩
  | cons b bs ih =>
    obtain ⟨hblock, hfaults⟩ := applyBlock_alike h b
    obtain ⟨hrest, hmore⟩ := ih hblock
    exact ⟨hrest, congrArg₂ (· ++ ·) hfaults hmore⟩

def settle (env : Environment) (o : Options) (ov : Overrides) (bs : List Config) :
    Options × List Fault :=
  ((resolve (o.override env ov) bs).1.override env ov, (resolve (o.override env ov) bs).2)

/-- The overrides have the last word in a run, and the blocks one after the other all others. -/
theorem overrides_decide (env : Environment) (o : Options) (ov : Overrides)
    (bs more : List Config) :
    settle env o ov bs = ((resolve o bs).1.override env ov, (resolve o bs).2) ∧
      ov.InForce env (settle env o ov bs).1 ∧
      resolve o (bs ++ more) = ((resolve (resolve o bs).1 more).1,
        (resolve o bs).2 ++ (resolve (resolve o bs).1 more).2) ∧
      ∀ s : Store, ((Run.planOf env o ov s).options, Run.faultsOf env o ov s) =
        settle env o ov s.configs := by
  obtain ⟨halike, hfaults⟩ := resolve_alike (alike_override env o ov) bs
  refine ⟨?_, inForce_override env _ ov, resolve_append o bs more, fun s => rfl⟩
  exact Prod.ext halike hfaults

example :
    let settled := settle ⟨"/", none, []⟩ .defaults
      { outputSource := some true, maxPasses := some 0 }
      [⟨⟨"/d.md", "output_source=false\nunresolved=error\nmax_passes=lots\nmax_passes=3\n", 1, 6⟩,
        "general"⟩]
    (settled.1.outputSource, settled.1.unresolved, settled.1.maxPasses, settled.2) =
      (true, .error, 3, [⟨"/d.md", 4, .maxPasses "lots"⟩]) := by
  decide +kernel

end Config

end Tangle
