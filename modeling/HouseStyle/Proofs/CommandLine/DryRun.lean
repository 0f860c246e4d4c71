import HouseStyle.CommandLine.Run
import HouseStyle.Proofs.Files.Batch
import Mathlib.Data.List.Forall2

/-!
# What a dry run foretells

From the same tree, a dry run and a batch that writes get to the same files with the same errors, and
what the one would change is what the other one writes.  So the exit code of a dry run tells how the
other run would end.

* `hasFailures_eq`, `hasChanges_eq_true_iff`: two reports of which the one predicts the other.
* `Foretold`, `OrderFree`, `ExitsAlike`: what a dry run says of a batch, of its order, and of a run.
* `dryRun_foretells`: **a dry run predicts what applying the pass does.**
-/

namespace HouseStyle

open CommandLine
open Relation (ReflTransGen)

/-- A result of a dry run, and the result for the same file when it is written. -/
def FileResult.Predicts (dry applied : FileResult) : Prop :=
  dry.path = applied.path ∧ HouseStyle.Predicts dry.outcome applied.outcome

/-! ## Reports -/

section Reports

variable {dry applied : Report}
  (h : List.Forall₂ FileResult.Predicts dry.results applied.results)

include h

/-- **The same files fail, with the same errors.** -/
theorem failures_eq : dry.failures = applied.failures := by
  obtain ⟨ds⟩ := dry
  obtain ⟨as⟩ := applied
  rw [Report.failures, Report.failures]
  dsimp only at h ⊢
  induction h with
  | nil => rfl
  | @cons d a ds as hfirst _ ih =>
    obtain ⟨path, outcome⟩ := d
    obtain ⟨path', outcome'⟩ := a
    obtain ⟨-, hpredicts⟩ := hfirst
    rw [List.filterMap_cons, List.filterMap_cons, ih]
    cases hpredicts <;> rfl

theorem hasFailures_eq : dry.hasFailures = applied.hasFailures := by
  rw [Report.hasFailures, Report.hasFailures, failures_eq h]

/-- **A dry run finds something to change if something would be written.** -/
theorem hasChanges_eq_true_iff : dry.hasChanges = true ↔
    ∃ result ∈ applied.results, result.outcome = .ok .written := by
  obtain ⟨ds⟩ := dry
  obtain ⟨as⟩ := applied
  rw [Report.hasChanges, Report.outcomes]
  dsimp only at h ⊢
  induction h with
  | nil => simp
  | @cons d a ds as hfirst _ ih =>
    obtain ⟨path, outcome⟩ := d
    obtain ⟨path', outcome'⟩ := a
    obtain ⟨-, hpredicts⟩ := hfirst
    cases hpredicts with
    | failure e => simpa [Except.toOption] using ih
    | unchanged => simpa [Except.toOption, Outcome.isChange] using ih
    | changed diff => simp [Except.toOption, Outcome.isChange]

end Reports

theorem exitCode_eq_one_iff {mode : Mode} {report : Report} :
    exitCode mode report = 1 ↔ report.hasFailures = true := by
  rw [exitCode]
  split
  · simp [*]
  · split <;> simp [*]

theorem exitCode_apply_eq_zero_iff {report : Report} :
    exitCode .apply report = 0 ↔ report.hasFailures = false := by
  rw [exitCode]
  cases report.hasFailures <;> simp

theorem exitCode_dryRun_eq_two_iff {report : Report} :
    exitCode .dryRun report = 2 ↔ report.hasFailures = false ∧ report.hasChanges = true := by
  rw [exitCode]
  cases report.hasFailures <;> cases report.hasChanges <;> simp

/-! ## Batches and runs -/

/-- What a dry run of a batch tells about the batch. -/
structure Foretold (tree : Tree) (pass : Pass) (failFast : Bool) (paths : List Path) : Prop where
  /-- The dry run changes nothing. -/
  untouched : (tree.processAll pass .dryRun failFast paths).1 = tree
  /-- Either way, each file up to the first failure where the batch stops is processed. -/
  reported : ∀ mode, (tree.processAll pass mode failFast paths).2.results.map FileResult.path =
    handled tree pass failFast paths
  /-- The files have the same errors, stay the same, or would be changed and are written. -/
  predicted : List.Forall₂ FileResult.Predicts
    (tree.processAll pass .dryRun failFast paths).2.results
    (tree.processAll pass .apply failFast paths).2.results
  /-- Nothing but the files that were written is different. -/
  changed : ∀ location,
    Tree.entry? (tree.processAll pass .apply failFast paths).1 location ≠ tree.entry? location ↔
      ∃ result ∈ (tree.processAll pass .apply failFast paths).2.results,
        result.outcome = .ok .written ∧ tree.LeadsTo result.path location
  /-- What was written is what the pass makes of the text that was there. -/
  written : ∀ result ∈ (tree.processAll pass .apply failFast paths).2.results,
    result.outcome = .ok .written → ∃ source text, tree.read result.path = .ok source ∧
      (Dialect.of result.path).transform pass source = .ok text ∧
      (tree.processAll pass .apply failFast paths).1.read result.path = .ok text

/-- Whether a batch that does not stop at a failure ends the same way in any order. -/
structure OrderFree (tree : Tree) (pass : Pass) (mode : Mode) (paths : List Path) : Prop where
  /-- Whatever was done so far, the batch can be brought to an end. -/
  finishes : ∀ pool, ReflTransGen (Pool.Step pass mode) (Pool.start tree paths) pool →
    ∃ last results, ReflTransGen (Pool.Step pass mode) pool (Pool.finished last results)
  /-- At every end, the report and the files are those of the batch in order. -/
  agrees : ∀ last results,
    ReflTransGen (Pool.Step pass mode) (Pool.start tree paths) (Pool.finished last results) →
      results = (tree.processAll pass mode false paths).2.results ∧
      ∀ location,
        last.entry? location = Tree.entry? (tree.processAll pass mode false paths).1 location

/-- What the exit code of a dry run tells about the run that writes. -/
structure ExitsAlike (tree : Tree) (dry applied : Tree × Output) : Prop where
  untouched : dry.1 = tree
  fails : dry.2.code = 1 ↔ applied.2.code = 1
  changes : dry.2.code = 2 ↔
    applied.2.code = 0 ∧ ∃ location, Tree.entry? applied.1 location ≠ tree.entry? location

section Batch

variable {tree : Tree} {pass : Pass} {paths : List Path} (h : tree.Distinct paths)

include h

theorem predicts_processAll (pass : Pass) (failFast : Bool) : List.Forall₂ FileResult.Predicts
    (tree.processAll pass .dryRun failFast paths).2.results
    (tree.processAll pass .apply failFast paths).2.results := by
  rw [results_processAll h, results_processAll h, List.forall₂_map_left_iff,
    List.forall₂_map_right_iff]
  exact List.forall₂_same.2 fun path _ => ⟨rfl, predicts_process⟩

theorem exists_written_iff {failFast : Bool} :
    (∃ result ∈ (tree.processAll pass .apply failFast paths).2.results,
      result.outcome = .ok .written) ↔
    ∃ location,
      Tree.entry? (tree.processAll pass .apply failFast paths).1 location ≠
        tree.entry? location := by
  constructor
  · rintro ⟨result, hresult, hw⟩
    obtain ⟨source, text, hread, -⟩ := read_of_written h hresult hw
    obtain ⟨location, hl⟩ := Tree.exists_leadsTo_of_read hread
    exact ⟨location, (entry?_ne_iff h location).2 ⟨result, hresult, hw, hl⟩⟩
  · rintro ⟨location, hne⟩
    obtain ⟨result, hresult, hw, -⟩ := (entry?_ne_iff h location).1 hne
    exact ⟨result, hresult, hw⟩

theorem foretold {failFast : Bool} : Foretold tree pass failFast paths where
  untouched := processAll_dryRun_fst
  reported mode := by
    rw [results_processAll h, List.map_map]
    exact List.map_id _
  predicted := predicts_processAll h pass failFast
  changed := entry?_ne_iff h
  written _ hresult hw := read_of_written h hresult hw

theorem orderFree {mode : Mode} : OrderFree tree pass mode paths where
  finishes pool _ := Pool.exists_run pool
  agrees last results hr := by
    have hinorder := run_processAll h pass mode false
    exact ⟨(Pool.results_of_run h hr).trans (Pool.results_of_run h hinorder).symm,
      entry?_eq_of_run h hr hinorder⟩

end Batch

variable {tree : Tree} {options : Options} {settings : Settings} {pass : Pass} {paths : List Path}

/-- A run processes the files that it found, and its exit code is that of the report. -/
theorem runPass_of_discover (options : Options) (pass : Pass) {found : List Path} (h : tree.discover settings.extensions
    (if paths.isEmpty then [settings.root] else paths) = .ok found) (dry : Bool) :
    let batch := tree.processAll pass (if dry then .dryRun else .apply) settings.failFast
      (found.filter fun file => (Dialect.of file).supports pass)
    (runPass tree { options with dryRun := dry } settings pass paths).1 = batch.1 ∧
    (runPass tree { options with dryRun := dry } settings pass paths).2.code =
      exitCode (if dry then .dryRun else .apply) batch.2 := by
  simp only [runPass, h, and_self]

/-- **The exit code of a dry run tells how the run that writes would end.** -/
theorem exitsAlike_runPass
    (h : ∀ found, tree.discover settings.extensions
        (if paths.isEmpty then [settings.root] else paths) = .ok found →
      tree.Distinct (found.filter fun file => (Dialect.of file).supports pass)) :
    ExitsAlike tree (runPass tree { options with dryRun := true } settings pass paths)
      (runPass tree { options with dryRun := false } settings pass paths) := by
  cases hfound : tree.discover settings.extensions
      (if paths.isEmpty then [settings.root] else paths) with
  | error e =>
    have hfailed : ∀ dry, runPass tree { options with dryRun := dry } settings pass paths =
        (tree, failed e.message []) := fun dry => by simp only [runPass, hfound]
    rw [hfailed, hfailed]
    exact ⟨rfl, Iff.rfl, by simp [failed]⟩
  | ok found =>
    have hdistinct := h found hfound
    have hpredicts := predicts_processAll hdistinct pass settings.failFast
    obtain ⟨hdry, hdryCode⟩ := runPass_of_discover options pass hfound true
    obtain ⟨happlied, hcode⟩ := runPass_of_discover options pass hfound false
    constructor
    · exact hdry.trans processAll_dryRun_fst
    · rw [hdryCode, hcode, exitCode_eq_one_iff, exitCode_eq_one_iff]
      exact hasFailures_eq hpredicts ▸ Iff.rfl
    · rw [hdryCode, hcode, happlied]
      simp only [if_true, Bool.false_eq_true, if_false]
      rw [exitCode_dryRun_eq_two_iff, exitCode_apply_eq_zero_iff, hasFailures_eq hpredicts,
        hasChanges_eq_true_iff hpredicts, exists_written_iff hdistinct]

/-- **A dry run predicts what applying the pass does:** in a batch of different files, stopped at the
first failure or not and in any order, and in a run on the command line with its exit code. -/
theorem dryRun_foretells :
    (∀ (tree : Tree) (pass : Pass) (paths : List Path), tree.Distinct paths →
      (∀ failFast, Foretold tree pass failFast paths) ∧
      ∀ mode, OrderFree tree pass mode paths) ∧
    ∀ (tree : Tree) (options : Options) (settings : Settings) (pass : Pass) (paths : List Path),
      (∀ found, tree.discover settings.extensions
          (if paths.isEmpty then [settings.root] else paths) = .ok found →
        tree.Distinct (found.filter fun file => (Dialect.of file).supports pass)) →
      ExitsAlike tree (runPass tree { options with dryRun := true } settings pass paths)
        (runPass tree { options with dryRun := false } settings pass paths) :=
  ⟨fun _ _ _ h => ⟨fun _ => foretold h, fun _ => orderFree h⟩,
    fun _ _ _ _ _ h => exitsAlike_runPass h⟩

/-- A file without a line feed at its end, and one with it. -/
def twoFiles : Tree :=
  ⟨[(["A.java"], .file "class A \x7b\n\x7d".toUTF8), (["B.java"], .file "class B \x7b\n\x7d\n".toUTF8)]⟩

theorem distinct_twoFiles : twoFiles.Distinct [⟨"A.java"⟩, ⟨"B.java"⟩] := by
  refine List.pairwise_pair.2 ?_
  rintro location ⟨content, h⟩ ⟨content', h'⟩
  have hA : twoFiles.follow ⟨"A.java"⟩ = .ok (["A.java"], .file "class A \x7b\n\x7d".toUTF8) := rfl
  have hB : twoFiles.follow ⟨"B.java"⟩ = .ok (["B.java"], .file "class B \x7b\n\x7d\n".toUTF8) := rfl
  rw [hA] at h
  rw [hB] at h'
  have hlocation := (Prod.mk.inj (Except.ok.inj h)).1.trans (Prod.mk.inj (Except.ok.inj h')).1.symm
  exact absurd hlocation (by decide)

/-- Only the first of the two files is written, and a dry run on it says so. -/
theorem dryRun_foretells_twoFiles :
    let options : Options := ⟨true, false, none, .warn⟩
    let settings : Settings :=
      ⟨⟨CategoryOrder.default, true⟩, .isPublic, ⟨"src/main/java"⟩, ["java", "py"], false⟩
    Foretold twoFiles .cases true [⟨"A.java"⟩, ⟨"B.java"⟩] ∧
      OrderFree twoFiles .cases .apply [⟨"A.java"⟩, ⟨"B.java"⟩] ∧
      (twoFiles.processAll .cases .apply true [⟨"A.java"⟩, ⟨"B.java"⟩]).2.results.map
        FileResult.outcome = [.ok .written, .ok .unchanged] ∧
      ExitsAlike twoFiles (runPass twoFiles options settings .cases [⟨"A.java"⟩])
        (runPass twoFiles { options with dryRun := false } settings .cases [⟨"A.java"⟩]) ∧
      (runPass twoFiles options settings .cases [⟨"A.java"⟩]).2.code = 2 := by
  intro options settings
  have hbatch := dryRun_foretells.1 twoFiles .cases _ distinct_twoFiles
  refine ⟨hbatch.1 true, hbatch.2 .apply, by decide +kernel,
    dryRun_foretells.2 twoFiles options settings .cases [⟨"A.java"⟩] ?_, by decide +kernel⟩
  intro found h
  have hfound : twoFiles.discover ["java", "py"] [⟨"A.java"⟩] = .ok [⟨"A.java"⟩] := by
    decide +kernel
  obtain rfl := Except.ok.inj (hfound.symm.trans h)
  exact (List.pairwise_singleton _ _).sublist List.filter_sublist

end HouseStyle
