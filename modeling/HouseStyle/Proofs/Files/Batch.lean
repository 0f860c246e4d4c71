import HouseStyle.Proofs.Files.Pool

/-!
# Dry runs and batches that write

A dry run goes through the files as a batch that writes does, and tells of each file what the other
one would do to it.  Both end at the first failure if they are to stop there.

* `Predicts`: an outcome of a dry run, and what becomes of the file otherwise.
* `handled`, `processEach_eq`: the files that a batch gets to, and a batch as its results on them.
* `entry?_ne_iff`: **a batch changes exactly the files that it reports as written.**
-/

namespace HouseStyle

open Relation (ReflTransGen)

/-- What a dry run says of a file, and what becomes of the file when it is written. -/
inductive Predicts : Except ProcessError Outcome → Except ProcessError Outcome → Prop
  | failure (e : ProcessError) : Predicts (.error e) (.error e)
  | unchanged : Predicts (.ok .unchanged) (.ok .unchanged)
  | changed (diff : String) : Predicts (.ok (.wouldChange diff)) (.ok .written)

variable {tree : Tree} {pass : Pass} {mode : Mode} {path : Path} {paths : List Path}

/-! ## One file -/

/-- **A dry run foresees what happens to a file.** -/
theorem predicts_process : Predicts (tree.process pass .dryRun path).2
    (tree.process pass .apply path).2 := by
  rw [Tree.process, Tree.process]
  cases tree.transformed pass path with
  | error cause => exact .failure _
  | ok texts =>
    dsimp only
    split
    · exact .unchanged
    · exact .changed _

theorem process_dryRun_fst (tree : Tree) (pass : Pass) (path : Path) :
    (tree.process pass .dryRun path).1 = tree := by
  rw [Tree.process]
  cases tree.transformed pass path with
  | error cause => rfl
  | ok texts =>
    dsimp only
    split <;> rfl

theorem isOk_snd_process (tree : Tree) (pass : Pass) (mode : Mode) (path : Path) :
    (tree.process pass mode path).2.isOk = (tree.transformed pass path).isOk := by
  rw [Tree.process]
  cases tree.transformed pass path with
  | error cause => rfl
  | ok texts =>
    dsimp only
    split
    · rfl
    · cases mode <;> rfl

/-! ## The files that a batch gets to -/

/-- The files that a batch gets to: all of them, or those up to the first failure. -/
def handled (tree : Tree) (pass : Pass) (failFast : Bool) (paths : List Path) : List Path :=
  let succeeds := fun path => (tree.transformed pass path).isOk
  if failFast then paths.takeWhile succeeds ++ (paths.dropWhile succeeds).take 1 else paths

theorem handled_cons_of_isOk (h : (tree.transformed pass path).isOk = true) :
    handled tree pass true (path :: paths) = path :: handled tree pass true paths := by
  simp [handled, h]

theorem handled_cons_of_not_isOk (h : (tree.transformed pass path).isOk = false) :
    handled tree pass true (path :: paths) = [path] := by
  simp [handled, h]

theorem handled_sublist {failFast : Bool} :
    (handled tree pass failFast paths).Sublist paths := by
  cases failFast with
  | false => exact List.Sublist.refl _
  | true =>
    have hsplit := List.takeWhile_append_dropWhile
      (p := fun path => (tree.transformed pass path).isOk) (l := paths)
    have hsub := (List.take_sublist 1
      (paths.dropWhile fun path => (tree.transformed pass path).isOk)).append_left
      (paths.takeWhile fun path => (tree.transformed pass path).isOk)
    rw [hsplit] at hsub
    exact hsub

theorem handled_congr {tree' : Tree} (h : ∀ path ∈ paths, tree'.read path = tree.read path) :
    handled tree' pass true paths = handled tree pass true paths := by
  induction paths with
  | nil => rfl
  | cons path paths ih =>
    have hfirst : tree'.transformed pass path = tree.transformed pass path := by
      rw [Tree.transformed, Tree.transformed, h path List.mem_cons_self]
    have hrest := ih fun p hp => h p (List.mem_cons_of_mem _ hp)
    cases hok : (tree.transformed pass path).isOk with
    | false => rw [handled_cons_of_not_isOk hok, handled_cons_of_not_isOk (hfirst ▸ hok)]
    | true => rw [handled_cons_of_isOk hok, handled_cons_of_isOk (hfirst ▸ hok), hrest]

/-- Processing a file leaves alone where paths lead, and what the paths to other files find. -/
theorem process_frame (tree : Tree) (pass : Pass) (mode : Mode) (path : Path) :
    (tree.process pass mode path).1 = tree ∨
    ∃ location content text, tree.follow path = .ok (location, .file content) ∧
      (tree.process pass mode path).1 = tree.overwrite path text := by
  rw [process_eq]
  cases hstage : Job.afterRead tree pass mode path with
  | waiting => exact Or.inl rfl
  | done outcome => exact Or.inl rfl
  | changed text =>
    obtain ⟨-, source, hsource, -⟩ := afterRead_eq_changed_iff.1 hstage
    obtain ⟨location, content, hfollow⟩ :=
      Tree.exists_leadsTo_of_read (transformed_eq_ok_iff.1 hsource).1
    exact Or.inr ⟨location, content, text, hfollow, rfl⟩

theorem read_process {other : Path} (h : tree.Distinct [path, other]) :
    (tree.process pass mode path).1.read other = tree.read other := by
  rcases process_frame tree pass mode path with heq | ⟨location, content, text, hfollow, heq⟩
  · rw [heq]
  · rw [heq]
    exact Tree.read_overwrite hfollow ((List.pairwise_pair.1 h) location ⟨content, hfollow⟩)

theorem distinct_process (h : tree.Distinct paths) :
    (tree.process pass mode path).1.Distinct paths := by
  rcases process_frame tree pass mode path with heq | ⟨location, content, text, hfollow, heq⟩
  · exact heq.symm ▸ h
  · rw [heq]
    exact h.imp fun hpq l hp hq => hpq l ((Tree.leadsTo_overwrite_iff hfollow _ l).1 hp)
      ((Tree.leadsTo_overwrite_iff hfollow _ l).1 hq)

/-- **A batch that stops at the first failure does what a batch of the files up to there does.** -/
theorem processEach_failFast (h : tree.Distinct paths) :
    tree.processEach pass mode true paths =
      tree.processEach pass mode false (handled tree pass true paths) := by
  induction paths generalizing tree with
  | nil => rfl
  | cons path paths ih =>
    obtain ⟨hpath, hpaths⟩ := List.pairwise_cons.1 h
    have hdistinct : (tree.process pass mode path).1.Distinct paths := distinct_process hpaths
    have hih := ih hdistinct
    rw [handled_congr fun other hother =>
      read_process (List.pairwise_pair.2 (hpath other hother))] at hih
    have hok := isOk_snd_process tree pass mode path
    rw [Tree.processEach]
    rcases hprocess : tree.process pass mode path with ⟨after, e | outcome⟩
    · rw [hprocess] at hok
      rw [handled_cons_of_not_isOk hok.symm, processEach_cons, hprocess]
      rfl
    · rw [hprocess] at hok hih
      rw [handled_cons_of_isOk hok.symm, processEach_cons, hprocess]
      dsimp only at hih ⊢
      rw [hih]

/-! ## Reports and trees -/

section Batch

variable (h : tree.Distinct paths)

include h

theorem run_processAll (pass : Pass) (mode : Mode) (failFast : Bool) : ReflTransGen (Pool.Step pass mode)
    (Pool.start tree (handled tree pass failFast paths))
    (Pool.finished (tree.processAll pass mode failFast paths).1
      (tree.processAll pass mode failFast paths).2.results) := by
  have hrun := Pool.run_processEach pass mode [] tree (handled tree pass failFast paths)
  cases failFast with
  | false => exact hrun
  | true =>
    rw [← processEach_failFast h] at hrun
    exact hrun

/-- **The report covers the files that the batch gets to, each with what happens to it alone.** -/
theorem results_processAll {failFast : Bool} :
    (tree.processAll pass mode failFast paths).2.results =
    (handled tree pass failFast paths).map fun path => ⟨path, (tree.process pass mode path).2⟩ :=
  Pool.results_of_run (h.sublist handled_sublist) (run_processAll h pass mode failFast)

/-- Two runs to the end on the same files leave the same at every location. -/
theorem entry?_eq_of_run {last last' : Tree} {results results' : List FileResult}
    (hr : ReflTransGen (Pool.Step pass mode) (Pool.start tree paths) (Pool.finished last results))
    (hr' : ReflTransGen (Pool.Step pass mode) (Pool.start tree paths)
      (Pool.finished last' results')) (location : Location) :
    last.entry? location = Tree.entry? last' location := by
  obtain ⟨hwritten, hkept⟩ := Pool.entry?_of_run h hr
  obtain ⟨hwritten', hkept'⟩ := Pool.entry?_of_run h hr'
  by_cases hl : ∃ path ∈ paths, (tree.process pass mode path).2 = .ok .written ∧
      tree.LeadsTo path location
  · obtain ⟨path, hpath, hw, hl⟩ := hl
    obtain ⟨text, ht⟩ := snd_process_eq_written_iff.1 hw
    rw [(hwritten path hpath text ht).2 location hl, (hwritten' path hpath text ht).2 location hl]
  · have hnot : ∀ path ∈ paths, (tree.process pass mode path).2 = .ok .written →
        ¬ tree.LeadsTo path location := fun path hpath hw hlead => hl ⟨path, hpath, hw, hlead⟩
    rw [hkept location hnot, hkept' location hnot]

/-- **A batch changes exactly the files that it reports as written.** -/
theorem entry?_ne_iff {failFast : Bool} (location : Location) :
    Tree.entry? (tree.processAll pass mode failFast paths).1 location ≠ tree.entry? location ↔
      ∃ result ∈ (tree.processAll pass mode failFast paths).2.results,
        result.outcome = .ok .written ∧ tree.LeadsTo result.path location := by
  obtain ⟨hwritten, hkept⟩ := Pool.entry?_of_run (h.sublist handled_sublist)
    (run_processAll h pass mode failFast)
  rw [results_processAll h]
  constructor
  · intro hne
    refine Classical.byContradiction fun hnone => hne (hkept location fun path hpath hw hl => ?_)
    exact hnone ⟨_, List.mem_map_of_mem hpath, hw, hl⟩
  · rintro ⟨result, hresult, hw, hl⟩ heq
    obtain ⟨path, hpath, rfl⟩ := List.mem_map.1 hresult
    obtain ⟨text, ht⟩ := snd_process_eq_written_iff.1 hw
    obtain ⟨-, source, hsource, hne⟩ := afterRead_eq_changed_iff.1 ht
    obtain ⟨l, hf⟩ := Tree.exists_follow_of_read (transformed_eq_ok_iff.1 hsource).1
    obtain rfl := hl.unique ⟨_, hf⟩
    rw [(hwritten path hpath text ht).2 location hl, Tree.entry?_of_follow hf] at heq
    have hbytes : text.toUTF8 = source.toUTF8 := Entry.file.inj (Option.some.inj heq)
    exact hne (String.toByteArray_inj.1 hbytes)

/-- **A file that is reported as written holds what the pass makes of it.** -/
theorem read_of_written {failFast : Bool} {result : FileResult}
    (hresult : result ∈ (tree.processAll pass mode failFast paths).2.results)
    (hw : result.outcome = .ok .written) : ∃ source text, tree.read result.path = .ok source ∧
      (Dialect.of result.path).transform pass source = .ok text ∧
      (tree.processAll pass mode failFast paths).1.read result.path = .ok text := by
  obtain ⟨hwritten, -⟩ := Pool.entry?_of_run (h.sublist handled_sublist)
    (run_processAll h pass mode failFast)
  rw [results_processAll h] at hresult
  obtain ⟨path, hpath, rfl⟩ := List.mem_map.1 hresult
  obtain ⟨text, ht⟩ := snd_process_eq_written_iff.1 hw
  obtain ⟨-, source, hsource, -⟩ := afterRead_eq_changed_iff.1 ht
  obtain ⟨hread, htransform⟩ := transformed_eq_ok_iff.1 hsource
  exact ⟨source, text, hread, htransform, (hwritten path hpath text ht).1⟩

end Batch

/-- **A dry run changes nothing.** -/
theorem processAll_dryRun_fst {failFast : Bool} :
    (tree.processAll pass .dryRun failFast paths).1 = tree := by
  rw [Tree.processAll]
  induction paths with
  | nil => rfl
  | cons path paths ih =>
    have hfirst := process_dryRun_fst tree pass path
    dsimp only at ih ⊢
    rw [Tree.processEach]
    rcases hprocess : tree.process pass .dryRun path with ⟨after, e | outcome⟩
    · rw [hprocess] at hfirst
      obtain rfl : after = tree := hfirst
      cases failFast with
      | true => rfl
      | false => exact ih
    · rw [hprocess] at hfirst
      obtain rfl : after = tree := hfirst
      exact ih

end HouseStyle
