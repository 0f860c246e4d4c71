import HouseStyle.Files.Batch
import HouseStyle.Proofs.Files.Tree
import Mathlib.Logic.Relation

/-!
# Files processed in any order

A batch that need not stop at a failure may process its files at once.  `Pool` is such a batch on its
way: each job has read its file or not, and has written it or not, and `Pool.Step` lets any job go on.
If the paths lead to different files, no job sees what another one writes, and every way to the end
gives one report and one tree.

* `Job.afterRead`, `process_eq`: what reading leads to, and a file processed in one go.
* `Pool.Step`, `Pool.Inv`, `Inv.of_run`: one step, and what every run keeps.
* `run_processEach`, `exists_run`: processing in order is one run, and every run can be finished.
* `results_of_run`, `entry?_of_run`, `read_of_run`: **the report and the tree at the end of any run.**
-/

namespace HouseStyle

open Relation (ReflTransGen)

/-- How far the work on a file has come. -/
inductive Stage where
  | waiting
  /-- The file was read, and this is to be written. -/
  | changed (text : String)
  | done (outcome : Except ProcessError Outcome)

/-- A file with how far the work on it has come. -/
structure Job where
  path : Path
  stage : Stage

/-- A batch on its way. -/
structure Pool where
  tree : Tree
  jobs : List Job

namespace Job

/-- The job that has not begun. -/
def waiting (path : Path) : Job := ⟨path, .waiting⟩

/-- The job that has ended with a result. -/
def ofResult (result : FileResult) : Job := ⟨result.path, .done result.outcome⟩

/-- Whether a job has written its file. -/
def HasWritten (job : Job) : Prop := job.stage = .done (.ok .written)

/-- The stage after a file was read. -/
def afterRead (tree : Tree) (pass : Pass) (mode : Mode) (path : Path) : Stage :=
  match tree.transformed pass path with
  | .error cause => .done (.error ⟨path, cause⟩)
  | .ok (source, result) =>
    if result = source then .done (.ok .unchanged)
    else
      match mode with
      | .dryRun => .done (.ok (.wouldChange (Diff.unified path.text source result)))
      | .apply => .changed result

end Job

section Processing

variable {tree : Tree} {pass : Pass} {mode : Mode} {path : Path}

/-- A file is processed by reading it and writing what is changed. -/
theorem process_eq : tree.process pass mode path =
    match Job.afterRead tree pass mode path with
    | .done outcome => (tree, outcome)
    | .changed text => (tree.overwrite path text, .ok .written)
    | .waiting => (tree, .ok .unchanged) := by
  rw [Tree.process, Job.afterRead]
  cases tree.transformed pass path with
  | error cause => rfl
  | ok texts =>
    dsimp only
    split
    · rfl
    · cases mode <;> rfl

theorem snd_process_of_done {outcome : Except ProcessError Outcome}
    (h : Job.afterRead tree pass mode path = .done outcome) :
    (tree.process pass mode path).2 = outcome := by
  rw [process_eq, h]

theorem afterRead_ne_waiting : Job.afterRead tree pass mode path ≠ .waiting := by
  rw [Job.afterRead]
  split
  · nofun
  · split
    · nofun
    · cases mode <;> nofun

/-- What is to be written is what the pass makes of a file that it changes. -/
theorem afterRead_eq_changed_iff {text : String} :
    Job.afterRead tree pass mode path = .changed text ↔
      mode = .apply ∧ ∃ source, tree.transformed pass path = .ok (source, text) ∧
        text ≠ source := by
  rw [Job.afterRead]
  cases tree.transformed pass path with
  | error cause => simp
  | ok texts =>
    obtain ⟨source, result⟩ := texts
    by_cases hr : result = source
    · subst hr
      simp [eq_comm]
    · cases mode with
      | dryRun => simp [hr]
      | apply =>
        simp only [if_neg hr, Stage.changed.injEq, true_and, Except.ok.injEq, Prod.mk.injEq]
        constructor
        · rintro rfl
          exact ⟨source, ⟨rfl, rfl⟩, hr⟩
        · rintro ⟨_, ⟨-, ht⟩, -⟩
          exact ht

theorem snd_process_eq_written_iff : (tree.process pass mode path).2 = .ok .written ↔
    ∃ text, Job.afterRead tree pass mode path = .changed text := by
  rw [process_eq]
  cases h : Job.afterRead tree pass mode path with
  | waiting => exact absurd h afterRead_ne_waiting
  | changed text => exact ⟨fun _ => ⟨text, rfl⟩, fun _ => rfl⟩
  | done outcome =>
    refine ⟨fun ho => ?_, fun ⟨_, ht⟩ => nomatch ht⟩
    exfalso
    dsimp only at ho
    subst ho
    rw [Job.afterRead] at h
    split at h
    · cases h
    · split at h
      · cases h
      · cases mode <;> cases h

theorem transformed_eq_ok_iff {source result : String} :
    tree.transformed pass path = .ok (source, result) ↔
      tree.read path = .ok source ∧ (Dialect.of path).transform pass source = .ok result := by
  rw [Tree.transformed]
  cases tree.read path with
  | error e => simp
  | ok text =>
    cases ht : (Dialect.of path).transform pass text with
    | error e =>
      simp only [ht, reduceCtorEq, Except.ok.injEq, false_iff, not_and]
      rintro rfl hr
      rw [ht] at hr
      cases hr
    | ok changed =>
      simp only [ht, Except.ok.injEq, Prod.mk.injEq]
      constructor
      · rintro ⟨rfl, rfl⟩
        exact ⟨rfl, ht⟩
      · rintro ⟨rfl, hr⟩
        rw [ht] at hr
        exact ⟨rfl, Except.ok.inj hr⟩

theorem afterRead_congr (pass : Pass) (mode : Mode) {tree' : Tree}
    (h : tree'.read path = tree.read path) :
    Job.afterRead tree' pass mode path = Job.afterRead tree pass mode path := by
  simp only [Job.afterRead, Tree.transformed, h]

/-- Without stopping at a failure, the files after one are processed whatever becomes of it. -/
theorem processEach_cons (paths : List Path) :
    tree.processEach pass mode false (path :: paths) =
      (((tree.process pass mode path).1.processEach pass mode false paths).1,
        ⟨path, (tree.process pass mode path).2⟩ ::
          ((tree.process pass mode path).1.processEach pass mode false paths).2) := by
  rw [Tree.processEach]
  rcases tree.process pass mode path with ⟨_, _ | _⟩ <;> rfl

end Processing

/-! ## Steps -/

namespace Pool

variable {pass : Pass} {mode : Mode} {first : Tree} {pool pool' : Pool}

/-- The batch that has not begun. -/
def start (tree : Tree) (paths : List Path) : Pool := ⟨tree, paths.map Job.waiting⟩

/-- The batch that has ended with some results. -/
def finished (tree : Tree) (results : List FileResult) : Pool := ⟨tree, results.map Job.ofResult⟩

/-- Any job may go on: one that waits reads its file, and one that is to write does so. -/
inductive Step (pass : Pass) (mode : Mode) : Pool → Pool → Prop
  | read {tree : Tree} {before after : List Job} {path : Path} :
      Step pass mode ⟨tree, before ++ ⟨path, .waiting⟩ :: after⟩
        ⟨tree, before ++ ⟨path, Job.afterRead tree pass mode path⟩ :: after⟩
  | write {tree : Tree} {before after : List Job} {path : Path} {text : String} :
      Step pass mode ⟨tree, before ++ ⟨path, .changed text⟩ :: after⟩
        ⟨tree.overwrite path text, before ++ ⟨path, .done (.ok .written)⟩ :: after⟩

/-- What a job has found is what it would have found at the beginning. -/
def Sound (first : Tree) (pass : Pass) (mode : Mode) (tree : Tree) (job : Job) : Prop :=
  match job.stage with
  | .waiting => tree.read job.path = first.read job.path
  | .changed text => Job.afterRead first pass mode job.path = .changed text
  | .done outcome => outcome = (first.process pass mode job.path).2

/-- What is true of a batch on its way: paths lead where they led, each job is sound, the files that
were written hold what they should, and all else is as it was. -/
structure Inv (first : Tree) (pass : Pass) (mode : Mode) (pool : Pool) : Prop where
  distinct : first.Distinct (pool.jobs.map Job.path)
  leads : ∀ path location, pool.tree.LeadsTo path location ↔ first.LeadsTo path location
  sound : ∀ job ∈ pool.jobs, Sound first pass mode pool.tree job
  written : ∀ job ∈ pool.jobs, job.HasWritten → ∀ text,
    Job.afterRead first pass mode job.path = .changed text → pool.tree.read job.path = .ok text
  kept : ∀ location, (∀ job ∈ pool.jobs, job.HasWritten → ¬ first.LeadsTo job.path location) →
    Tree.entry? pool.tree location = first.entry? location

theorem inv_start {paths : List Path} (h : first.Distinct paths) :
    Inv first pass mode (start first paths) := by
  have hwaiting : ∀ job ∈ (start first paths).jobs, job.stage = .waiting := by
    intro job hjob
    obtain ⟨path, -, rfl⟩ := List.mem_map.1 hjob
    rfl
  refine ⟨?_, fun _ _ => Iff.rfl, fun job hjob => ?_, fun job hjob hw => ?_, fun _ _ => rfl⟩
  · rw [start, List.map_map]
    exact (List.map_id paths).symm ▸ h
  · rw [Sound, hwaiting job hjob]
    rfl
  · rw [Job.HasWritten, hwaiting job hjob] at hw
    cases hw

theorem not_leadsTo_of_distinct {before after : List Job} {job other : Job} {location : Location}
    (h : first.Distinct ((before ++ job :: after).map Job.path))
    (hl : first.LeadsTo job.path location) (ho : other ∈ before ++ after) :
    ¬ first.LeadsTo other.path location := by
  rw [Tree.Distinct, List.map_append, List.map_cons, List.pairwise_append,
    List.pairwise_cons] at h
  obtain ⟨-, ⟨hafter, -⟩, hbefore⟩ := h
  rcases List.mem_append.1 ho with ho | ho
  · exact fun hother => hbefore _ (List.mem_map_of_mem ho) _ List.mem_cons_self location hother hl
  · exact hafter _ (List.mem_map_of_mem ho) location hl

theorem forall_mem_of_job {before after : List Job} {job : Job} {motive : Job → Prop}
    (hjob : motive job) (hrest : ∀ other ∈ before ++ after, motive other) :
    ∀ other ∈ before ++ job :: after, motive other := by
  intro other hother
  rcases List.mem_append.1 hother with hb | ha
  · exact hrest other (List.mem_append_left _ hb)
  rcases List.mem_cons.1 ha with rfl | ha
  · exact hjob
  · exact hrest other (List.mem_append_right _ ha)

theorem mem_of_mem_others {before after : List Job} {job other : Job}
    (h : other ∈ before ++ after) : other ∈ before ++ job :: after := by
  rcases List.mem_append.1 h with hb | ha
  · exact List.mem_append_left _ hb
  · exact List.mem_append_right _ (List.mem_cons_of_mem _ ha)

/-- Reading a file finds what was there at the beginning. -/
theorem Inv.read {tree : Tree} {before after : List Job} {path : Path}
    (h : Inv first pass mode ⟨tree, before ++ ⟨path, .waiting⟩ :: after⟩) :
    Inv first pass mode
      ⟨tree, before ++ ⟨path, Job.afterRead tree pass mode path⟩ :: after⟩ := by
  have hread : tree.read path = first.read path := h.sound ⟨path, .waiting⟩ (by simp)
  have hstage := afterRead_congr pass mode hread
  have hnew : ¬ Job.HasWritten ⟨path, Job.afterRead tree pass mode path⟩ := by
    intro hw
    obtain ⟨text, ht⟩ := snd_process_eq_written_iff.1 (snd_process_of_done hw)
    rw [Job.HasWritten, ht] at hw
    cases hw
  refine ⟨?_, h.leads, forall_mem_of_job ?_ fun job hjob => h.sound job (mem_of_mem_others hjob),
    forall_mem_of_job (fun hw => absurd hw hnew) fun job hjob =>
      h.written job (mem_of_mem_others hjob), fun location hl => h.kept location ?_⟩
  · simpa using h.distinct
  · rw [Sound]
    split
    · exact hread
    · next text ht => exact hstage ▸ ht
    · next outcome ho => exact (snd_process_of_done (hstage ▸ ho)).symm
  · exact forall_mem_of_job nofun fun job hjob => hl job (mem_of_mem_others hjob)

/-- Writing a file changes that file alone, which no other job reads or writes. -/
theorem Inv.write {tree : Tree} {before after : List Job} {path : Path} {text : String}
    (h : Inv first pass mode ⟨tree, before ++ ⟨path, .changed text⟩ :: after⟩) :
    Inv first pass mode
      ⟨tree.overwrite path text, before ++ ⟨path, .done (.ok .written)⟩ :: after⟩ := by
  have hstage : Job.afterRead first pass mode path = .changed text :=
    h.sound ⟨path, .changed text⟩ (by simp)
  obtain ⟨-, source, hsource, -⟩ := afterRead_eq_changed_iff.1 hstage
  obtain ⟨location, hfirst⟩ := Tree.exists_leadsTo_of_read (transformed_eq_ok_iff.1 hsource).1
  obtain ⟨content, hfollow⟩ := (h.leads path location).2 hfirst
  have hothers : ∀ job ∈ before ++ after, ¬ first.LeadsTo job.path location := fun job hjob =>
    not_leadsTo_of_distinct h.distinct hfirst hjob
  have hread : ∀ job ∈ before ++ after,
      (tree.overwrite path text).read job.path = tree.read job.path := fun job hjob =>
    Tree.read_overwrite hfollow fun hl => hothers job hjob ((h.leads _ _).1 hl)
  refine ⟨by simpa using h.distinct, fun p l => ?_,
    forall_mem_of_job ?_ fun job hjob => ?_, forall_mem_of_job (fun _ t ht => ?_) fun job hjob => ?_,
    fun l hl => ?_⟩
  · rw [Tree.leadsTo_overwrite_iff hfollow]
    exact h.leads p l
  · exact (snd_process_eq_written_iff.2 ⟨text, hstage⟩).symm
  · have hsound := h.sound job (mem_of_mem_others hjob)
    revert hsound
    rw [Sound, Sound]
    split
    · exact fun hsound => (hread job hjob).trans hsound
    · exact id
    · exact id
  · obtain rfl : text = t := Stage.changed.inj (hstage.symm.trans ht)
    exact Tree.read_overwrite_self hfollow
  · rw [hread job hjob]
    exact h.written job (mem_of_mem_others hjob)
  · have hne : l ≠ location := by
      rintro rfl
      exact hl ⟨path, .done (.ok .written)⟩ (by simp) rfl hfirst
    rw [Tree.entry?_overwrite hfollow, if_neg hne]
    exact h.kept l (forall_mem_of_job nofun fun job hjob => hl job (mem_of_mem_others hjob))

theorem Inv.step (h : Inv first pass mode pool) (hs : Step pass mode pool pool') :
    Inv first pass mode pool' := by
  cases hs with
  | read => exact h.read
  | write => exact h.write

/-- **Every run keeps what is true at its beginning.** -/
theorem Inv.of_run {paths : List Path} (h : first.Distinct paths)
    (hr : ReflTransGen (Step pass mode) (start first paths) pool) : Inv first pass mode pool := by
  induction hr with
  | refl => exact inv_start h
  | tail _ hs ih => exact ih.step hs

/-! ## Runs to the end -/

/-- A waiting job can go on until it is done, as the file is processed in one go. -/
theorem run_process (pass : Pass) (mode : Mode) (tree : Tree) (before after : List Job)
    (path : Path) :
    ReflTransGen (Step pass mode) ⟨tree, before ++ ⟨path, .waiting⟩ :: after⟩
      ⟨(tree.process pass mode path).1,
        before ++ ⟨path, .done (tree.process pass mode path).2⟩ :: after⟩ := by
  have hread : Step pass mode ⟨tree, before ++ ⟨path, .waiting⟩ :: after⟩
      ⟨tree, before ++ ⟨path, Job.afterRead tree pass mode path⟩ :: after⟩ := .read
  rw [process_eq]
  cases hstage : Job.afterRead tree pass mode path with
  | waiting => exact absurd hstage afterRead_ne_waiting
  | done outcome =>
    rw [hstage] at hread
    exact .single hread
  | changed text =>
    rw [hstage] at hread
    exact .tail (.single hread) .write

/-- Processing the files in order is one run. -/
theorem run_processEach (pass : Pass) (mode : Mode) (before : List Job) (tree : Tree)
    (paths : List Path) :
    ReflTransGen (Step pass mode) ⟨tree, before ++ paths.map Job.waiting⟩
      ⟨(tree.processEach pass mode false paths).1,
        before ++ (tree.processEach pass mode false paths).2.map Job.ofResult⟩ := by
  induction paths generalizing before tree with
  | nil => exact .refl
  | cons path paths ih =>
    have hfirst := run_process pass mode tree before (paths.map Job.waiting) path
    have hrest := ih (before ++ [⟨path, .done (tree.process pass mode path).2⟩])
      (tree.process pass mode path).1
    rw [List.append_assoc, List.append_assoc] at hrest
    rw [processEach_cons]
    exact hfirst.trans hrest

/-- Every batch on its way can be brought to an end, one job after the other. -/
theorem exists_run_append (before after : List Job) (tree : Tree) :
    ∃ (tree' : Tree) (results : List FileResult), ReflTransGen (Step pass mode)
      ⟨tree, before ++ after⟩ ⟨tree', before ++ results.map Job.ofResult⟩ := by
  induction after generalizing before tree with
  | nil => exact ⟨tree, [], .refl⟩
  | cons job jobs ih =>
    have hjob : ∃ tree' outcome, ReflTransGen (Step pass mode) ⟨tree, before ++ job :: jobs⟩
        ⟨tree', before ++ ⟨job.path, .done outcome⟩ :: jobs⟩ := by
      obtain ⟨path, stage⟩ := job
      cases stage with
      | waiting => exact ⟨_, _, run_process pass mode tree before jobs path⟩
      | changed text => exact ⟨_, _, .single .write⟩
      | done outcome => exact ⟨tree, outcome, .refl⟩
    obtain ⟨tree', outcome, hfirst⟩ := hjob
    obtain ⟨last, results, hrest⟩ := ih (before ++ [⟨job.path, .done outcome⟩]) tree'
    rw [List.append_assoc, List.append_assoc] at hrest
    exact ⟨last, ⟨job.path, outcome⟩ :: results, hfirst.trans hrest⟩

/-- **Every run can be finished.** -/
theorem exists_run (pool : Pool) :
    ∃ tree results, ReflTransGen (Step pass mode) pool (finished tree results) :=
  exists_run_append [] pool.jobs pool.tree

theorem Step.map_path_eq (hs : Step pass mode pool pool') :
    pool'.jobs.map Job.path = pool.jobs.map Job.path := by
  cases hs <;> simp

theorem map_path_of_run (hr : ReflTransGen (Step pass mode) pool pool') :
    pool'.jobs.map Job.path = pool.jobs.map Job.path := by
  induction hr with
  | refl => rfl
  | tail _ hs ih => exact hs.map_path_eq.trans ih

section Finished

variable {paths : List Path} {last : Tree} {results : List FileResult} (h : first.Distinct paths)
  (hr : ReflTransGen (Step pass mode) (start first paths) (finished last results))

include h hr

/-- **At the end of any run each file has the result that it had alone, in the order of the paths.** -/
theorem results_of_run :
    results = paths.map fun path => ⟨path, (first.process pass mode path).2⟩ := by
  have hpaths : results.map FileResult.path = paths := by
    have hmap := map_path_of_run hr
    rw [finished, start, List.map_map, List.map_map] at hmap
    exact hmap.trans (List.map_id paths)
  have hsound : ∀ result ∈ results,
      result = ⟨result.path, (first.process pass mode result.path).2⟩ := fun result hresult =>
    congrArg (FileResult.mk result.path)
      ((Inv.of_run h hr).sound (Job.ofResult result) (List.mem_map_of_mem hresult))
  rw [← hpaths, List.map_map]
  exact (List.map_id results).symm.trans (List.map_congr_left hsound)

/-- **At the end of any run the files that were to be written hold what they should, and all else is
as it was.** -/
theorem entry?_of_run :
    (∀ path ∈ paths, ∀ text, Job.afterRead first pass mode path = .changed text →
      last.read path = .ok text ∧
        ∀ location, first.LeadsTo path location → last.entry? location = some (.file text.toUTF8)) ∧
    ∀ location, (∀ path ∈ paths, (first.process pass mode path).2 = .ok .written →
      ¬ first.LeadsTo path location) → last.entry? location = first.entry? location := by
  have hinv := Inv.of_run h hr
  have hresults := results_of_run h hr
  refine ⟨fun path hpath text htext => ?_, fun location hlocation => hinv.kept location ?_⟩
  · have hwritten := snd_process_eq_written_iff.2 ⟨text, htext⟩
    have hmem : Job.ofResult ⟨path, .ok .written⟩ ∈ (finished last results).jobs := by
      refine List.mem_map_of_mem ?_
      rw [hresults, ← hwritten]
      exact List.mem_map_of_mem (f := fun path => FileResult.mk path _) hpath
    have hread : last.read path = .ok text := hinv.written _ hmem rfl text htext
    refine ⟨hread, fun location hl => ?_⟩
    obtain ⟨l, hf⟩ := Tree.exists_follow_of_read hread
    obtain rfl := ((hinv.leads path location).2 hl).unique ⟨_, hf⟩
    exact Tree.entry?_of_follow hf
  · intro job hjob hw
    obtain ⟨result, hresult, rfl⟩ := List.mem_map.1 hjob
    rw [hresults] at hresult
    obtain ⟨path, hpath, rfl⟩ := List.mem_map.1 hresult
    exact hlocation path hpath (Stage.done.inj hw)

end Finished

end Pool

end HouseStyle
