import HouseStyle.Dialect
import HouseStyle.Diff.Unified
import HouseStyle.Files.Tree

/-!
# Processing files

Every file goes the same way: it is read, a pass is applied, and the result is compared with what
was read. Only the last step depends on the mode, which either writes a changed file or shows the
difference.

* `Tree.process`: one file.
* `Tree.processAll`: some files, with what happened to each.
-/

namespace HouseStyle

/-- What is done with a changed file. -/
inductive Mode where
  | apply
  | dryRun
  deriving DecidableEq, Repr

/-- What happened to a file. -/
inductive Outcome where
  | unchanged
  | written
  | wouldChange (diff : String)
  deriving DecidableEq, Repr

/-- Whether the file is or would be different. -/
def Outcome.isChange : Outcome → Bool
  | .unchanged => false
  | .written | .wouldChange _ => true

/-- Why a file could not be processed. -/
inductive ProcessFailure where
  | file (error : FileError)
  | transform (error : TransformError)
  deriving DecidableEq, Repr

/-- What is said about the failure, without the path. -/
def ProcessFailure.message : ProcessFailure → String
  | .file e => e.message
  | .transform e => e.message

/-- A file with why it could not be processed. -/
structure ProcessError where
  path : Path
  cause : ProcessFailure
  deriving DecidableEq, Repr

/-- What is said about the error. -/
def ProcessError.message (e : ProcessError) : String := e.path.text ++ ": " ++ e.cause.message

namespace Tree

/-- What a pass makes of the file at a path. -/
def transformed (tree : Tree) (pass : Pass) (path : Path) :
    Except ProcessFailure (String × String) :=
  match tree.read path with
  | .error e => .error (.file e)
  | .ok source =>
    match (Dialect.of path).transform pass source with
    | .error e => .error (.transform e)
    | .ok result => .ok (source, result)

/-- One file processed: the tree after it, and what happened. -/
def process (tree : Tree) (pass : Pass) (mode : Mode) (path : Path) :
    Tree × Except ProcessError Outcome :=
  match tree.transformed pass path with
  | .error cause => (tree, .error ⟨path, cause⟩)
  | .ok (source, result) =>
    if result = source then (tree, .ok .unchanged)
    else
      match mode with
      | .dryRun => (tree, .ok (.wouldChange (Diff.unified path.text source result)))
      | .apply => (tree.overwrite path result, .ok .written)

end Tree

/-! ## Batches -/

/-- A file with what happened to it. -/
structure FileResult where
  path : Path
  outcome : Except ProcessError Outcome

/-- What happened to some files, in their order. -/
structure Report where
  results : List FileResult

namespace Report

/-- The errors, in the order of the files. -/
def failures (report : Report) : List ProcessError :=
  report.results.filterMap fun r =>
    match r.outcome with
    | .error e => some e
    | .ok _ => none

/-- What happened to the files without an error. -/
def outcomes (report : Report) : List Outcome :=
  report.results.filterMap fun r => r.outcome.toOption

/-- Whether a file could not be processed. -/
def hasFailures (report : Report) : Bool := !report.failures.isEmpty

/-- Whether a file is or would be different. -/
def hasChanges (report : Report) : Bool := report.outcomes.any Outcome.isChange

end Report

/-- Some files processed in their order; `failFast` stops after the first failure. -/
def Tree.processEach (tree : Tree) (pass : Pass) (mode : Mode) (failFast : Bool) :
    List Path → Tree × List FileResult
  | [] => (tree, [])
  | path :: paths =>
    match tree.process pass mode path with
    | (tree, .error e) =>
      if failFast then (tree, [⟨path, .error e⟩])
      else
        let (tree, results) := tree.processEach pass mode failFast paths
        (tree, ⟨path, .error e⟩ :: results)
    | (tree, .ok outcome) =>
      let (tree, results) := tree.processEach pass mode failFast paths
      (tree, ⟨path, .ok outcome⟩ :: results)

/-- Some files processed in their order, with a report. -/
def Tree.processAll (tree : Tree) (pass : Pass) (mode : Mode) (failFast : Bool)
    (paths : List Path) : Tree × Report :=
  let (tree, results) := tree.processEach pass mode failFast paths
  (tree, ⟨results⟩)

end HouseStyle
