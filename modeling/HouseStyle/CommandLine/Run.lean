import HouseStyle.CommandLine.Arguments
import HouseStyle.Files.Batch
import HouseStyle.Files.Discovery
import HouseStyle.Settings.Basic
import HouseStyle.Trace

/-!
# Runs

A run reads its settings, applies one pass to the files under some paths, or shows the outline of a
file. The exit code is 1 if something failed, 2 if a dry run found files that would change, and 0
otherwise.

* `Output`: what a run prints, and its exit code.
* `run`: the file tree after a run, and its output.
-/

namespace HouseStyle.CommandLine

open Log

/-- What a run prints, and its exit code. -/
structure Output where
  code : Nat
  stdout : String := ""
  /-- The messages of what failed. -/
  errors : List String := []
  log : List Log.Entry := []

/-- How a command line ends. -/
inductive Ending where
  | done (output : Output)
  /-- Only how to use the program is shown. -/
  | shown (code : Nat)

/-- The output of a run that fails as a whole. -/
def failed (message : String) (log : List Log.Entry) : Output :=
  { code := 1, errors := [message], log }

/-- What is printed for the version. -/
def versionText : String := "declfmt 0.1.0\n"

/-- The name of the configuration file in the working directory. -/
def projectFile : String := "declfmt.toml"

/-! ## Settings -/

/-- The defaults, the project's file, the file of the command line, and then its switches. -/
def configOf (tree : Tree) (options : Options) : Except ConfigError Config := do
  let config ← Config.addFile tree Config.defaults projectFile false
  let config ← match options.config with
    | some name => Config.addFile tree config name true
    | none => pure config
  if options.failFast then config.override "files.fail_fast" (.boolean true) else pure config

/-- The settings of a run. -/
def settingsOf (tree : Tree) (options : Options) : Except SettingsError Settings :=
  match configOf tree options with
  | .error e => .error (.config e)
  | .ok config => Settings.of config

/-- The pass of a command under some settings. -/
def PassName.toPass (settings : Settings) : PassName → Pass
  | .sort => .sort settings.sort
  | .visibility => .visibility settings.visibility
  | .comments => .comments
  | .cases => .cases

/-! ## The log -/

/-- The notes of reading the text of the file at a path. -/
def readingLog (path : Path) (source : String) : List Log.Entry :=
  let lines := Text.ofText source
  match Dialect.of path with
  | .java => (SourceFile.trace lines).map fun note =>
      ⟨.trace, "declfmt_parser::java::parsing::parser", note.message⟩
  | .python => (Block.trace lines).map fun note =>
      ⟨.trace, "declfmt_parser::python::parsing", note.message⟩

/-- The notes of reading some files one after the other, each after the ones before it were
processed. -/
def batchTrace (tree : Tree) (pass : Pass) (mode : Mode) : List FileResult → List Log.Entry
  | [] => []
  | result :: results =>
    let notes := match tree.read result.path with
      | .ok source => readingLog result.path source
      | .error _ => []
    notes ++ batchTrace (tree.process pass mode result.path).1 pass mode results

/-- The origin of messages about files that are processed. -/
def processorTarget : String := "declfmt::processor"

/-- The messages on a processed file. -/
def resultLog (pass : Pass) (result : FileResult) : List Log.Entry :=
  let path := result.path.text
  match result.outcome with
  | .error _ => []
  | .ok outcome =>
    ⟨.debug, processorTarget,
      path ++ ": " ++ pass.name ++ " pass done (" ++ (Dialect.of result.path).label ++ ")"⟩ ::
    if outcome = .written then [⟨.info, processorTarget, path ++ ": written"⟩] else []

/-- The message of a batch that stopped at a failure. -/
def stopLog (failFast : Bool) (report : Report) : List Log.Entry :=
  if failFast then
    report.failures.map fun e =>
      ⟨.warn, processorTarget, e.path.text ++ ": stopping after first failure"⟩
  else []

/-- The messages on files that a pass does not apply to. -/
def skipLog (pass : Pass) (files : List Path) : List Log.Entry :=
  (files.filter fun file => !(Dialect.of file).supports pass).map fun file =>
    ⟨.debug, "declfmt",
      file.text ++ ": " ++ pass.name ++ " pass skipped for " ++ (Dialect.of file).label⟩

/-- The message on a run that found nothing to do. -/
def idleLog (pass : Pass) (files : List Path) : List Log.Entry :=
  if files.isEmpty then
    [⟨.warn, "declfmt", "no files for the " ++ pass.name ++ " pass under the given paths"⟩]
  else []

/-- The message on how many files were found. -/
def discoveryLog (files : List Path) : List Log.Entry :=
  [⟨.debug, "declfmt::discovery", "discovered " ++ toString files.length ++ " file(s)"⟩]

/-! ## Commands -/

/-- The diffs of a report. -/
def diffs (report : Report) : String :=
  String.join (report.outcomes.map fun
    | .wouldChange diff => diff
    | .unchanged | .written => "")

/-- The exit code of a batch. -/
def exitCode (mode : Mode) (report : Report) : Nat :=
  if report.hasFailures then 1
  else if mode = .dryRun && report.hasChanges then 2
  else 0

/-- Applies a pass to the files under some paths. -/
def runPass (tree : Tree) (options : Options) (settings : Settings) (pass : Pass)
    (paths : List Path) : Tree × Output :=
  let paths := if paths.isEmpty then [settings.root] else paths
  match tree.discover settings.extensions paths with
  | .error e => (tree, failed e.message [])
  | .ok found =>
    let files := found.filter fun file => (Dialect.of file).supports pass
    let mode := if options.dryRun then Mode.dryRun else Mode.apply
    let (after, report) := tree.processAll pass mode settings.failFast files
    let notes :=
      if options.level = .trace then batchTrace tree pass mode report.results else []
    let log := discoveryLog found ++ skipLog pass found ++ idleLog pass files ++ notes ++
      report.results.flatMap (resultLog pass) ++ stopLog settings.failFast report
    (after, ⟨exitCode mode report, diffs report, report.failures.map ProcessError.message,
      upTo options.level log⟩)

/-- An outline as it is printed. -/
def outlineText (format : OutlineFormat) (outline : Outline) : String :=
  match format with
  | .tree => outline.tree
  | .json => outline.json ++ "\n"

/-- Shows the outline of a file. -/
def runOutline (tree : Tree) (options : Options) (file : Path) (format : OutlineFormat) : Output :=
  match tree.read file with
  | .error e => failed (file.text ++ ": " ++ e.message) []
  | .ok source =>
    let log := upTo options.level (readingLog file source)
    match Outline.ofSource file source with
    | .error e => failed (file.text ++ ": " ++ e.message) log
    | .ok outline => { code := 0, stdout := outlineText format outline, log }

/-- Carries out a command. -/
def runCommand (tree : Tree) (options : Options) (command : Command) : Tree × Output :=
  match settingsOf tree options with
  | .error e => (tree, failed e.message [])
  | .ok settings =>
    match command with
    | .pass name paths => runPass tree options settings (name.toPass settings) paths
    | .outline file format => (tree, runOutline tree options file format)

/-- The file tree after a run, and how the run ends. -/
def run (tree : Tree) (arguments : List String) : Tree × Ending :=
  match Request.parse arguments with
  | .run options command =>
    let (tree, output) := runCommand tree options command
    (tree, .done output)
  | .version => (tree, .done { code := 0, stdout := versionText })
  | .help => (tree, .shown 0)
  | .usage => (tree, .shown 2)

/-- The line on standard error for something that failed. -/
def errorLine (message : String) : String := "error: " ++ message

end HouseStyle.CommandLine
