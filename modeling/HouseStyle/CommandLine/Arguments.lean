import HouseStyle.CommandLine.Log
import HouseStyle.Files.Path
import HouseStyle.Outline

/-!
# Arguments

A command line names a command, a pass with paths or the outline with a file, among options that
may stand on either side of the name. An option can be given once on each side; the side behind the
name wins.

* `Request`: what a command line asks for.
* `Request.parse`: the reading of a command line.
-/

namespace HouseStyle.CommandLine

/-- The commands that apply a pass. -/
inductive PassName where
  | sort
  | visibility
  | comments
  | cases
  deriving DecidableEq, Repr

/-- What is to be done. -/
inductive Command where
  /-- A pass over some paths, or over the configured root if there are none. -/
  | pass (name : PassName) (paths : List Path)
  | outline (file : Path) (format : OutlineFormat)
  deriving DecidableEq, Repr

/-- What the options that every command takes say. -/
structure Options where
  dryRun : Bool
  failFast : Bool
  config : Option String
  level : Log.Level
  deriving DecidableEq, Repr

/-- What a command line asks for. -/
inductive Request where
  | run (options : Options) (command : Command)
  | version
  | help
  /-- The command line cannot be read. -/
  | usage
  deriving DecidableEq, Repr

/-! ## Tokens -/

/-- The options without a value. -/
inductive Switch where
  | dryRun
  | failFast
  deriving DecidableEq, Repr

/-- The options with a value. -/
inductive Setting where
  | config
  | level
  | format
  deriving DecidableEq, Repr

/-- Where an argument stands: in front of the command, or behind a pass or the outline. -/
inductive Position where
  | front
  | pass
  | outline
  deriving DecidableEq, Repr

/-- What an argument is. -/
inductive Token where
  | switch (switch : Switch)
  /-- An option with the value that is part of the argument, if there is one. -/
  | setting (setting : Setting) (value : Option String)
  | version
  | help
  /-- Two hyphens, behind which nothing is an option. -/
  | separator
  | operand
  | unknown
  deriving DecidableEq, Repr

/-- The option of the given long name. -/
def longToken (position : Position) (name : String) (value : Option String) : Token :=
  match name, value with
  | "dry-run", none => .switch .dryRun
  | "fail-fast", none => .switch .failFast
  | "config", _ => .setting .config value
  | "log-level", _ => .setting .level value
  | "format", _ => if position = .outline then .setting .format value else .unknown
  | "help", none => .help
  | "version", none => if position = .front then .version else .unknown
  | _, _ => .unknown

/-- The option of the given letter; what stands behind the letter is its value. -/
def shortToken (position : Position) (letter : Char) (behind : List Char) : Token :=
  let value := if behind.isEmpty then none
    else some (String.ofList (if behind.head? == some '=' then behind.drop 1 else behind))
  if letter = 'c' then .setting .config value
  else if letter = 'f' && position = .outline then .setting .format value
  else if letter = 'h' then .help
  else if letter = 'V' && position = .front then .version
  else .unknown

/-- What an argument is at a position. -/
def tokenOf (position : Position) (argument : String) : Token :=
  match argument.toList with
  | ['-', '-'] => .separator
  | '-' :: '-' :: long =>
    let name := long.takeWhile (· != '=')
    let rest := long.drop name.length
    longToken position (String.ofList name)
      (if rest.isEmpty then none else some (String.ofList (rest.drop 1)))
  | '-' :: letter :: behind => shortToken position letter behind
  | _ => .operand

/-! ## Options -/

/-- The options given at one position. -/
structure Given where
  dryRun : Bool := false
  failFast : Bool := false
  config : Option String := none
  level : Option Log.Level := none
  format : Option OutlineFormat := none

namespace Given

/-- Adds a switch that is not there yet. -/
def addSwitch? (given : Given) : Switch → Option Given
  | .dryRun => if given.dryRun then none else some { given with dryRun := true }
  | .failFast => if given.failFast then none else some { given with failFast := true }

/-- Adds an option that is not there yet, if the value is one of its values. -/
def addSetting? (given : Given) (setting : Setting) (value : String) : Option Given :=
  match setting with
  | .config =>
    if given.config.isSome || value == "" then none else some { given with config := some value }
  | .level =>
    match given.level, Log.Level.ofName? value with
    | none, some level => some { given with level := some level }
    | _, _ => none
  | .format =>
    match given.format, OutlineFormat.ofName? value with
    | none, some format => some { given with format := some format }
    | _, _ => none

/-- The options in front of the command and behind it together. -/
def options (front behind : Given) : Options where
  dryRun := front.dryRun || behind.dryRun
  failFast := front.failFast || behind.failFast
  config := behind.config.or front.config
  level := (behind.level.or front.level).getD .warn

end Given

/-- Whether an argument can be the value of the option in front of it. -/
def isValue (argument : String) : Bool :=
  match tokenOf .front argument with
  | .operand => true
  | _ => false

/-! ## Reading -/

/-- The command of the given operands. -/
def commandOf? (pass : Option PassName) (given : Given) (operands : List String) :
    Option Command :=
  if operands.contains "" then none
  else
    match pass, operands with
    | some name, _ => some (.pass name (operands.map Path.mk))
    | none, [file] => some (.outline ⟨file⟩ (given.format.getD .tree))
    | none, _ => none

/-- Whether a command takes one more operand. A pass takes any number of paths, the outline one
file, and no operand may be empty. -/
def takesOperand (pass : Option PassName) (operands : List String) (operand : String) : Bool :=
  operand != "" && (pass.isSome || operands.isEmpty)

/-- The position behind a command. -/
def positionOf : Option PassName → Position
  | some _ => .pass
  | none => .outline

/-- What the arguments behind the name of a command ask for, given those read so far. -/
def readBehind (front : Given) (pass : Option PassName) (given : Given) (operands : List String) :
    List String → Request
  | [] =>
    match commandOf? pass given operands with
    | some command => .run (front.options given) command
    | none => .usage
  | argument :: rest =>
    match tokenOf (positionOf pass) argument with
    | .operand =>
      if takesOperand pass operands argument then
        readBehind front pass given (operands ++ [argument]) rest
      else .usage
    | .switch switch =>
      match given.addSwitch? switch with
      | some given => readBehind front pass given operands rest
      | none => .usage
    | .setting setting (some value) =>
      match given.addSetting? setting value with
      | some given => readBehind front pass given operands rest
      | none => .usage
    | .setting setting none =>
      match rest with
      | [] => .usage
      | value :: rest =>
        match if isValue value then given.addSetting? setting value else none with
        | some given => readBehind front pass given operands rest
        | none => .usage
    | .separator =>
      match commandOf? pass given (operands ++ rest) with
      | some command => .run (front.options given) command
      | none => .usage
    | .help => .help
    | .version | .unknown => .usage

/-- The command of the given name; the outline is the command without a pass. -/
def passOf? : String → Option (Option PassName)
  | "sort" => some (some .sort)
  | "visibility" => some (some .visibility)
  | "comments" => some (some .comments)
  | "cases" => some (some .cases)
  | "outline" => some none
  | _ => none

/-- What a request for help on a command asks for. -/
def readHelp : List String → Request
  | [] => .help
  | [name] => if (passOf? name).isSome || name == "help" then .help else .usage
  | _ => .usage

/-- What the arguments up to the name of the command and behind it ask for. -/
def readFront (given : Given) : List String → Request
  | [] => .usage
  | argument :: rest =>
    match tokenOf .front argument with
    | .operand =>
      match passOf? argument with
      | some pass => readBehind given pass {} [] rest
      | none => if argument == "help" then readHelp rest else .usage
    | .switch switch =>
      match given.addSwitch? switch with
      | some given => readFront given rest
      | none => .usage
    | .setting setting (some value) =>
      match given.addSetting? setting value with
      | some given => readFront given rest
      | none => .usage
    | .setting setting none =>
      match rest with
      | [] => .usage
      | value :: rest =>
        match if isValue value then given.addSetting? setting value else none with
        | some given => readFront given rest
        | none => .usage
    | .version => .version
    | .help => .help
    | .separator | .unknown => .usage

/-- What a command line asks for. -/
def Request.parse (arguments : List String) : Request := readFront {} arguments

end HouseStyle.CommandLine
