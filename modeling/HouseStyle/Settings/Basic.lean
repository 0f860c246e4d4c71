import HouseStyle.Declaration.Sort
import HouseStyle.Declaration.Visibility
import HouseStyle.Files.Path
import HouseStyle.Files.Tree
import HouseStyle.Settings.Config
import HouseStyle.Text.Utf8

/-!
# Settings

What a run works with. Settings are read from a configuration that begins with the defaults, and
are checked before any file is touched: the sort order first, then the access modifier.

* `Config.defaults`: the configuration that every other one is laid over.
* `Config.addFile`: a configuration with a file laid over it.
* `Settings.of`: the settings that a configuration describes.
-/

namespace HouseStyle

open Toml

/-- What a run works with. -/
structure Settings where
  sort : SortOptions
  visibility : Visibility
  /-- Where files are looked for when no paths are given. -/
  root : Path
  /-- The extensions of the files that directories contribute. -/
  extensions : List String
  failFast : Bool
  deriving DecidableEq, Repr

/-- Why a configuration cannot be used. -/
inductive ConfigError where
  | missingFile (name : String)
  | malformedFile (name : String)
  | malformedKey (key : String)
  /-- The value at a key is of the wrong kind. -/
  | wrongKind (key : String)
  deriving DecidableEq, Repr

/-- What is said about the error. -/
def ConfigError.message : ConfigError → String
  | .missingFile name => "configuration file \"" ++ name ++ "\" not found"
  | .malformedFile name => "configuration file \"" ++ name ++ "\" is malformed"
  | .malformedKey key => "malformed configuration key \"" ++ key ++ "\""
  | .wrongKind key => "configuration key \"" ++ key ++ "\" has a value of the wrong kind"

/-- Why there are no settings. -/
inductive SettingsError where
  | config (error : ConfigError)
  | category (error : UnknownCategory)
  | visibility (error : UnknownVisibility)
  deriving DecidableEq, Repr

/-- What is said about the error. -/
def SettingsError.message : SettingsError → String
  | .config e => e.message
  | .category e => "sort.order: " ++ e.message
  | .visibility e => "visibility.default: " ++ e.message

namespace Config

/-- Texts as an array. -/
def textArray (texts : List String) : Value := .array (texts.map .string)

/-- The configuration of a run for which nothing is configured. -/
def defaults : Config where
  root := .table [
    ("sort", .table [
      ("order", textArray (CategoryOrder.default.categories.map Category.label)),
      ("enum_constants", .boolean true)]),
    ("visibility", .table [("default", .string Visibility.isPublic.keyword)]),
    ("files", .table [
      ("root", .string "src/main/java"),
      ("extensions", textArray ["java", "py"]),
      ("fail_fast", .boolean false)])]

/-! ## Files -/

/-- Bytes without a byte order mark at their start. -/
def dropMark : List UInt8 → List UInt8
  | 0xef :: 0xbb :: 0xbf :: bytes => bytes
  | bytes => bytes

/-- The text of a configuration file, which may be named without its extension. Bytes that are no
text are allowed where every character is, in comments and strings. -/
def fileText? (tree : Tree) (name : String) : Option String :=
  let candidates := ⟨name⟩ :: (Path.extended? ⟨name⟩ ".toml").toList
  candidates.findSome? fun path =>
    match tree.readBytes path with
    | .ok content => some (Text.decodeUtf8 (dropMark content.toList))
    | .error _ => none

/-- A configuration with a file laid over it. A file that is not required may be missing, but not
malformed. -/
def addFile (tree : Tree) (config : Config) (name : String) (required : Bool) :
    Except ConfigError Config :=
  match fileText? tree name with
  | none => if required then .error (.missingFile name) else .ok config
  | some text =>
    match parse text with
    | none => .error (.malformedFile name)
    | some entries => .ok (config.layer entries)

/-- A configuration with a value laid over what is at a path. -/
def override (config : Config) (key : String) (value : Value) : Except ConfigError Config :=
  match config.set? key value with
  | some config => .ok config
  | none => .error (.malformedKey key)

/-- What the value of a field of a section stands for. -/
def require {α : Type} (config : Config) (read : Value → Option α) (table key : String)
    (place : Nat) : Except ConfigError α :=
  match (config.field? table key place).bind read with
  | some a => .ok a
  | none => .error (.wrongKind (table ++ "." ++ key))

end Config

/-! ## Settings -/

/-- Settings whose names are not checked yet. -/
structure RawSettings where
  order : List String
  enumConstants : Bool
  visibility : String
  root : String
  extensions : List String
  failFast : Bool
  deriving DecidableEq, Repr

/-- The settings in a configuration, with values of the right kinds. -/
def RawSettings.of (config : Config) : Except ConfigError RawSettings := do
  let order ← config.require Config.texts? "sort" "order" 0
  let enumConstants ← config.require Config.boolean? "sort" "enum_constants" 1
  let visibility ← config.require Config.text? "visibility" "default" 0
  let root ← config.require Config.text? "files" "root" 0
  let extensions ← config.require Config.texts? "files" "extensions" 1
  let failFast ← config.require Config.boolean? "files" "fail_fast" 2
  return ⟨order, enumConstants, visibility, root, extensions, failFast⟩

/-- The settings with their names checked. -/
def RawSettings.check (raw : RawSettings) : Except SettingsError Settings :=
  match CategoryOrder.ofNames raw.order with
  | .error e => .error (.category e)
  | .ok order =>
    match Visibility.parse raw.visibility with
    | .error e => .error (.visibility e)
    | .ok visibility =>
      .ok ⟨⟨order, raw.enumConstants⟩, visibility, ⟨raw.root⟩, raw.extensions, raw.failFast⟩

/-- The settings that a configuration describes. -/
def Settings.of (config : Config) : Except SettingsError Settings :=
  match RawSettings.of config with
  | .error e => .error (.config e)
  | .ok raw => raw.check

end HouseStyle
