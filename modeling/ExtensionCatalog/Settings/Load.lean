/-
**Settings files.**

* `Settings.load`: the settings of a file, which have to be usable;
* `Settings.loadDefault`: the settings of the usual file, which is made if it is missing.
-/

import ExtensionCatalog.Performed
import ExtensionCatalog.Settings.Basic

namespace ExtensionCatalog

/-- Why a run has no settings. -/
inductive SettingsError where
  | unreadable (path : FilePath)
  | malformed (path : FilePath)
  | unusable (fault : SettingsFault)
  /-- The place of the usual file is not known. -/
  | noPlace
  | noDirectory (path : FilePath)
  | noFile (path : FilePath)
deriving DecidableEq

/-- The text shown for an error, in front of that of its cause. -/
def SettingsError.message : SettingsError → String
  | unreadable path => s!"Failed to read config file: {path.text}"
  | malformed path => s!"Failed to parse config file: {path.text}"
  | unusable fault => fault.message
  | noPlace => "Failed to determine project directories"
  | noDirectory path => s!"Failed to create config directory: {path.text}"
  | noFile path => s!"Failed to write default config file: {path.text}"

/-- The directories that a user has. -/
structure UserDirectories where
  home : Option FilePath
  settings : Option FilePath

/-- Where the usual settings file stands. -/
def UserDirectories.settingsFile (directories : UserDirectories) : Option FilePath :=
  directories.settings.map fun directory =>
    (directory.joinText "nar-docgen").joinText "config.toml"

namespace Settings

/-- The settings that a run can use, or the reason why it cannot. -/
def checked (settings : Settings) : Except SettingsError Settings :=
  match settings.validate with
  | .ok () => .ok settings
  | .error fault => .error (.unusable fault)

/-- The settings of a file. -/
def load (tree : FileTree) (path : FilePath) : Except SettingsError Settings :=
  match tree.readText? path with
  | none => .error (.unreadable path)
  | some content =>
    match ofToml? content with
    | none => .error (.malformed path)
    | some settings => settings.checked

/-- The changes that make the usual file with its directory. -/
def defaultFile (path : FilePath) : List FileTree.Change :=
  path.parent?.toList.map .makeDirectories ++
    [.write path (Text.Utf8.encode defaultText.toList)]

/-- The settings of the usual file, which is made if it is missing. -/
def loadFrom (tree : FileTree) (path : FilePath) : Performed (Except SettingsError Settings) :=
  if tree.exists? path then ⟨[], [], load tree path⟩
  else
    let directory := path.parent?.getD ⟨""⟩
    let changes := defaultFile path
    let (changed, possible) := tree.applyAll changes
    if possible then
      let line := s!"Created default configuration file at: {path.text}"
      ⟨changes, [⟨.info, line⟩], load changed path⟩
    else if (tree.makeDirectories directory).2 then ⟨changes, [], .error (.noFile path)⟩
    else ⟨changes, [], .error (.noDirectory directory)⟩

/-- The settings of the usual file, if its place is known. -/
def loadDefault (tree : FileTree) (directories : UserDirectories) :
    Performed (Except SettingsError Settings) :=
  match directories.settingsFile with
  | some path => loadFrom tree path
  | none => ⟨[], [], .error .noPlace⟩

end Settings

end ExtensionCatalog
