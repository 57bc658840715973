import SymbolAtlas.FileSystem
import SymbolAtlas.Settings.Stored
import SymbolAtlas.Toml.Reader

/-!
# Layers of settings

Settings come from the file of a user, then from the file of a project, then from the command line.
A project file is looked for in the workspace, where it may be missing, or named by the user, where
it must not be.
-/

set_option autoImplicit false

namespace SymbolAtlas

/-- Why settings cannot be loaded. -/
inductive SettingsError where
  | unreadable (file : Path) (error : FileError)
  /-- The file is no TOML document, or holds a value of the wrong kind. -/
  | malformed (file : Path)
  | invalid (error : InvalidSetting)

/-- The wording of a settings error. -/
def SettingsError.message : SettingsError → String
  | .unreadable file error => s!"cannot read cxgraph settings from '{file.text}': {error.message}"
  | .malformed file => s!"malformed cxgraph settings in '{file.text}'"
  | .invalid error => error.message

/-- Where the settings of a project are kept. -/
inductive ProjectFile where
  /-- In the workspace, if there are any. -/
  | inWorkspace (root : Path)
  /-- In this very file. -/
  | named (file : Path)

namespace Settings

/-- The name of a settings file in its directory. -/
def fileName : Path := ⟨"config.toml"⟩

/-- The settings file of a user, below the directory for settings. -/
def userFile (userDir : Path) : Path := userDir.join fileName

/-- The directory for settings, below a home directory or a workspace. -/
def directory : Path := ⟨".cxgraph"⟩

/-- The settings file of a workspace. -/
def workspaceFile (root : Path) : Path := (root.join directory).join fileName

/-- Reads a settings file. -/
def readFile (fs : FileSystem) (file : Path) : Except SettingsError Settings := do
  let text ← (fs.readText file).mapError (SettingsError.unreadable file)
  match (Toml.parse? text).bind ofToml? with
  | some s => pure s
  | none => throw (.malformed file)

/-- Reads a settings file if there is one. -/
def readIfPresent (fs : FileSystem) (file : Path) : Except SettingsError (List Settings) :=
  if fs.exists? file then (readFile fs file).map ([·]) else .ok []

/-- Reads the settings of a project. -/
def readProject (fs : FileSystem) : ProjectFile → Except SettingsError (List Settings)
  | .inWorkspace root => readIfPresent fs (workspaceFile root)
  | .named file => (readFile fs file).map ([·])

/-- Reads the settings of a user, if they have a directory for settings. -/
def readUser (fs : FileSystem) : Option Path → Except SettingsError (List Settings)
  | some dir => readIfPresent fs (userFile dir)
  | none => .ok []

/-- The settings that files and a command line make up.  The project's file is read before the
    user's. -/
def load (fs : FileSystem) (userDir : Option Path) (project : ProjectFile) (o : Overrides) :
    Except SettingsError Settings := do
  let upper ← readProject fs project
  let lower ← readUser fs userDir
  (((stack (lower ++ upper)).apply o).validate).mapError .invalid

end Settings

end SymbolAtlas
