import SymbolAtlas.LogFilter
import SymbolAtlas.Queries
import SymbolAtlas.Session
import SymbolAtlas.Settings.Layers

/-!
# Failures

What a command tells when it cannot do its work: what failed, and the chain of causes behind it.
-/

set_option autoImplicit false

namespace SymbolAtlas

/-- A failure and what caused it, each cause before its own cause. -/
structure Failure where
  message : String
  causes : List String := []
deriving DecidableEq, Repr

namespace Failure

/-- A text whose further lines are moved to the right. -/
def indent (width : Nat) (s : String) : String :=
  String.ofList (s.toList.flatMap fun c =>
    if c = '\n' then '\n' :: List.replicate width ' ' else [c])

/-- A number that takes at least five places. -/
def placed (n : Nat) : String :=
  let digits := toString n
  String.ofList (List.replicate (5 - digits.length) ' ') ++ digits

/-- The lines that tell causes; several of them are numbered. -/
def causeLines : List String → List String
  | [cause] => ["    " ++ indent 4 cause]
  | causes => causes.zipIdx.map fun (cause, n) => placed n ++ ": " ++ indent 7 cause

/-- The text of a failure. -/
def text (f : Failure) : String :=
  match f.causes with
  | [] => s!"Error: {f.message}"
  | causes => "\n".intercalate (s!"Error: {f.message}" :: "" :: "Caused by:" :: causeLines causes)

/-- The causes behind a settings error, the error itself first. -/
def settingsCauses (e : SettingsError) : List String :=
  match e with
  | .unreadable _ error => [e.message, error.message]
  | _ => [e.message]

/-- Settings cannot be loaded. -/
def ofSettings (project : ProjectFile) (e : SettingsError) : Failure where
  message := match project with
    | .named file => s!"Failed to load config file {file.text}"
    | .inWorkspace _ => "Failed to load configuration"
  causes := settingsCauses e

/-- The log filter cannot be read; the settings hold the text `configured`. -/
def ofLogFilter (configured : String) (e : LogFilterError) : Failure where
  message := s!"Invalid log level '{configured}'"
  causes := e.messages

/-- Nothing can be indexed. -/
def ofSession : SessionError → Failure
  | .discovery e => { message := "Failed to collect sources", causes := [e.message] }
  | .noSources => { message := "No C or C++ sources found" }

end Failure

end SymbolAtlas
