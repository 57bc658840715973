import SymbolAtlas.Settings
import SymbolAtlas.Toml.Table

/-!
# Settings in TOML

How a TOML document holds settings.  Every key may be missing, and unknown keys do not matter, but a
value of the wrong kind spoils the document.  A group of settings can be written as a table or, in
their fixed order, as an array.
-/

set_option autoImplicit false

namespace SymbolAtlas

open Toml

/-- Values by the names of fields. -/
abbrev FieldValues := String → Option Value

/-- The fields that a value holds: a table by their names, an array by their positions; a date or a
    time holds none of them. -/
def FieldValues.of? (names : List String) : Value → Option FieldValues
  | .table entries => some fun name => entries.lookup name
  | .array items => some fun name => (names.zip items).lookup name
  | .moment => some fun _ => none
  | _ => none

/-- Reads a field; the default stands for a missing one. -/
def FieldValues.read {α : Type} (fields : FieldValues) (name : String) (decode : Value → Option α)
    (default : α) : Option α :=
  match fields name with
  | none => some default
  | some v => decode v

/-- Reads a text. -/
def Toml.Value.text? : Value → Option String
  | .text s => some s
  | _ => none

/-- Reads a number that is not negative. -/
def Toml.Value.nat? : Value → Option Nat
  | .integer (.ofNat n) => some n
  | _ => none

/-- Reads a truth value. -/
def Toml.Value.bool? : Value → Option Bool
  | .boolean b => some b
  | _ => none

/-- Reads a list of texts. -/
def Toml.Value.texts? : Value → Option (List String)
  | .array items => items.mapM Value.text?
  | _ => none

/-- Reads the settings of an analysis. -/
def AnalysisSettings.ofToml? (v : Value) : Option AnalysisSettings := do
  let default : AnalysisSettings := {}
  let fields ← FieldValues.of?
    ["parallelism", "include_paths", "defines", "exclude_patterns", "extra_args"] v
  let parallelism ← fields.read "parallelism" Value.nat? default.parallelism
  let includePaths ← fields.read "include_paths" (fun v => (Value.texts? v).map (·.map Path.mk))
    default.includePaths
  let defines ← fields.read "defines" Value.texts? default.defines
  let excludePatterns ← fields.read "exclude_patterns" Value.texts? default.excludePatterns
  let extraArgs ← fields.read "extra_args" Value.texts? default.extraArgs
  pure { parallelism, includePaths, defines, excludePatterns, extraArgs }

/-- Reads the settings of preambles. -/
def PreambleSettings.ofToml? (v : Value) : Option PreambleSettings := do
  let default : PreambleSettings := {}
  let fields ← FieldValues.of? ["enabled", "language", "directory", "build_after"] v
  let enabled ← fields.read "enabled" Value.bool? default.enabled
  let language ← fields.read "language" Value.text? default.language
  let directory ← fields.read "directory" (fun v => (Value.text? v).map Path.mk) default.directory
  let buildAfter ← fields.read "build_after" Value.nat? default.buildAfter
  pure { enabled, language, directory, buildAfter }

/-- Reads what is shown for diagnosis. -/
def dumpTreeOf? (v : Value) : Option (Option String) := do
  let fields ← FieldValues.of? ["dump_tree"] v
  fields.read "dump_tree" (fun v => (Value.text? v).map some) none

/-- Reads how much is logged. -/
def logLevelOf? (v : Value) : Option String := do
  let fields ← FieldValues.of? ["level"] v
  fields.read "level" Value.text? ({} : Settings).logLevel

/-- Reads all settings. -/
def Settings.ofToml? (v : Value) : Option Settings := do
  let default : Settings := {}
  let fields ← FieldValues.of? ["analysis", "preamble", "diagnostics", "logging"] v
  let analysis ← fields.read "analysis" AnalysisSettings.ofToml? default.analysis
  let preamble ← fields.read "preamble" PreambleSettings.ofToml? default.preamble
  let dumpTree ← fields.read "diagnostics" dumpTreeOf? default.dumpTree
  let logLevel ← fields.read "logging" logLevelOf? default.logLevel
  pure { analysis, preamble, dumpTree, logLevel }

end SymbolAtlas
