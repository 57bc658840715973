import SymbolAtlas.Frontend
import SymbolAtlas.Text.Json

/-!
# A scripted frontend

Serves units that were made by hand, so that an indexer can be driven through exact sequences of
cursors, failing parses, and files that change while they are parsed.
-/

set_option autoImplicit false

namespace SymbolAtlas.Scripted

/-- Which attempts to parse a file fail. -/
inductive Failure where
  | withPreamble
  | withoutPreamble
  | always
deriving DecidableEq, Repr

/-- The attempt fails. -/
def Failure.strikes (f : Failure) (usesPreamble : Bool) : Bool :=
  match f with
  | .withPreamble => usesPreamble
  | .withoutPreamble => !usesPreamble
  | .always => true

/-- One call of `parse`. -/
structure Call where
  file : Path
  options : List String

/-- The call handed a preamble over. -/
def Call.usedPreamble (c : Call) : Bool := c.options.contains preambleFlag

/-- The script, and what was asked of it so far. -/
structure State where
  /-- Units by the file they are made from; a later one replaces an earlier one. -/
  units : List TranslationUnit := []
  failures : List (Path × Failure) := []
  /-- What happens to the files while a file is parsed. -/
  hook : Path → FileSystem → FileSystem := fun _ files => files
  calls : List Call := []
  /-- The headers of every preamble that was built. -/
  builds : List PreambleInputs := []

/-- Registers a unit. -/
def State.insertUnit (s : State) (u : TranslationUnit) : State :=
  { s with units := s.units ++ [u] }

/-- Serves the unit of a file. -/
def parse (file : Path) (options : List String) (w : World State) :
    Except FrontendError TranslationUnit × World State :=
  let call : Call := { file, options }
  let w' : World State :=
    { w with
      files := w.state.hook file w.files
      state := { w.state with calls := w.state.calls ++ [call] } }
  let failing := (w.state.failures.reverse.find? (·.1 == file)).any fun f =>
    f.2.strikes call.usedPreamble
  if failing then (.error (.parse file "scripted failure"), w')
  else
    match w.state.units.reverse.find? (·.mainFile == file) with
    | some u => (.ok u, w')
    | none => (.error (.parse file "no scripted unit registered"), w')

/-- Writes the headers of a preamble as its artifact. -/
def buildPreamble (inputs : PreambleInputs) (_ : List String) (output : Path) (w : World State) :
    Except FrontendError Unit × World State :=
  let w := { w with state := { w.state with builds := w.state.builds ++ [inputs] } }
  let manifest := Text.Json.array (inputs.all.map fun p => .string p.text)
  let (written, files) := w.files.writeBelow output manifest.compact.toUTF8
  (written.mapError .io, { w with files })

/-- The frontend that follows a script. -/
def frontend : Frontend State := { parse, buildPreamble }

end SymbolAtlas.Scripted
