import SymbolAtlas.CommandLine.Arguments
import SymbolAtlas.Location
import SymbolAtlas.Settings

/-!
# Requests

What a command line asks for: a command with its inputs, options for the compiler, and options that
hold for every command and may stand on either side of its name.
-/

set_option autoImplicit false

namespace SymbolAtlas

/-- Values of variables. -/
abbrev Environment := String → Option String

/-- Options of every command. -/
structure GlobalOptions where
  /-- Stands in for the settings file of the workspace. -/
  configFile : Option Path := none
  verbose : Bool := false
  quiet : Bool := false

/-- The inputs of a command and how they are compiled. -/
structure SourceArguments where
  inputs : List Path := [⟨"."⟩]
  includePaths : List Path := []
  defines : List String := []
  noPreamble : Bool := false
  dumpTree : Option String := none
  jobs : Option Nat := none

/-- What is to be told about the sources. -/
inductive Command where
  /-- A summary. -/
  | index (json : Bool)
  /-- The symbols with a name. -/
  | symbols (name : String) (withReferences : Bool)
  /-- The uses of the symbol at a place. -/
  | refs (place : Location)
  /-- The declarations in a file. -/
  | outline (file : Path)

/-- What a command line asks for. -/
structure Request where
  options : GlobalOptions
  sources : SourceArguments
  command : Command

/-- The largest unsigned 64-bit number. -/
def maxWord64 : Nat := 18446744073709551615

/-- The text names a path. -/
def isPathText (s : String) : Bool := s != ""

/-- The options of every command. -/
def globalForms : List OptionForm := [
  { name := "config", short := some 'c', standIn := some "CXGRAPH_CONFIG", accepts := isPathText },
  { name := "verbose", short := some 'v', isFlag := true },
  { name := "quiet", short := some 'q', isFlag := true }]

/-- The options that tell how sources are compiled. -/
def sourceForms : List OptionForm := [
  { name := "include", short := some 'I', repeatable := true, accepts := isPathText },
  { name := "define", short := some 'D', repeatable := true },
  { name := "no-preamble", isFlag := true, standIn := some "CXGRAPH_NO_PREAMBLE",
    accepts := fun v => v == "true" || v == "false" },
  { name := "dump-tree", standIn := some "CXGRAPH_DUMP" },
  { name := "jobs", short := some 'j',
    accepts := fun v => (Text.readNat? maxWord64 v).isSome }]

/-- The names of the commands. -/
def commandNames : List String := ["index", "symbols", "refs", "outline"]

/-- The options of a command alone. -/
def commandForms (fs : FileSystem) : String → List OptionForm
  | "index" => [{ name := "json", isFlag := true }]
  | "symbols" => [
    { name := "name", short := some 'n', required := true },
    { name := "with-references", isFlag := true }]
  | "refs" => [
    { name := "at", required := true, accepts := fun v => (Location.parse fs v).toOption.isSome }]
  | "outline" => [{ name := "file", short := some 'f', required := true, accepts := isPathText }]
  | _ => []

/-- The arguments before the name of a command. -/
def rootForm : ArgumentForm :=
  { program := "cxgraph", options := globalForms, hasCommands := true }

/-- The arguments of a command. -/
def commandForm (fs : FileSystem) (name : String) : ArgumentForm where
  program := "cxgraph-" ++ name
  options := commandForms fs name ++ sourceForms ++ globalForms
  acceptsInput := isPathText

namespace GlobalOptions

/-- The options of every command among the arguments of one side. -/
def ofArguments (a : Arguments) : GlobalOptions where
  configFile := (a.value? "config").map Path.mk
  verbose := a.flag "verbose"
  quiet := a.flag "quiet"

/-- Options after the name of a command, within those before it. -/
def within (inner outer : GlobalOptions) : GlobalOptions where
  configFile := inner.configFile <|> outer.configFile
  verbose := outer.verbose || inner.verbose
  quiet := outer.quiet || inner.quiet

end GlobalOptions

namespace SourceArguments

/-- The inputs of a command and how they are compiled. -/
def ofArguments (a : Arguments) : SourceArguments where
  inputs := if a.inputs.isEmpty then [⟨"."⟩] else a.inputs.map Path.mk
  includePaths := (a.all "include").map Path.mk
  defines := a.all "define"
  noPreamble := a.flag "no-preamble"
  dumpTree := a.value? "dump-tree"
  jobs := (a.value? "jobs").bind (Text.readNat? maxWord64)

/-- The settings that the arguments override. -/
def overrides (a : SourceArguments) : Overrides where
  parallelism := a.jobs
  noPreamble := a.noPreamble
  dumpTree := a.dumpTree
  includePaths := a.includePaths
  defines := a.defines

end SourceArguments

/-- The command with a name. -/
def Command.ofArguments? (fs : FileSystem) (a : Arguments) : String → Option Command
  | "index" => some (.index (a.flag "json"))
  | "symbols" => (a.value? "name").map fun name => .symbols name (a.flag "with-references")
  | "refs" => do
    let text ← a.value? "at"
    let place ← (Location.parse fs text).toOption
    pure (.refs place)
  | "outline" => (a.value? "file").map fun file => .outline ⟨file⟩
  | _ => none

/-- What the command `help` leads to, by the names behind it.  It explains the program or one
    command; commands have no commands of their own. -/
def helpOn : List String → Interruption
  | [] => .help rootForm.program
  | name :: rest =>
    if name = "help" ∨ commandNames.contains name then
      match rest with
      | [] => .help rootForm.program
      | other :: _ => .usage (.unknownCommand other)
    else .usage (.unknownCommand name)

/-- Reads a command line.  A variable of the environment yields to an option on either side of the
    command. -/
def Request.read (fs : FileSystem) (environment : Environment) (texts : List String) :
    Except Interruption Request := do
  let before ← rootForm.readGiven texts
  match before.command with
  | none => throw (.usage .missingCommand)
  | some (name, rest) =>
    if name = "help" then
      throw (helpOn rest)
    else if !commandNames.contains name then throw (.usage (.unknownCommand name))
    else
      let form := commandForm fs name
      let given ← form.readGiven rest
      let after ← form.complete environment given
      let before ← rootForm.complete environment before
      match Command.ofArguments? fs after name with
      | none => throw (.usage (.unknownCommand name))
      | some command =>
        pure { options := (GlobalOptions.ofArguments given).within (.ofArguments before)
               sources := .ofArguments after
               command }

end SymbolAtlas
