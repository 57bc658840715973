import SymbolAtlas.CommandLine.Failure
import SymbolAtlas.CommandLine.Report
import SymbolAtlas.CommandLine.Request

/-!
# Running a command line

What a command line prints, and the status it ends with: 0 if all went well, 1 if the work failed,
2 if the command line itself is wrong, and 101 if the program broke off.  A graph lives for one
run, so every command indexes its inputs first.
-/

set_option autoImplicit false

namespace SymbolAtlas

/-- What a run leaves behind. -/
structure RunResult where
  status : Nat := 0
  /-- The text on standard output. -/
  output : String := ""
  /-- The text on standard error, without the log. -/
  complaints : String := ""
  log : List String := []
  files : FileSystem

/-- The version of the program. -/
def versionText : String := "0.1.0"

/-- How the program is called. -/
def usageText : String :=
  "Usage: cxgraph [--config FILE] [--verbose] [--quiet] COMMAND [PATH]...\n\n"
    ++ "Commands:\n"
    ++ "  index    Index sources and print a summary (--json)\n"
    ++ "  symbols  Find symbols by name (--name NAME, --with-references)\n"
    ++ "  refs     List references to a symbol (--at FILE:LINE:COL)\n"
    ++ "  outline  Show the declarations of one file (--file FILE)\n\n"
    ++ "Options of every command:\n"
    ++ "  -I, --include DIR, -D, --define DEF, --no-preamble, --dump-tree NAME, -j, --jobs N\n"

/-- Texts on lines of their own. -/
def linesText (lines : List String) : String := String.join (lines.map (· ++ "\n"))

/-- The level at which a notice is logged. -/
def Notice.level : Notice → LogLevel
  | .cursorTree .. => .info
  | _ => .warn

namespace Command

/-- The answer of a command, from the run that indexed its inputs. -/
def answer (summary : Indexer.Summary) (ix : Indexer SyntaxFrontend.State) :
    Command → Except String String
  | .index json =>
    let report := IndexReport.ofSummary summary ix.graph
    .ok (if json then report.toJson.pretty ++ "\n" else linesText report.lines)
  | .symbols name withReferences =>
    match ix.graph.symbols name withReferences with
    | [] => .error s!"No symbol named '{name}'"
    | found => .ok (linesText (found.map ix.graph.describe))
  | .refs place =>
    match ix.graph.symbolAt place with
    | .error e => .error e.message
    | .ok i =>
      .ok (linesText (ix.graph.describe i :: (ix.graph.uses i).map fun l => "  " ++ l.text))
  | .outline file =>
    let path := ix.world.files.canonicalPath file
    match ix.graph.outline path with
    | [] => .error s!"No declarations in {path.text}"
    | nodes =>
      .ok (linesText ((ix.graph.nested nodes).map fun (depth, i) =>
        String.join (List.replicate depth "  ") ++ ix.graph.describe i))

end Command

namespace Request

/-- The log filter of a request; `configured` is the one of the settings. -/
def logFilter (r : Request) (configured : String) : String :=
  if r.options.quiet then "error" else if r.options.verbose then "debug" else configured

/-- A run that failed before it printed anything. -/
def failed (fs : FileSystem) (f : Failure) : RunResult where
  status := 1
  complaints := f.text ++ "\n"
  files := fs

/-- A run that broke off without a word. -/
def broken (fs : FileSystem) : RunResult where
  status := 101
  files := fs

/-- Runs a request in a workspace with settings. -/
def runWith (r : Request) (grammar : Grammar) (fs : FileSystem) (workspace : Path)
    (settings : Settings) : RunResult :=
  match LogFilter.parse (r.logFilter settings.logLevel) with
  | .error .splitCharacter => broken fs
  | .error e => failed fs (.ofLogFilter settings.logLevel e)
  | .ok filter =>
    match Session.index ⟨settings, workspace⟩ grammar fs r.sources.inputs with
    | .error e => failed fs (.ofSession e)
    | .ok (summary, ix) =>
      let warnings := summary.errors.map fun e => s!"warning: {e.1.text}: {e.2.message}"
      let log := (ix.world.notices.filter fun n => filter.level.admits n.level).map (·.message)
      match r.command.answer summary ix with
      | .ok output =>
        { output, complaints := linesText warnings, log, files := ix.world.files }
      | .error message =>
        { status := 1
          complaints := linesText (warnings ++ [({ message } : Failure).text])
          log
          files := ix.world.files }

/-- Runs a request in a workspace; the settings of the user are kept in their home directory. -/
def run (r : Request) (grammar : Grammar) (fs : FileSystem) (home : Option Path)
    (workspace : Path) : RunResult :=
  let project := match r.options.configFile with
    | some file => ProjectFile.named file
    | none => .inWorkspace workspace
  match Settings.load fs (home.map (·.join Settings.directory)) project r.sources.overrides with
  | .error e => failed fs (.ofSettings project e)
  | .ok settings => r.runWith grammar fs workspace settings

end Request

/-- What the program tells when the reading of its arguments ends early. -/
def Interruption.result (fs : FileSystem) : Interruption → RunResult
  | .usage e => { status := 2, complaints := s!"error: {e.message}\n\n{usageText}", files := fs }
  | .help _ => { output := usageText, files := fs }
  | .version program => { output := s!"{program} {versionText}\n", files := fs }

/-- Runs a command line in a workspace. -/
def runCommandLine (grammar : Grammar) (fs : FileSystem) (environment : Environment)
    (workspace : Path) (arguments : List String) : RunResult :=
  match Request.read fs environment arguments with
  | .error i => i.result fs
  | .ok r =>
    let home := ((environment "HOME").filter (· != "")).map Path.mk
    r.run grammar fs home workspace

end SymbolAtlas
