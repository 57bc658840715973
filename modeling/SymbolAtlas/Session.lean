import SymbolAtlas.Discovery.Sources
import SymbolAtlas.Frontend.Syntax
import SymbolAtlas.Indexer
import SymbolAtlas.Settings

/-!
# Sessions

Settings at work in a workspace: which files are indexed with which options, and how.

Main facts: every job carries the options of its file (`Session.options_of_mem_jobs`).
-/

set_option autoImplicit false

namespace SymbolAtlas

/-- Settings, and the directory that their relative paths start at. -/
structure Session where
  settings : Settings
  workspace : Path
deriving Inhabited

/-- Why nothing can be indexed. -/
inductive SessionError where
  | discovery (error : DiscoveryError)
  | noSources

namespace Session

/-- How an indexer works in this session. -/
def indexerConfig (s : Session) : IndexerConfig where
  preamble :=
    { enabled := s.settings.preamble.enabled
      language := ((Language.ofName s.settings.preamble.language).toOption).getD .cxx
      directory := s.settings.preambleDir s.workspace
      buildAfter := s.settings.preamble.buildAfter }
  dumpTree := s.settings.dumpTree

/-- What a file is compiled with. -/
def options (s : Session) (file : Path) : CompileOptions :=
  { CompileOptions.forFile file with
    includePaths := (s.settings.includePaths s.workspace).map Path.native
    defines := s.settings.analysis.defines
    extra := s.settings.analysis.extraArgs }

/-- The job for a file under its canonical path. -/
def job (s : Session) (fs : FileSystem) (file : Path) : SourceJob :=
  let file := fs.canonicalPath file
  ⟨file, s.options file⟩

/-- The jobs that inputs stand for. -/
def jobs (s : Session) (fs : FileSystem) (inputs : List Path) :
    Except DiscoveryError (List SourceJob) :=
  (collectSources { exclude := s.settings.analysis.excludePatterns } fs inputs).map
    (·.map (s.job fs))

/-- Indexes the sources that inputs stand for with trees of a grammar. -/
def index (s : Session) (grammar : Grammar) (fs : FileSystem) (inputs : List Path) :
    Except SessionError (Indexer.Summary × Indexer SyntaxFrontend.State) :=
  match s.jobs fs inputs with
  | .error e => .error (.discovery e)
  | .ok [] => .error .noSources
  | .ok jobs =>
    .ok ((Indexer.new s.indexerConfig fs {}).indexFiles (SyntaxFrontend.frontend grammar) jobs)

/-! ### Facts -/

theorem options_of_mem_jobs {s : Session} {fs : FileSystem} {inputs : List Path}
    {jobs : List SourceJob} (h : s.jobs fs inputs = .ok jobs) {j : SourceJob} (hj : j ∈ jobs) :
    j.options = s.options j.file := by
  unfold Session.jobs at h
  cases hc : collectSources { exclude := s.settings.analysis.excludePatterns } fs inputs with
  | error e => simp [hc, Except.map] at h
  | ok files =>
    simp only [hc, Except.map, Except.ok.injEq] at h
    subst h
    obtain ⟨f, _, rfl⟩ := List.mem_map.mp hj
    rfl

end Session

end SymbolAtlas
