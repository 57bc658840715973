import SymbolAtlas.Preamble

/-!
# The indexer

One job per file: parse it, with a preamble when one is ready and without otherwise, rebuild its
cursor tree, then add its declarations and references to the graph.  The indexer remembers which
file was indexed with which options at which modification time, so that unchanged files are not
parsed again.

The program hands the jobs of a batch to a pool of threads, which run them side by side and in any
order, and puts their outcomes in the order of the jobs.  Here the jobs of a batch run one after the
other in that order, as they do in a pool of one thread; what threads do to each other's jobs is not
modelled.
-/

set_option autoImplicit false

namespace SymbolAtlas

/-- A file and what it is compiled with. -/
structure SourceJob where
  file : Path
  options : CompileOptions
deriving Inhabited

/-- What indexing one file did. -/
structure FileReport where
  file : Path
  attempt : Attempt
  nodesAdded : Nat
  build : BuildStats
  resolve : ResolveStats
  /-- Headers the file pulled in. -/
  dependencies : List Path
  /-- Modification time of the file that was parsed. -/
  modified : Stamp

/-- How a job ended. -/
inductive FileOutcome where
  | indexed (report : FileReport)
  | upToDate
  | failed (error : IndexError)

/-- What is remembered of an indexed file. -/
structure FileRecord where
  modified : Stamp
  options : List String
  dependencies : List Path

/-- How an indexer works. -/
structure IndexerConfig where
  preamble : PreambleConfig
  /-- Which cursor trees are shown: all for `1`, else those of files whose name ends so. -/
  dumpTree : Option String := none

/-- The cursor tree of a file is shown. -/
def IndexerConfig.wantsDump (c : IndexerConfig) (file : Path) : Bool :=
  match c.dumpTree with
  | none => false
  | some "" => false
  | some "1" => true
  | some name => name.toList.isSuffixOf file.text.toList

/-! ### Units -/

/-- What adding one unit to a graph did. -/
structure UnitReport where
  nodesAdded : Nat
  build : BuildStats
  resolve : ResolveStats
  notices : List ReferenceNotice

/-- Adds a unit with its tree to a graph, however the graph is kept. -/
def indexTreeInto {γ : Type} [GraphAccess γ] (lu : LocatedUnit) (tree : CursorTree) (g : γ) :
    UnitReport × γ :=
  let built := Declarations.build lu tree g
  let resolved := References.resolvePending lu tree built.graph built.pending
  ({ nodesAdded := GraphAccess.size resolved.graph - GraphAccess.size g, build := built.stats,
     resolve := resolved.stats, notices := resolved.notices }, resolved.graph)

/-- Adds a unit to a graph, however it is kept, if the cursors of the unit form a tree. -/
def indexUnitInto {γ : Type} [GraphAccess γ] (lu : LocatedUnit) (g : γ) :
    Except TreeError (UnitReport × γ) :=
  (CursorTree.reconstruct lu).map fun tree => indexTreeInto lu tree g

/-- Adds a unit with its tree to a graph. -/
def indexTree (lu : LocatedUnit) (tree : CursorTree) (g : SymbolGraph) : UnitReport × SymbolGraph :=
  indexTreeInto lu tree g

/-- Adds a unit to a graph, if its cursors form a tree. -/
def indexUnit (lu : LocatedUnit) (g : SymbolGraph) :
    Except TreeError (UnitReport × SymbolGraph) :=
  indexUnitInto lu g

/-! ### Jobs -/

/-- An indexer in its world. -/
structure Indexer (σ : Type) where
  config : IndexerConfig
  world : World σ
  graph : SymbolGraph := .empty
  preambles : PreambleCoordinator
  registry : List (Path × FileRecord) := []

namespace Indexer

variable {σ : Type}

/-- An indexer that has seen no file. -/
def new (config : IndexerConfig) (files : FileSystem) (state : σ) : Indexer σ :=
  { config, world := { files, state }, preambles := { config := config.preamble } }

/-- Leaves a notice. -/
def tell (ix : Indexer σ) (n : Notice) : Indexer σ := { ix with world := ix.world.tell n }

/-- What is remembered of the file with a canonical path. -/
def record? (ix : Indexer σ) (key : Path) : Option FileRecord :=
  (ix.registry.find? (·.1 == key)).map (·.2)

/-- Remembers an indexed file in place of what was known of it. -/
def remember (ix : Indexer σ) (key : Path) (r : FileRecord) : Indexer σ :=
  { ix with registry := ix.registry.filter (fun e => !(e.1 == key)) ++ [(key, r)] }

/-- The file was indexed with these options at its present modification time. -/
def isUpToDate (ix : Indexer σ) (key file : Path) (options : List String) : Bool :=
  match ix.record? key, ix.world.files.modified file with
  | some r, .ok stamp => r.modified == stamp && r.options == options
  | _, _ => false

/-- How one attempt to parse a file ended. -/
inductive ParseResult where
  /-- A unit, and the modification time of the file it was made from. -/
  | parsed (unit : TranslationUnit) (modified : Stamp)
  /-- The frontend gave no unit; another attempt may. -/
  | rejected
  /-- No further attempt makes sense. -/
  | ended (error : IndexError)

/-- Parses a file with an option list, once, and checks that it stayed the same meanwhile. -/
def parseOnce (F : Frontend σ) (ix : Indexer σ) (job : SourceJob) (attempt : Attempt)
    (options : List String) : ParseResult × Indexer σ :=
  match ix.world.files.modified job.file with
  | .error e => (.ended (.io job.file e), ix)
  | .ok before =>
    match F.parse job.file options ix.world with
    | (.error e, world) =>
      let line := job.options.commandLine options job.file
      (.rejected, { ix with world := world.tell (.parseFailed attempt line e) })
    | (.ok unit, world) =>
      match world.files.modified job.file with
      | .error e => (.ended (.io job.file e), { ix with world })
      | .ok after =>
        if after = before then (.parsed unit before, { ix with world })
        else
          (.ended (.changedDuringIndex job.file),
            { ix with world := world.tell (.changed job.file) })

/-- Adds the headers of a unit to the preamble of its option list, and builds the preamble when
    enough units have contributed. -/
def contribute (F : Frontend σ) (ix : Indexer σ) (options : List String)
    (inclusions : List Inclusion) : Indexer σ :=
  match ix.preambles.find? options with
  | none => ix
  | some e =>
    if !e.collecting then ix
    else
      let direct := (inclusions.filter (·.depth == 1)).map (·.path)
      let added := e.add direct (inclusions.map (·.path))
      if ix.preambles.readyToBuild added then
        let (built, world) := added.ensureBuilt F.buildPreamble ix.world
        { ix with world, preambles := ix.preambles.update built }
      else { ix with preambles := ix.preambles.update added }

/-- Takes a parsed unit in: its headers, its tree, and its nodes. -/
def takeIn (F : Frontend σ) (ix : Indexer σ) (job : SourceJob) (usesPreambles : Bool)
    (attempt : Attempt) (unit : TranslationUnit) (modified : Stamp) :
    Except IndexError FileReport × Indexer σ :=
  let ix :=
    if usesPreambles then ix.contribute F job.options.optionList unit.inclusions else ix
  let lu := LocatedUnit.ofUnit ix.world.files unit
  match CursorTree.reconstruct lu with
  | .error e => (.error (.structuralInconsistency job.file e), ix.tell (.brokenTree e))
  | .ok tree =>
    let ix :=
      if ix.config.wantsDump job.file then ix.tell (.cursorTree job.file (tree.dump lu)) else ix
    let (report, graph) := indexTree lu tree ix.graph
    let ix := report.notices.foldl (fun ix n => ix.tell (.reference n)) { ix with graph }
    (.ok { file := job.file, attempt, nodesAdded := report.nodesAdded, build := report.build,
           resolve := report.resolve, dependencies := unit.inclusions.map (·.path), modified },
      ix)

/-- The attempt without a preamble. -/
def runPlain (F : Frontend σ) (ix : Indexer σ) (job : SourceJob) (usesPreambles : Bool) :
    Except IndexError FileReport × Indexer σ :=
  let options := job.options.optionList
  match ix.parseOnce F job .withoutPreamble options with
  | (.parsed unit modified, ix) => ix.takeIn F job usesPreambles .withoutPreamble unit modified
  | (.ended e, ix) => (.error e, ix)
  | (.rejected, ix) =>
    (.error (.parseFailure job.file (job.options.commandLine options job.file)), ix)

/-- Parses a file and adds it to the graph: first with the preamble of its options if there is one,
    then without. -/
def runTask (F : Frontend σ) (ix : Indexer σ) (job : SourceJob) :
    Except IndexError FileReport × Indexer σ :=
  let options := job.options.optionList
  if ix.preambles.appliesTo job.options.language then
    let (entry, preambles) := ix.preambles.get options
    let ix := { ix with preambles }
    match entry.bind (·.builtPath ix.world.files) with
    | none => ix.runPlain F job true
    | some artifact =>
      match ix.parseOnce F job .withPreamble (options ++ [preambleFlag, artifact.text]) with
      | (.parsed unit modified, ix) => ix.takeIn F job true .withPreamble unit modified
      | (.ended e, ix) => (.error e, ix)
      | (.rejected, ix) => ix.runPlain F job true
  else ix.runPlain F job false

/-- Runs a job; unless it is forced, a file that is up to date is left alone. -/
def runJob (F : Frontend σ) (ix : Indexer σ) (force : Bool) (job : SourceJob) :
    FileOutcome × Indexer σ :=
  let key := ix.world.files.canonicalPath job.file
  let options := job.options.optionList
  if !force && ix.isUpToDate key job.file options then (.upToDate, ix)
  else
    match ix.runTask F job with
    | (.ok report, ix) =>
      (.indexed report,
        ix.remember key
          { modified := report.modified, options, dependencies := report.dependencies })
    | (.error e, ix) =>
      (.failed e, if e.transient then ix else ix.tell (.skipped job.file e))

/-- The outcomes of several jobs, each with its file. -/
abbrev Summary := List (Path × FileOutcome)

/-- Runs several jobs in turn, as a pool of one thread does. -/
def runJobs (F : Frontend σ) (force : Bool) : List SourceJob → Indexer σ → Summary × Indexer σ
  | [], ix => ([], ix)
  | job :: jobs, ix =>
    let (outcome, ix) := ix.runJob F force job
    let (rest, ix) := runJobs F force jobs ix
    ((job.file, outcome) :: rest, ix)

/-- Indexes the files that are not up to date. -/
def indexFiles (F : Frontend σ) (ix : Indexer σ) (jobs : List SourceJob) : Summary × Indexer σ :=
  runJobs F false jobs ix

/-- Indexes all files anew. -/
def reindexFiles (F : Frontend σ) (ix : Indexer σ) (jobs : List SourceJob) :
    Summary × Indexer σ :=
  runJobs F true jobs ix

/-- Indexes one file unless it is up to date. -/
def indexFile (F : Frontend σ) (ix : Indexer σ) (job : SourceJob) : FileOutcome × Indexer σ :=
  ix.runJob F false job

/-- Builds the preambles that headers were collected for. -/
def buildPreambles (F : Frontend σ) (ix : Indexer σ) :
    List (Path × Except PreambleError Path) × Indexer σ :=
  let waiting := ix.preambles.entries.filter fun e => e.collecting && e.contributions > 0
  waiting.foldl
    (fun (outcomes, ix) e =>
      let (built, world) := e.ensureBuilt F.buildPreamble ix.world
      let outcome := built.outcome.getD (.error (.noHeaders e.path))
      (outcomes ++ [(e.path, outcome)], { ix with world, preambles := ix.preambles.update built }))
    ([], ix)

/-- The headers that a file pulled in when it was indexed last. -/
def dependencies (ix : Indexer σ) (file : Path) : List Path :=
  match ix.record? (ix.world.files.canonicalPath file) with
  | some r => r.dependencies
  | none => []

/-- Forgets the graph and what was remembered of files; preambles stay. -/
def reset (ix : Indexer σ) : Indexer σ := { ix with graph := ix.graph.clear, registry := [] }

namespace Summary

/-- Number of files that were indexed. -/
def indexed (s : Summary) : Nat :=
  s.countP fun e => match e.2 with
    | .indexed _ => true
    | _ => false

/-- Number of files that were up to date. -/
def upToDate (s : Summary) : Nat :=
  s.countP fun e => match e.2 with
    | .upToDate => true
    | _ => false

/-- The files that failed, each with its error. -/
def errors (s : Summary) : List (Path × IndexError) :=
  s.filterMap fun e => match e.2 with
    | .failed error => some (e.1, error)
    | _ => none

/-- Number of nodes added to the graph. -/
def nodesAdded (s : Summary) : Nat :=
  s.foldl
    (fun n e => match e.2 with
      | .indexed report => n + report.nodesAdded
      | _ => n)
    0

/-- The outcome of the first job for a file. -/
def outcome? (s : Summary) (file : Path) : Option FileOutcome :=
  (s.find? (·.1 == file)).map (·.2)

end Summary

end Indexer

end SymbolAtlas
