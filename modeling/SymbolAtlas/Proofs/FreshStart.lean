import SymbolAtlas.Proofs.FrontendCalls
import SymbolAtlas.Proofs.PlainReadings

/-!
# Starting over

A reset forgets the graph and what was remembered of files, but the preambles stay, with their
artifacts and with the headers that were read for them.  Jobs that run after it may take their units
from there, where a new indexer reads all files afresh and builds preambles of its own.  Each of
their effects is as their sights tell, and so the two cannot be told apart, as long as the artifacts
and the directories made for them are out of sight.

* `Indexer.moments` — the files that an indexer meets over some steps.
* `Indexer.OutOfSight` — whatever changed meanwhile, the jobs see the same.

Principal results: `Indexer.kept_jobs` — jobs do in turn what they saw at first;
`Indexer.reset_as_fresh` — after a reset they leave what they would leave in a new indexer.
-/

set_option autoImplicit false

namespace SymbolAtlas

/-! ## File systems that grow -/

namespace FileSystem

/-- Whether two entries are the same. -/
instance : DecidableEq Entry
  | .file bytes stamp, .file bytes' stamp' =>
    letI := ByteArray.instDecidableEq bytes bytes'
    decidable_of_iff (bytes = bytes' ∧ stamp = stamp')
      (Entry.file.injEq bytes stamp bytes' stamp').symm.to_iff
  | .directory, .directory => .isTrue rfl
  | .link ⟨p⟩, .link ⟨q⟩ =>
    decidable_of_iff (p = q) ((Entry.link.injEq ..).trans (Path.mk.injEq p q)).symm.to_iff
  | .file .., .directory => .isFalse nofun
  | .file .., .link _ => .isFalse nofun
  | .directory, .file .. => .isFalse nofun
  | .directory, .link _ => .isFalse nofun
  | .link _, .file .. => .isFalse nofun
  | .link _, .directory => .isFalse nofun

/-- Every entry is there in the other file system too. -/
def Below (fs top : FileSystem) : Prop :=
  fs.cwd = top.cwd ∧ ∀ e ∈ fs.entries, top.find? e.1 = some e.2

instance (fs top : FileSystem) : Decidable (fs.Below top) :=
  inferInstanceAs (Decidable (_ ∧ _))

variable {fs top : FileSystem} {names : List String}

theorem Below.find? (h : fs.Below top) {entry : Entry} (hfound : fs.find? names = some entry) :
    top.find? names = some entry := by
  rw [FileSystem.find?] at hfound
  split at hfound
  · rename_i hroot
    rw [FileSystem.find?, if_pos hroot]
    exact hfound
  · obtain ⟨e, he, rfl⟩ := Option.map_eq_some_iff.mp hfound
    have hnames : e.1 = names := by simpa using List.find?_some he
    rw [← hnames]
    exact h.2 e (List.mem_of_find?_eq_some he)

theorem Below.walk (h : fs.Below top)
    {follow follow' : List String → List Path.Step → Except FileError (List String)}
    (hfollow : ∀ dir steps, follow dir steps = .ok names → follow' dir steps = .ok names)
    (steps : List Path.Step) (dir : List String)
    (hwalk : fs.walk .existing follow dir steps = .ok names) :
    top.walk .existing follow' dir steps = .ok names := by
  induction steps generalizing dir with
  | nil => exact hwalk
  | cons s rest ih =>
    cases s with
    | root => exact ih _ hwalk
    | here => exact ih _ hwalk
    | up => exact ih _ hwalk
    | slash => exact ih _ hwalk
    | name s =>
      rw [walk_name] at hwalk ⊢
      split at hwalk
      · cases hwalk
      · rename_i hsize
        rw [if_neg hsize]
        cases hfound : fs.find? (dir ++ [s]) with
        | none =>
          rw [hfound] at hwalk
          cases hwalk
        | some found =>
          rw [hfound] at hwalk
          rw [h.find? hfound]
          cases found with
          | file => exact hwalk
          | directory => exact ih _ hwalk
          | link path => exact hfollow _ _ hwalk

theorem Below.walkLinks (h : fs.Below top) (n : Nat) (dir : List String) (steps : List Path.Step)
    (hwalk : fs.walkLinks .existing n dir steps = .ok names) :
    top.walkLinks .existing n dir steps = .ok names := by
  induction n generalizing dir steps with
  | zero => exact h.walk (fun _ _ hnot => by cases hnot) steps dir hwalk
  | succ n ih => exact h.walk ih steps dir hwalk

/-- What a path leads to is there in the other file system too. -/
theorem Below.entryAt (h : fs.Below top) {p : Path} {entry : Entry}
    (hentry : fs.entryAt p = .ok entry) : top.entryAt p = .ok entry := by
  obtain ⟨names, hnames, hfound⟩ := entryAt_eq_ok.mp hentry
  refine entryAt_eq_ok.mpr ⟨names, ?_, h.find? hfound⟩
  rw [resolve, locate, trace] at hnames ⊢
  split at hnames
  · cases hnames
  · rename_i hlength
    rw [if_neg hlength]
    split at hnames
    · cases hnames
    · split at hnames
      · cases hnames
      · rename_i hnul hempty
        rw [if_neg hnul, if_neg hempty, ← h.1]
        exact h.walkLinks _ _ _ hnames

/-- Modification times do not deceive if no entry is ever changed. -/
theorem stamped_of_below {met : FileSystem → Prop} (h : ∀ fs, met fs → fs.Below top) :
    Stamped met := by
  intro fs fs' hfs hfs' p stamp hmodified hmodified'
  obtain ⟨entry, hentry⟩ := entryAt_of_modified hmodified
  obtain ⟨entry', hentry'⟩ := entryAt_of_modified hmodified'
  have htop := (h fs hfs).entryAt hentry
  rw [(h fs' hfs').entryAt hentry'] at htop
  cases htop
  rw [readBytes, readBytes, hentry, hentry']

end FileSystem

/-! ## Moments -/

/-- The files before a call. -/
def FrontendCall.before : FrontendCall → FileSystem
  | .parse _ _ before _ _ => before
  | .build _ _ _ before _ _ => before

namespace Indexer

open SyntaxFrontend (State PlainOptions frontend lineGrammar)

/-- The files that are met over some steps: before each of them, before each call of the frontend,
    and at the end. -/
def moments {σ : Type} (F : Frontend σ) : Indexer σ → List Step → List FileSystem
  | ix, [] => [ix.world.files]
  | ix, s :: steps =>
    ix.world.files :: (s.calls F ix).map (·.before) ++ moments F (s.apply F ix) steps

theorem start_mem_moments {σ : Type} (F : Frontend σ) (ix : Indexer σ) (steps : List Step) :
    ix.world.files ∈ moments F ix steps := by
  cases steps with
  | nil => exact .head _
  | cons s steps => exact .head _

theorem end_mem_moments {σ : Type} (F : Frontend σ) (ix : Indexer σ) (steps : List Step) :
    (steps.foldl (Step.apply F) ix).world.files ∈ moments F ix steps := by
  induction steps generalizing ix with
  | nil => exact .head _
  | cons s steps ih => exact List.mem_append_right _ (ih (s.apply F ix))

variable {grammar : Grammar} {met : FileSystem → Prop}

/-- A step caches only what it reads at the moments of its calls. -/
theorem readAt_step {ix : Indexer State} {s : Step}
    (hcalls : ∀ call ∈ s.calls (frontend grammar) ix, met call.before)
    (h : ix.world.state.ReadAt grammar met) :
    (s.apply (frontend grammar) ix).world.state.ReadAt grammar met := by
  -- As long as the calls on record were made at such moments, so was the cache filled.
  let P (w : World (Recorded State)) : Prop :=
    (∀ call ∈ w.state.calls, met call.before) → w.state.state.ReadAt grammar met
  have hkeeps : (frontend grammar).recorded.AnswersAlike (frontend grammar).recorded
      fun w v => v = w ∧ P w := by
    refine Frontend.answersAlike_of_keeps (fun _ _ hw => hw) (fun w file options hw hafter => ?_)
      fun w inputs options output hw hafter => ?_
    · obtain ⟨hbefore, hnow⟩ := List.forall_mem_append.mp hafter
      exact SyntaxFrontend.readAt_parse (w := w.unrecorded) (hnow _ (.head _)) (hw hbefore) file
        options
    · obtain ⟨hbefore, hnow⟩ := List.forall_mem_append.mp hafter
      exact SyntaxFrontend.readAt_buildPreamble (w := w.unrecorded) (hnow _ (.head _)) (hw hbefore)
        inputs options output
  have hstart : Alongside (fun w v => v = w ∧ P w) ix.recording ix.recording :=
    ⟨rfl, ⟨rfl, fun _ => h⟩, rfl, rfl, rfl⟩
  have hend := (alongside_apply hkeeps (fun change ⟨hv, hw⟩ => ⟨by rw [hv], hw⟩) hstart s).world.2
  have hunrecorded := unrecorded_apply (frontend grammar) ix.recording s
  have hread : (s.apply (frontend grammar).recorded ix.recording).unrecorded.world.state.ReadAt
      grammar met := hend hcalls
  rw [hunrecorded] at hread
  exact hread

/-- Steps cache only what they read at the moments that are met, and lead to the moments of the
    steps behind them. -/
theorem readAt_steps {ix : Indexer State} {before after : List Step}
    (hmet : ∀ fs ∈ moments (frontend grammar) ix (before ++ after), met fs)
    (h : ix.world.state.ReadAt grammar met) :
    let mid := before.foldl (Step.apply (frontend grammar)) ix
    mid.world.state.ReadAt grammar met ∧ ∀ fs ∈ moments (frontend grammar) mid after, met fs := by
  induction before generalizing ix with
  | nil => exact ⟨h, hmet⟩
  | cons s before ih =>
    obtain ⟨hstep, hrest⟩ := List.forall_mem_append.mp hmet
    refine ih hrest (readAt_step (fun call hcall => ?_) h)
    exact hstep _ (.tail _ (List.mem_map_of_mem hcall))

/-! ## Jobs in turn -/

/-- Jobs, each forced or not, as steps. -/
def inTurn (jobs : List (Bool × SourceJob)) : List Step := jobs.map fun e => .job e.1 e.2

/-- What changes between some moments is out of sight of the jobs: a plain reading of each sees the
    same at all of them. -/
def OutOfSight (grammar : Grammar) (jobs : List (Bool × SourceJob)) (met : List FileSystem) :
    Prop :=
  ∀ fs ∈ met, ∀ fs' ∈ met, ∀ e ∈ jobs, sight grammar fs e.2 = sight grammar fs' e.2

/-- Jobs do in turn what they saw at first. -/
theorem kept_jobs (hstamped : FileSystem.Stamped met) {ix : Indexer State}
    (hread : ix.world.state.ReadAt grammar met) {files : FileSystem}
    {jobs : List (Bool × SourceJob)}
    (hmet : ∀ fs ∈ moments (frontend grammar) ix (inTurn jobs),
      met fs ∧ ∀ e ∈ jobs, sight grammar fs e.2 = sight grammar files e.2)
    (hoptions : ∀ e ∈ jobs, PlainOptions e.2.options.optionList) :
    ((inTurn jobs).foldl (Step.apply (frontend grammar)) ix).kept =
      jobs.foldl (fun kept e => (sight grammar files e.2).settle e.1 e.2 kept) ix.kept := by
  induction jobs generalizing ix with
  | nil => rfl
  | cons e jobs ih =>
    obtain ⟨force, job⟩ := e
    obtain ⟨hstep, hrest⟩ := List.forall_mem_append.mp hmet
    obtain ⟨hnow, hsight⟩ := hstep _ (.head _)
    have hafter := (hrest _ (start_mem_moments _ _ _)).2 (force, job) (.head _)
    have hsettles := runJob_settles hstamped hnow hread force (hoptions _ (.head _))
      (hafter.trans (hsight (force, job) (.head _)).symm)
    rw [hsight (force, job) (.head _)] at hsettles
    have hread' : (Step.apply (frontend grammar) ix (.job force job)).world.state.ReadAt grammar
        met := readAt_step (fun call hcall =>
      (hstep _ (.tail _ (List.mem_map_of_mem hcall))).1) hread
    rw [List.foldl_cons, ← hsettles]
    exact ih hread'
      (fun fs hfs => ⟨(hrest fs hfs).1, fun e he => (hrest fs hfs).2 e (.tail _ he)⟩)
      fun e he => hoptions e (.tail _ he)

/-- **After a reset jobs leave what they would leave in a new indexer**, whatever was done before
    the reset and whatever preambles outlast it: the same graph, and the same headers of every file
    that has one canonical path in both, such as those of the jobs.  In neither run may
    modification times deceive, and what preambles leave among the files is out of sight. -/
theorem reset_as_fresh (grammar : Grammar) (config : IndexerConfig) (files : FileSystem)
    (past : List Step) (jobs : List (Bool × SourceJob))
    (hoptions : ∀ e ∈ jobs, PlainOptions e.2.options.optionList) :
    let F := frontend grammar
    let start : Indexer State := .new config files {}
    let old := (past.foldl (Step.apply F) start).reset
    let fresh : Indexer State := .new config old.world.files {}
    FileSystem.Stamped (· ∈ moments F start (past ++ .reset :: inTurn jobs)) →
    FileSystem.Stamped (· ∈ moments F fresh (inTurn jobs)) →
    OutOfSight grammar jobs (moments F old (inTurn jobs) ++ moments F fresh (inTurn jobs)) →
    let again := (inTurn jobs).foldl (Step.apply F) old
    let anew := (inTurn jobs).foldl (Step.apply F) fresh
    again.graph = anew.graph ∧
      (∀ file, again.key file = anew.key file →
        again.dependencies file = anew.dependencies file) ∧
      ∀ e ∈ jobs, again.dependencies e.2.file = anew.dependencies e.2.file := by
  intro F start old fresh hstamped hstamped' hsight again anew
  have hempty : ∀ met, State.ReadAt grammar met {} := fun _ _ hh => nomatch hh
  -- What outlasts the reset was read before it; a new indexer has nothing.
  have hread : old.world.state.ReadAt grammar
        (· ∈ moments F start (past ++ .reset :: inTurn jobs)) ∧
      ∀ fs ∈ moments F old (inTurn jobs),
        fs ∈ moments F start (past ++ .reset :: inTurn jobs) := by
    obtain ⟨hread, hmet⟩ := @readAt_steps _ _ start past (.reset :: inTurn jobs)
      (fun _ hfs => hfs) (hempty _)
    exact ⟨hread, fun fs hfs => hmet fs (List.mem_append_right _ hfs)⟩
  have hseen : ∀ fs ∈ moments F old (inTurn jobs) ++ moments F fresh (inTurn jobs),
      ∀ e ∈ jobs, sight grammar fs e.2 = sight grammar old.world.files e.2 := fun fs hfs =>
    hsight fs hfs old.world.files (List.mem_append_left _ (start_mem_moments F old _))
  have hagain := kept_jobs hstamped hread.1
    (fun fs hfs => ⟨hread.2 fs hfs, hseen fs (List.mem_append_left _ hfs)⟩) hoptions
  have hanew := @kept_jobs _ _ hstamped' fresh (hempty _) _ _
    (fun fs hfs => ⟨hfs, hseen fs (List.mem_append_right _ hfs)⟩) hoptions
  have hkept : again.kept = anew.kept := hagain.trans hanew.symm
  have hdependencies : ∀ file, again.key file = anew.key file →
      again.dependencies file = anew.dependencies file := fun file hkey => by
    have hregistry : again.registry = anew.registry := congrArg Prod.snd hkept
    unfold key at hkey
    rw [dependencies, dependencies, hkey, record?_congr hregistry]
  refine ⟨congrArg Prod.fst hkept, hdependencies, fun e he => hdependencies _ ?_⟩
  have hagainSees := hseen _ (List.mem_append_left _ (end_mem_moments F old _)) e he
  have hanewSees := hseen _ (List.mem_append_right _ (end_mem_moments F fresh _)) e he
  exact congrArg Sight.key (hagainSees.trans hanewSees.symm)

/-! ### Two runs -/

/-- The calls that are made over some steps. -/
def callsOver {σ : Type} (F : Frontend σ) : Indexer σ → List Step → List FrontendCall
  | _, [] => []
  | ix, s :: steps => s.calls F ix ++ callsOver F (s.apply F ix) steps

/-- Over some steps a unit is made that includes an artifact. -/
def includesArtifact {σ : Type} (F : Frontend σ) (ix : Indexer σ) (steps : List Step) : Bool :=
  (callsOver F ix steps).any fun call => match call with
    | .parse _ _ files (.ok u) _ =>
      u.inclusions.any fun i =>
        (steps.foldl (Step.apply F) ix).preambles.entries.any fun e =>
          files.canonicalPath e.path == i.path
    | _ => false

/-- Two headers and two files, one of which goes through the directory of the preambles, which is a
    link here. -/
def linkedFiles : FileSystem where
  entries := [
    (["w"], .directory),
    (["w", "real"], .directory),
    (["w", "pre"], .link ⟨"/w/real"⟩),
    (["w", "h.h"], .file "int h;\n".toUTF8 ⟨1, 0⟩),
    (["w", "x.h"], .file "int x;\n".toUTF8 ⟨1, 0⟩),
    (["w", "a.cpp"], .file "#include \"h.h\"\n".toUTF8 ⟨1, 0⟩),
    (["w", "b.cpp"], .file "#include \"pre/../x.h\"\n".toUTF8 ⟨1, 0⟩)]

/-- Preambles are built when this many files have contributed. -/
def preConfig (buildAfter : Nat) : IndexerConfig :=
  { preamble := { directory := ⟨"/w/pre"⟩, buildAfter } }

/-- A preamble is built, and the link to its directory is removed. -/
def linkedPast : List Step :=
  [.job false (plainJob ⟨"/w/a.cpp"⟩), .files (·.remove ⟨"/w/pre"⟩)]

/-- Both files. -/
def linkedJobs : List (Bool × SourceJob) :=
  [(false, plainJob ⟨"/w/a.cpp"⟩), (false, plainJob ⟨"/w/b.cpp"⟩)]

/-- After the reset no preamble is built, so the directory stays away; a new indexer makes it. -/
theorem linked_runs :
    let F := frontend lineGrammar
    let start : Indexer State := .new (preConfig 1) linkedFiles {}
    let old := (linkedPast.foldl (Step.apply F) start).reset
    let fresh : Indexer State := .new (preConfig 1) old.world.files {}
    let again := (inTurn linkedJobs).foldl (Step.apply F) old
    let anew := (inTurn linkedJobs).foldl (Step.apply F) fresh
    (∀ fs ∈ moments F start (linkedPast ++ .reset :: inTurn linkedJobs),
        fs.Below (Step.apply F start (.job false (plainJob ⟨"/w/a.cpp"⟩))).world.files) ∧
      (∀ fs ∈ moments F fresh (inTurn linkedJobs), fs.Below anew.world.files) ∧
      includesArtifact F start (linkedPast ++ .reset :: inTurn linkedJobs) = false ∧
      includesArtifact F fresh (inTurn linkedJobs) = false ∧
      again.graph.size = 2 ∧ anew.graph.size = 3 := by
  decide +kernel

/-- That no file includes an artifact is not enough. -/
theorem reset_as_fresh_linked :
    ¬ ∀ (grammar : Grammar) (config : IndexerConfig) (files : FileSystem) (past : List Step)
      (jobs : List (Bool × SourceJob)),
      let F := frontend grammar
      let start : Indexer State := .new config files {}
      let old := (past.foldl (Step.apply F) start).reset
      let fresh : Indexer State := .new config old.world.files {}
      FileSystem.Stamped (· ∈ moments F start (past ++ .reset :: inTurn jobs)) →
      FileSystem.Stamped (· ∈ moments F fresh (inTurn jobs)) →
      includesArtifact F start (past ++ .reset :: inTurn jobs) = false →
      includesArtifact F fresh (inTurn jobs) = false →
      (∀ force job, .job force job ∈ past ++ inTurn jobs →
        preambleFlag ∉ job.options.optionList ∧
          ∀ opt ∈ job.options.optionList.getLast?, opt ≠ "-x" ∧ opt ≠ "-I") →
      let again := (inTurn jobs).foldl (Step.apply F) old
      let anew := (inTurn jobs).foldl (Step.apply F) fresh
      again.graph = anew.graph ∧ ∀ file, again.dependencies file = anew.dependencies file := by
  intro h
  obtain ⟨hbelow, hbelow', hnone, hnone', hagain, hanew⟩ := linked_runs
  have hoptions : ∀ force job, .job force job ∈ linkedPast ++ inTurn linkedJobs →
      preambleFlag ∉ job.options.optionList ∧
        ∀ opt ∈ job.options.optionList.getLast?, opt ≠ "-x" ∧ opt ≠ "-I" := by
    intro force job hjob
    have hlist : job.options.optionList = ["-x", "c++"] := by
      simp only [linkedPast, linkedJobs, inTurn, List.map_cons, List.map_nil, List.cons_append,
        List.nil_append, List.mem_cons, Step.job.injEq, reduceCtorEq, List.not_mem_nil, or_false,
        false_or] at hjob
      rcases hjob with ⟨-, rfl⟩ | ⟨-, rfl⟩ | ⟨-, rfl⟩
      · rfl
      · rfl
      · rfl
    rw [hlist]
    decide
  have hsame := (h lineGrammar (preConfig 1) linkedFiles linkedPast linkedJobs
    (FileSystem.stamped_of_below hbelow) (FileSystem.stamped_of_below hbelow') hnone hnone'
    hoptions).1
  have hsize := congrArg SymbolGraph.size hsame
  rw [hagain, hanew] at hsize
  cases hsize

/-- Whether two file systems are the same. -/
instance : DecidableEq FileSystem := fun fs fs' =>
  decidable_of_iff
    (fs.cwd = fs'.cwd ∧ fs.entries = fs'.entries ∧ fs.now = fs'.now ∧ fs.writes = fs'.writes)
    (by cases fs; cases fs'; simp)

/-- Which attempt gave the unit of a job. -/
def attempt? : FileOutcome → Option Attempt
  | .indexed report => some report.attempt
  | _ => none

/-- The first file alone. -/
def linkedJob : List (Bool × SourceJob) := [(false, plainJob ⟨"/w/a.cpp"⟩)]

/-- An indexer that has built a preamble of both files, after a reset. -/
def sharedIndexer : Indexer State :=
  ((inTurn linkedJobs).foldl (Step.apply (frontend lineGrammar))
    (.new (preConfig 2) linkedFiles {})).reset

/-- A new indexer over the same files. -/
def unsharedIndexer : Indexer State := .new (preConfig 2) sharedIndexer.world.files {}

/-- The first file is taken from the preamble of both, and nothing is written; a new indexer reads
    it afresh, and builds no preamble for one file. -/
theorem shared_runs :
    (∀ fs ∈ moments (frontend lineGrammar) (.new (preConfig 2) linkedFiles {})
        (inTurn linkedJobs ++ .reset :: inTurn linkedJob), fs.Below sharedIndexer.world.files) ∧
      (∀ fs ∈ moments (frontend lineGrammar) sharedIndexer (inTurn linkedJob) ++
        moments (frontend lineGrammar) unsharedIndexer (inTurn linkedJob),
        fs = sharedIndexer.world.files) ∧
      attempt? (sharedIndexer.runJob (frontend lineGrammar) false (plainJob ⟨"/w/a.cpp"⟩)).1
        = some .withPreamble ∧
      attempt? (unsharedIndexer.runJob (frontend lineGrammar) false (plainJob ⟨"/w/a.cpp"⟩)).1
        = some .withoutPreamble := by
  decide +kernel

theorem reset_as_fresh_withPreamble :
    let again := (inTurn linkedJob).foldl (Step.apply (frontend lineGrammar)) sharedIndexer
    let anew := (inTurn linkedJob).foldl (Step.apply (frontend lineGrammar)) unsharedIndexer
    attempt? (sharedIndexer.runJob (frontend lineGrammar) false (plainJob ⟨"/w/a.cpp"⟩)).1
        = some .withPreamble ∧
      attempt? (unsharedIndexer.runJob (frontend lineGrammar) false (plainJob ⟨"/w/a.cpp"⟩)).1
        = some .withoutPreamble ∧
      again.graph = anew.graph ∧
      ∀ e ∈ linkedJob, again.dependencies e.2.file = anew.dependencies e.2.file := by
  obtain ⟨hbelow, hsame, hagain, hanew⟩ := shared_runs
  have hstamped' : FileSystem.Stamped
      (· ∈ moments (frontend lineGrammar) unsharedIndexer (inTurn linkedJob)) :=
    fun fs fs' hfs hfs' p _ _ _ => congrArg (FileSystem.readBytes · p)
      ((hsame fs (List.mem_append_right _ hfs)).trans
        (hsame fs' (List.mem_append_right _ hfs')).symm)
  have hsight : OutOfSight lineGrammar linkedJob
      (moments (frontend lineGrammar) sharedIndexer (inTurn linkedJob) ++
        moments (frontend lineGrammar) unsharedIndexer (inTurn linkedJob)) :=
    fun fs hfs fs' hfs' e _ => congrArg (sight lineGrammar · e.2)
      ((hsame fs hfs).trans (hsame fs' hfs').symm)
  have hoptions : ∀ e ∈ linkedJob, PlainOptions e.2.options.optionList := fun e he => by
    cases List.mem_singleton.mp he
    exact ⟨by decide, ParseOptions.complete_of_getLast? _ (by decide)⟩
  obtain ⟨hgraph, -, hdependencies⟩ := reset_as_fresh lineGrammar (preConfig 2) linkedFiles
    (inTurn linkedJobs) linkedJob hoptions (FileSystem.stamped_of_below hbelow) hstamped' hsight
  exact ⟨hagain, hanew, hgraph, hdependencies⟩

end Indexer

end SymbolAtlas
