import SymbolAtlas.Indexer

/-!
# What the steps of an indexer do

A job may read and write files, ask the frontend, collect headers and build a preamble, and then end
without a report.  All of that leaves the graph alone and what is remembered of files.  Here it is
said once how an attempt, a task and a job can end; what jobs keep or bring about follows from that.

* `Indexer.Spares` — nothing changed but the world and the preambles.
* `Indexer.TakesIn` — what it takes to index a file: where its unit comes from, when the file was
  modified, and what was done to the graph.
* `Indexer.Ends` — how a job ends.

Principal results: `Indexer.ends_runJob` — there is no other end; `Indexer.runJobs_append` — jobs
that run in turn.
-/

set_option autoImplicit false

namespace SymbolAtlas.Indexer

variable {σ : Type} {F : Frontend σ}

/-! ## What is spared -/

/-- The configuration, the graph and what is remembered of files are the same. -/
structure Spares (before after : Indexer σ) : Prop where
  config : after.config = before.config
  graph : after.graph = before.graph
  registry : after.registry = before.registry

theorem Spares.refl (ix : Indexer σ) : Spares ix ix := ⟨rfl, rfl, rfl⟩

theorem Spares.trans {ix₁ ix₂ ix₃ : Indexer σ} (h₁₂ : Spares ix₁ ix₂) (h₂₃ : Spares ix₂ ix₃) :
    Spares ix₁ ix₃ where
  config := h₂₃.config.trans h₁₂.config
  graph := h₂₃.graph.trans h₁₂.graph
  registry := h₂₃.registry.trans h₁₂.registry

/-- What is spared is all but the world and the preambles. -/
theorem Spares.eq {before after : Indexer σ} (h : Spares before after) :
    after = { before with world := after.world, preambles := after.preambles } := by
  obtain ⟨hconfig, hgraph, hregistry⟩ := h
  cases after
  cases hconfig
  cases hgraph
  cases hregistry
  rfl

/-- What may be done spares what is spared when it is done. -/
theorem Spares.ite {before after : Indexer σ} (p : Prop) [Decidable p] (h : Spares before after) :
    Spares before (if p then after else before) := by
  split
  · exact h
  · exact .refl before

theorem spares_tell (ix : Indexer σ) (n : Notice) : Spares ix (ix.tell n) := ⟨rfl, rfl, rfl⟩

theorem spares_contribute (ix : Indexer σ) (options : List String) (inclusions : List Inclusion) :
    Spares ix (ix.contribute F options inclusions) := by
  unfold contribute
  split
  · exact .refl ix
  · split
    · exact .refl ix
    · dsimp only
      split
      · exact ⟨rfl, rfl, rfl⟩
      · exact ⟨rfl, rfl, rfl⟩

/-! ## Attempts -/

/-- What the file of a job is parsed with: its options, and maybe a preamble. -/
def ParsedWith (job : SourceJob) (options : List String) : Prop :=
  options = job.options.optionList ∨
    ∃ artifact : Path, options = job.options.optionList ++ [preambleFlag, artifact.text]

/-- The frontend makes a unit of the file of a job, which was modified at one time before and
    after. -/
def Makes (F : Frontend σ) (job : SourceJob) (unit : TranslationUnit) (modified : Stamp) : Prop :=
  ∃ options before after, ParsedWith job options ∧
    F.parse job.file options before = (.ok unit, after) ∧
      before.files.modified job.file = .ok modified ∧ after.files.modified job.file = .ok modified

/-- How an attempt to parse a file ends; nothing changes but the world. -/
inductive Parses (F : Frontend σ) (ix : Indexer σ) (job : SourceJob) :
    ParseResult × Indexer σ → Prop where
  | parsed {unit : TranslationUnit} {modified : Stamp} {ix' : Indexer σ} (hs : Spares ix ix')
      (hm : Makes F job unit modified) : Parses F ix job (.parsed unit modified, ix')
  | rejected {ix' : Indexer σ} (hs : Spares ix ix') : Parses F ix job (.rejected, ix')
  | ended {e : IndexError} {ix' : Indexer σ} (hs : Spares ix ix') :
      Parses F ix job (.ended e, ix')

/-- An attempt does not end otherwise. -/
theorem parses_parseOnce (F : Frontend σ) (ix : Indexer σ) (job : SourceJob) (attempt : Attempt)
    {options : List String} (ho : ParsedWith job options) :
    Parses F ix job (ix.parseOnce F job attempt options) := by
  unfold parseOnce
  split
  · exact .ended (.refl ix)
  · rename_i before hbefore
    split
    · exact .rejected ⟨rfl, rfl, rfl⟩
    · rename_i unit world hparse
      split
      · exact .ended ⟨rfl, rfl, rfl⟩
      · rename_i after hafter
        split
        · rename_i heq
          subst heq
          exact .parsed ⟨rfl, rfl, rfl⟩ ⟨options, ix.world, world, ho, hparse, hbefore, hafter⟩
        · exact .ended ⟨rfl, rfl, rfl⟩

/-! ## Tasks -/

/-- A unit is made of a file and added to the graph, and nothing else changes but the world and the
    preambles.  The report tells what was done. -/
structure TakesIn (F : Frontend σ) (before : Indexer σ) (job : SourceJob) (report : FileReport)
    (after : Indexer σ) : Prop where
  config : after.config = before.config
  registry : after.registry = before.registry
  unit : ∃ unit, Makes F job unit report.modified ∧
    report.dependencies = unit.inclusions.map (·.path) ∧
    ∃ done, indexUnit (.ofUnit after.world.files unit) before.graph = .ok (done, after.graph) ∧
      report.nodesAdded = done.nodesAdded ∧ report.build = done.build ∧
        report.resolve = done.resolve

/-- How a task ends: with an error, and then the graph is spared, or with a report. -/
inductive Performs (F : Frontend σ) (ix : Indexer σ) (job : SourceJob) :
    Except IndexError FileReport × Indexer σ → Prop where
  | failed {e : IndexError} {ix' : Indexer σ} (hs : Spares ix ix') :
      Performs F ix job (.error e, ix')
  | indexed {report : FileReport} {ix' : Indexer σ} (ht : TakesIn F ix job report ix') :
      Performs F ix job (.ok report, ix')

/-- What was spared before a task counts for the task. -/
theorem Performs.after {ix mid : Indexer σ} {job : SourceJob}
    {done : Except IndexError FileReport × Indexer σ} (hs : Spares ix mid)
    (h : Performs F mid job done) : Performs F ix job done := by
  cases h with
  | failed hs' => exact .failed (hs.trans hs')
  | indexed ht =>
    obtain ⟨hconfig, hregistry, hunit⟩ := ht
    rw [hs.graph] at hunit
    exact .indexed ⟨hconfig.trans hs.config, hregistry.trans hs.registry, hunit⟩

theorem foldl_tell (notices : List ReferenceNotice) (ix : Indexer σ) :
    ∃ told, notices.foldl (fun ix n => ix.tell (.reference n)) ix =
      { ix with world := { ix.world with notices := told } } := by
  refine List.foldlRecOn (motive := fun ix' : Indexer σ => ∃ told, ix' =
    { ix with world := { ix.world with notices := told } }) _ _ ⟨_, rfl⟩ ?_
  rintro _ ⟨told, rfl⟩ n -
  exact ⟨_, rfl⟩

/-- What taking a unit in leaves: its headers are collected, its nodes are added to the graph if its
    cursors form a tree, and notices are told. -/
theorem takeIn_eq (F : Frontend σ) (ix : Indexer σ) (job : SourceJob) (usesPreambles : Bool)
    (attempt : Attempt) (unit : TranslationUnit) (modified : Stamp) :
    let collected :=
      if usesPreambles then ix.contribute F job.options.optionList unit.inclusions else ix
    let lu := LocatedUnit.ofUnit collected.world.files unit
    ∃ notices, (ix.takeIn F job usesPreambles attempt unit modified).2 =
      { collected with
        world := { collected.world with notices }
        graph := match CursorTree.reconstruct lu with
          | .ok tree => (indexTree lu tree collected.graph).2
          | .error _ => collected.graph } := by
  unfold takeIn
  generalize (if usesPreambles = true then _ else ix) = collected
  dsimp only
  cases CursorTree.reconstruct (LocatedUnit.ofUnit collected.world.files unit) with
  | error e => exact ⟨_, rfl⟩
  | ok tree =>
    dsimp only
    split
    · obtain ⟨told, htold⟩ := foldl_tell
        (indexTree (.ofUnit collected.world.files unit) tree collected.graph).1.notices
        { (collected.tell (.cursorTree job.file
            (tree.dump (.ofUnit collected.world.files unit)))) with
          graph := (indexTree (.ofUnit collected.world.files unit) tree collected.graph).2 }
      exact ⟨told, htold⟩
    · obtain ⟨told, htold⟩ := foldl_tell
        (indexTree (.ofUnit collected.world.files unit) tree collected.graph).1.notices
        { collected with
          graph := (indexTree (.ofUnit collected.world.files unit) tree collected.graph).2 }
      exact ⟨told, htold⟩

theorem performs_takeIn {ix : Indexer σ} {job : SourceJob} {unit : TranslationUnit}
    {modified : Stamp} (hmade : Makes F job unit modified) (usesPreambles : Bool)
    (attempt : Attempt) :
    Performs F ix job (ix.takeIn F job usesPreambles attempt unit modified) := by
  -- the headers of the unit are collected first
  have hcollected := (spares_contribute (F := F) ix job.options.optionList unit.inclusions).ite
    (usesPreambles = true)
  unfold takeIn
  generalize (if usesPreambles = true then _ else ix) = mid at hcollected ⊢
  refine .after hcollected ?_
  dsimp only
  split
  · rename_i e _
    exact .failed (spares_tell mid (.brokenTree e))
  · rename_i tree htree
    -- but for the graph, only notices are told from here on
    have hdumped : ∃ told, (if mid.config.wantsDump job.file = true then
        mid.tell (.cursorTree job.file (tree.dump (.ofUnit mid.world.files unit))) else mid) =
          { mid with world := { mid.world with notices := told } } := by
      split
      · exact ⟨_, rfl⟩
      · exact ⟨_, rfl⟩
    obtain ⟨shown, hshown⟩ := hdumped
    rw [hshown]
    obtain ⟨told, htold⟩ := foldl_tell
      (indexTree (.ofUnit mid.world.files unit) tree mid.graph).1.notices
      { mid with
        world := { mid.world with notices := shown }
        graph := (indexTree (.ofUnit mid.world.files unit) tree mid.graph).2 }
    rw [htold]
    refine .indexed ⟨rfl, rfl, unit, hmade, rfl,
      (indexTree (.ofUnit mid.world.files unit) tree mid.graph).1, ?_, rfl, rfl, rfl⟩
    rw [indexUnit, indexUnitInto, htree]
    rfl

theorem performs_runPlain (F : Frontend σ) (ix : Indexer σ) (job : SourceJob)
    (usesPreambles : Bool) : Performs F ix job (ix.runPlain F job usesPreambles) := by
  have hparses := parses_parseOnce F ix job .withoutPreamble (.inl rfl)
  unfold runPlain
  dsimp only
  generalize ix.parseOnce F job .withoutPreamble job.options.optionList = done at hparses ⊢
  cases hparses with
  | parsed hs hm => exact .after hs (performs_takeIn hm usesPreambles .withoutPreamble)
  | rejected hs => exact .failed hs
  | ended hs => exact .failed hs

/-- A task does not end otherwise. -/
theorem performs_runTask (F : Frontend σ) (ix : Indexer σ) (job : SourceJob) :
    Performs F ix job (ix.runTask F job) := by
  unfold runTask
  dsimp only
  split
  · cases hget : ix.preambles.get job.options.optionList with
    | mk entry preambles =>
      dsimp only
      have hasked : Spares ix { ix with preambles } := ⟨rfl, rfl, rfl⟩
      refine .after hasked ?_
      split
      · exact performs_runPlain F _ job true
      · rename_i artifact _
        have hparses := parses_parseOnce F { ix with preambles } job .withPreamble
          (.inr ⟨artifact, rfl⟩)
        generalize parseOnce F { ix with preambles } job .withPreamble _ = done at hparses ⊢
        cases hparses with
        | parsed hs hm => exact .after hs (performs_takeIn hm true .withPreamble)
        | @rejected ix' hs => exact .after hs (performs_runPlain F ix' job true)
        | ended hs => exact .failed hs
  · exact performs_runPlain F ix job false

/-! ## Jobs -/

/-- The canonical path of a file. -/
def key (ix : Indexer σ) (file : Path) : Path := ix.world.files.canonicalPath file

/-- What is remembered of a file that was indexed. -/
def recordOf (job : SourceJob) (report : FileReport) : FileRecord where
  modified := report.modified
  options := job.options.optionList
  dependencies := report.dependencies

/-- How a job ends. -/
inductive Ends (F : Frontend σ) (ix : Indexer σ) (force : Bool) (job : SourceJob) :
    FileOutcome × Indexer σ → Prop where
  | upToDate (hforce : force = false)
      (hknown : ix.isUpToDate (ix.key job.file) job.file job.options.optionList = true) :
      Ends F ix force job (.upToDate, ix)
  | failed {e : IndexError} {ix' : Indexer σ}
      (hdue : force = true ∨
        ix.isUpToDate (ix.key job.file) job.file job.options.optionList = false)
      (hs : Spares ix ix') : Ends F ix force job (.failed e, ix')
  | indexed {report : FileReport} {ix' : Indexer σ}
      (hdue : force = true ∨
        ix.isUpToDate (ix.key job.file) job.file job.options.optionList = false)
      (ht : TakesIn F ix job report ix') :
      Ends F ix force job
        (.indexed report, ix'.remember (ix.key job.file) (recordOf job report))

/-- A job does not end otherwise. -/
theorem ends_runJob (F : Frontend σ) (ix : Indexer σ) (force : Bool) (job : SourceJob) :
    Ends F ix force job (ix.runJob F force job) := by
  have hperforms := performs_runTask F ix job
  unfold runJob
  dsimp only
  split
  · rename_i hknown
    obtain ⟨hforce, hknown⟩ := Bool.and_eq_true_iff.mp hknown
    exact .upToDate (by simpa using hforce) hknown
  · rename_i hdue
    have hdue : force = true ∨
        ix.isUpToDate (ix.key job.file) job.file job.options.optionList = false := by
      cases force with
      | true => exact .inl rfl
      | false => exact .inr (Bool.eq_false_iff.mpr hdue)
    generalize ix.runTask F job = done at hperforms ⊢
    cases hperforms with
    | indexed ht => exact .indexed hdue ht
    | @failed e ix' hs =>
      refine .failed hdue (hs.trans ?_)
      split
      · exact .refl ix'
      · exact spares_tell ix' _

/-- Jobs that run after others run from where those left the indexer. -/
theorem runJobs_append (F : Frontend σ) (force : Bool) (jobs₁ jobs₂ : List SourceJob)
    (ix : Indexer σ) :
    runJobs F force (jobs₁ ++ jobs₂) ix =
      ((runJobs F force jobs₁ ix).1 ++ (runJobs F force jobs₂ (runJobs F force jobs₁ ix).2).1,
        (runJobs F force jobs₂ (runJobs F force jobs₁ ix).2).2) := by
  induction jobs₁ generalizing ix with
  | nil => rfl
  | cons job jobs ih =>
    rw [List.cons_append, runJobs]
    simp only [ih, runJobs]
    rfl

end SymbolAtlas.Indexer
