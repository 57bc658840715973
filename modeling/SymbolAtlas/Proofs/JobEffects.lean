import Mathlib.Data.List.Forall2
import Mathlib.Data.List.ReduceOption
import SymbolAtlas.Frontend.Scripted
import SymbolAtlas.Proofs.GraphRuns
import SymbolAtlas.Proofs.JobSteps

/-!
# What jobs leave behind

Only a job that is indexed has an effect on the graph and on what is remembered of files: its unit
is added, and its file is remembered.  A job that is up to date or fails has none, whatever the
frontend and the files did meanwhile, and the jobs behind it run as if it had changed nothing but
the world and the preambles.

* `Effect` — what an indexed job does to the graph and to what is remembered.
* `Indexer.Leaves` — the effect that a job has by how it ends, if it has one.
* `Indexer.turns` — the jobs of a batch, each with the indexer when its turn comes.

Principal result: `Indexer.unindexed_spares` — a job that is not indexed changes neither the graph
nor what is remembered of files; a batch leaves the effects of the jobs that were indexed.
-/

set_option autoImplicit false

namespace SymbolAtlas

/-- A unit is added to the graph, and a file is remembered under its canonical path. -/
structure Effect where
  unit : LocatedUnit
  key : Path
  record : FileRecord

namespace Indexer

variable {σ : Type} {F : Frontend σ}

/-- The indexer in another world. -/
def inWorld (ix : Indexer σ) (world : World σ) : Indexer σ := { ix with world }

/-- What outlasts jobs: the graph, and what is remembered of files. -/
def kept (ix : Indexer σ) : SymbolGraph × List (Path × FileRecord) := (ix.graph, ix.registry)

end Indexer

/-- The effect on a graph and on what is remembered of files. -/
def Effect.apply (kept : SymbolGraph × List (Path × FileRecord)) (e : Effect) :
    SymbolGraph × List (Path × FileRecord) :=
  ((SymbolGraph.Operation.index e.unit).apply kept.1,
    kept.2.filter (fun known => !(known.1 == e.key)) ++ [(e.key, e.record)])

namespace Indexer

variable {σ : Type} {F : Frontend σ}

/-- The effect of a job whose turn has come, by how it ends: a unit that the frontend made of the
    file, located in the files that are there then, and the record of the report under the
    canonical path that the file had before; none unless the job was indexed. -/
inductive Leaves (F : Frontend σ) (turn : Indexer σ) (job : SourceJob) :
    FileOutcome × Indexer σ → Option Effect → Prop where
  | indexed {report : FileReport} {unit : TranslationUnit} {after : Indexer σ}
      (hm : Makes F job unit report.modified)
      (hd : report.dependencies = unit.inclusions.map (·.path)) :
      Leaves F turn job (.indexed report, after)
        (some ⟨.ofUnit after.world.files unit, turn.key job.file, recordOf job report⟩)
  | upToDate (after : Indexer σ) : Leaves F turn job (.upToDate, after) none
  | failed (e : IndexError) (after : Indexer σ) : Leaves F turn job (.failed e, after) none

/-- The jobs of a batch, each with the indexer when its turn comes. -/
def turns (F : Frontend σ) (force : Bool) :
    List SourceJob → Indexer σ → List (SourceJob × Indexer σ)
  | [], _ => []
  | job :: jobs, ix => (job, ix) :: turns F force jobs (ix.runJob F force job).2

/-- A job that is not indexed spares what was there. -/
theorem Ends.spares {ix : Indexer σ} {force : Bool} {job : SourceJob}
    {done : FileOutcome × Indexer σ} (h : Ends F ix force job done)
    (hnot : ∀ report, done.1 ≠ .indexed report) : Spares ix done.2 := by
  cases h with
  | upToDate _ _ => exact .refl ix
  | failed _ hs => exact hs
  | indexed _ _ => exact absurd rfl (hnot _)

/-- A job has the effect that its end tells. -/
theorem Ends.leaves {ix : Indexer σ} {force : Bool} {job : SourceJob}
    {done : FileOutcome × Indexer σ} (h : Ends F ix force job done) :
    ∃ effect, Leaves F ix job done effect ∧
      done.2.kept = effect.toList.foldl Effect.apply ix.kept := by
  cases h with
  | upToDate _ _ => exact ⟨none, .upToDate ix, rfl⟩
  | @failed e ix' _ hs =>
    refine ⟨none, .failed e ix', ?_⟩
    show ix'.kept = ix.kept
    rw [kept, hs.graph, hs.registry]
    rfl
  | @indexed report ix' _ ht =>
    obtain ⟨unit, hm, hd, done, hdone, _⟩ := ht.unit
    refine ⟨some ⟨.ofUnit ix'.world.files unit, ix.key job.file, recordOf job report⟩,
      .indexed hm hd, ?_⟩
    have hgraph : (SymbolGraph.Operation.index (.ofUnit ix'.world.files unit)).apply ix.graph =
        ix'.graph := by
      simp only [SymbolGraph.Operation.apply, hdone]
    have hregistry : (ix'.remember (ix.key job.file) (recordOf job report)).registry =
        ix.registry.filter (fun known => !(known.1 == ix.key job.file)) ++
          [(ix.key job.file, recordOf job report)] := by
      rw [remember, ht.registry]
    exact Prod.ext hgraph.symm hregistry

/-- A batch tells how its jobs end, each in its turn. -/
theorem runJobs_outcomes (F : Frontend σ) (force : Bool) (jobs : List SourceJob) (ix : Indexer σ) :
    (runJobs F force jobs ix).1 =
      (turns F force jobs ix).map fun t => (t.1.file, (t.2.runJob F force t.1).1) := by
  induction jobs generalizing ix with
  | nil => rfl
  | cons job jobs ih =>
    rw [runJobs, turns, List.map_cons]
    dsimp only
    rw [ih]

/-- A batch leaves the effects of the jobs that were indexed. -/
theorem runJobs_leaves (F : Frontend σ) (force : Bool) (jobs : List SourceJob) (ix : Indexer σ) :
    ∃ effects, List.Forall₂ (fun (t : SourceJob × Indexer σ) =>
        Leaves F t.2 t.1 (t.2.runJob F force t.1)) (turns F force jobs ix) effects ∧
      (runJobs F force jobs ix).2.kept = effects.reduceOption.foldl Effect.apply ix.kept := by
  induction jobs generalizing ix with
  | nil => exact ⟨[], .nil, rfl⟩
  | cons job jobs ih =>
    obtain ⟨effect, hleaves, hkept⟩ := (ends_runJob F ix force job).leaves
    obtain ⟨effects, hall, hrest⟩ := ih (ix.runJob F force job).2
    refine ⟨effect :: effects, .cons hleaves hall, ?_⟩
    rw [runJobs]
    dsimp only
    rw [hrest, hkept]
    cases effect with
    | none => rw [List.reduceOption_cons_of_none, Option.toList_none, List.foldl_nil]
    | some e =>
      rw [List.reduceOption_cons_of_some, Option.toList_some, List.foldl_cons, List.foldl_nil,
        List.foldl_cons]

/-- **A job that is not indexed changes neither the graph nor what is remembered of files**, and so
    neither the headers of any file nor what is up to date in any world; the jobs behind it run as
    if it had touched nothing but the world and the preambles.  A batch tells how every job ended
    when its turn came, and leaves the effects of the jobs that were indexed, in their order, and
    nothing else. -/
theorem unindexed_spares {F : Frontend σ} {force : Bool} {before after : List SourceJob}
    {job : SourceJob} {ix : Indexer σ}
    (h : ∀ report, ((runJobs F force before ix).2.runJob F force job).1 ≠ .indexed report) :
    let turn := (runJobs F force before ix).2
    let own := turn.runJob F force job
    let rest := runJobs F force after
      { turn with world := own.2.world, preambles := own.2.preambles }
    let ran := runJobs F force (before ++ job :: after) ix
    (own.2.graph = turn.graph ∧ own.2.registry = turn.registry ∧
      ∀ world,
        (∀ file, (own.2.inWorld world).dependencies file = (turn.inWorld world).dependencies file) ∧
        ∀ key file options, (own.2.inWorld world).isUpToDate key file options =
          (turn.inWorld world).isUpToDate key file options) ∧
    ran = ((runJobs F force before ix).1 ++ (job.file, own.1) :: rest.1, rest.2) ∧
    ran.1 = (turns F force (before ++ job :: after) ix).map
      (fun t => (t.1.file, (t.2.runJob F force t.1).1)) ∧
    ∃ effects, List.Forall₂ (fun (t : SourceJob × Indexer σ) =>
        Leaves F t.2 t.1 (t.2.runJob F force t.1))
        (turns F force (before ++ job :: after) ix) effects ∧
      ran.2.kept = effects.reduceOption.foldl Effect.apply ix.kept := by
  intro turn own rest ran
  have hspares : Spares turn own.2 := (ends_runJob F turn force job).spares h
  have hremembered : ∀ world key, (own.2.inWorld world).record? key =
      (turn.inWorld world).record? key := fun world key => by
    unfold record? inWorld
    dsimp only
    rw [hspares.registry]
  refine ⟨⟨hspares.graph, hspares.registry,
    fun world => ⟨fun file => ?_, fun key file options => ?_⟩⟩, ?_,
    runJobs_outcomes F force _ ix, runJobs_leaves F force _ ix⟩
  · unfold dependencies
    rw [hremembered]
    rfl
  · unfold isUpToDate
    rw [hremembered]
    rfl
  · have hrest : rest = runJobs F force after own.2 :=
      congrArg (runJobs F force after) hspares.eq.symm
    rw [hrest]
    exact runJobs_append F force before (job :: after) ix

/-- A file with one variable. -/
def plainUnit (file : Path) : TranslationUnit where
  mainFile := file
  cursors := #[
    { kind := .translationUnit, spelling := file.text, position := .none },
    { kind := .varDecl, spelling := "v", position := ⟨some file, 1, 5⟩, isDefinition := true,
      parent := some 0 }]

/-- A C++ file without options. -/
def plainJob (file : Path) : SourceJob where
  file := file
  options := { language := .cxx }

/-- Three files, the second of which is written while it is parsed. -/
def unsettledIndexer : Indexer Scripted.State :=
  .new { preamble := .disabled }
    { entries := [(["a.cpp"], .file .empty ⟨5, 0⟩), (["b.cpp"], .file .empty ⟨5, 0⟩),
        (["c.cpp"], .file .empty ⟨5, 0⟩)] }
    { units := [plainUnit ⟨"/a.cpp"⟩, plainUnit ⟨"/b.cpp"⟩, plainUnit ⟨"/c.cpp"⟩]
      hook := fun file files =>
        if file == ⟨"/b.cpp"⟩ then files.put ["b.cpp"] (.file .empty ⟨6, 0⟩) else files }

/-- The same when the turn comes to the second file. -/
def unsettledTurn : Indexer Scripted.State :=
  (runJobs Scripted.frontend false [plainJob ⟨"/a.cpp"⟩] unsettledIndexer).2

theorem unsettledTurn_fails :
    (unsettledTurn.runJob Scripted.frontend false (plainJob ⟨"/b.cpp"⟩)).1 =
      .failed (.changedDuringIndex ⟨"/b.cpp"⟩) := by
  with_unfolding_all rfl

theorem unindexed_spares_changedFile :
    let own := unsettledTurn.runJob Scripted.frontend false (plainJob ⟨"/b.cpp"⟩)
    let ran := runJobs Scripted.frontend false
      [plainJob ⟨"/a.cpp"⟩, plainJob ⟨"/b.cpp"⟩, plainJob ⟨"/c.cpp"⟩] unsettledIndexer
    own.1 = .failed (.changedDuringIndex ⟨"/b.cpp"⟩) ∧ own.2.graph = unsettledTurn.graph ∧
      own.2.registry = unsettledTurn.registry ∧ unsettledTurn.graph.size = 2 ∧
        ran.2.graph.size = 3 ∧ ran.1.indexed = 2 := by
  intro own ran
  have hfailed : ∀ report, own.1 ≠ .indexed report := fun report hindexed => by
    rw [unsettledTurn_fails] at hindexed
    cases hindexed
  obtain ⟨⟨hgraph, hregistry, _⟩, _⟩ :=
    @unindexed_spares _ Scripted.frontend false [plainJob ⟨"/a.cpp"⟩] [plainJob ⟨"/c.cpp"⟩]
      (plainJob ⟨"/b.cpp"⟩) unsettledIndexer hfailed
  exact ⟨unsettledTurn_fails, hgraph, hregistry, by decide +kernel, by decide +kernel,
    by decide +kernel⟩

end Indexer

end SymbolAtlas
