import SymbolAtlas.Proofs.JobEffects
import SymbolAtlas.Proofs.PreambleEntries

/-!
# Attempts to parse a file

A task parses its file with the preamble of its options, where there is one, and without it where
there is none or the frontend gave no unit.  The modification time of the file is read before every
attempt and again after a parse that made a unit, and any of these readings may fail or show that
the file was changed.  Here all orders of these events are told by a few rules, and every task ends
by them.

* `Indexer.trials` — the ways in which a task may parse its file, in their order.
* `Indexer.Leads` — how one trial ends, with the calls it makes.
* `Indexer.Tries` — how some trials end that are made one after the other.

Principal result: `Indexer.runTask_iff` — a task ends as its trials end, and asks for their parses
and no others.
-/

set_option autoImplicit false

namespace SymbolAtlas

variable {σ : Type}

/-- The call asks for a parse. -/
def FrontendCall.isParse : FrontendCall → Bool
  | .parse .. => true
  | .build .. => false

namespace Indexer

/-! ## Trials -/

/-- A way to parse the file of a job. -/
structure Trial where
  attempt : Attempt
  options : List String

/-- The preamble that the file of a job is parsed with, if there is one. -/
def artifact? (ix : Indexer σ) (job : SourceJob) : Option Path :=
  if ix.preambles.appliesTo job.options.language then
    (ix.preambles.get job.options.optionList).1.bind (·.builtPath ix.world.files)
  else none

/-- The ways to parse the file of a job: with the preamble, if there is one, and without. -/
def trials (ix : Indexer σ) (job : SourceJob) : List Trial :=
  let options := job.options.optionList
  match ix.artifact? job with
  | none => [⟨.withoutPreamble, options⟩]
  | some artifact =>
    [⟨.withPreamble, options ++ [preambleFlag, artifact.text]⟩, ⟨.withoutPreamble, options⟩]

/-- The indexer after the entry for a job was asked for. -/
def asked (ix : Indexer σ) (job : SourceJob) : Indexer σ :=
  if ix.preambles.appliesTo job.options.language then
    { ix with preambles := (ix.preambles.get job.options.optionList).2 }
  else ix

/-- Makes some trials in turn, until one of them is not rejected. -/
def tryAll (F : Frontend σ) (job : SourceJob) (usesPreambles : Bool) :
    List Trial → Indexer σ → Except IndexError FileReport × Indexer σ
  | [], ix =>
    (.error (.parseFailure job.file (job.options.commandLine job.options.optionList job.file)), ix)
  | trial :: trials, ix =>
    match ix.parseOnce F job trial.attempt trial.options with
    | (.parsed unit modified, ix) => ix.takeIn F job usesPreambles trial.attempt unit modified
    | (.ended e, ix) => (.error e, ix)
    | (.rejected, ix) => tryAll F job usesPreambles trials ix

/-- A task makes its trials in turn. -/
theorem runTask_eq_tryAll (F : Frontend σ) (ix : Indexer σ) (job : SourceJob) :
    ix.runTask F job =
      tryAll F job (ix.preambles.appliesTo job.options.language) (ix.trials job)
        (ix.asked job) := by
  unfold runTask trials artifact? asked
  dsimp only
  cases ix.preambles.appliesTo job.options.language with
  | false => rfl
  | true =>
    simp only [if_true]
    generalize ix.preambles.get job.options.optionList = got
    obtain ⟨entry, preambles⟩ := got
    dsimp only
    cases entry.bind (·.builtPath ix.world.files) with
    | none => rfl
    | some artifact => rfl

/-- There is a preamble for a job where preambles are for it, the one of its options was built, and
    the artifact is still there. -/
theorem artifact?_eq_some_iff (ix : Indexer σ) (job : SourceJob) (artifact : Path) :
    ix.artifact? job = some artifact ↔
      ix.preambles.appliesTo job.options.language = true ∧
        ∃ e, ix.preambles.find? job.options.optionList = some e ∧
          e.outcome = some (.ok artifact) ∧ ix.world.files.exists? artifact = true := by
  unfold artifact?
  cases happlies : ix.preambles.appliesTo job.options.language with
  | false => exact ⟨nofun, fun h => by cases h.1⟩
  | true =>
    have henabled : ix.preambles.config.enabled = true := (Bool.and_eq_true_iff.mp happlies).1
    rw [if_pos rfl]
    rcases get_cases henabled job.options.optionList with ⟨e, hfound, hget⟩ | ⟨hnone, e, he, hget⟩
    · rw [hget, hfound]
      exact (e.builtPath_eq_some_iff _ artifact).trans
        ⟨fun h => ⟨rfl, e, rfl, h⟩, fun ⟨_, _, he, h⟩ => by cases he; exact h⟩
    · -- a new entry has no outcome
      rw [hget, hnone]
      subst he
      exact ⟨nofun, fun ⟨_, _, hsome, _⟩ => by cases hsome⟩

/-- To ask for the entry of a job changes nothing, or adds one that is empty. -/
theorem asked_cases (ix : Indexer σ) (job : SourceJob) :
    let options := job.options.optionList
    ix.asked job = ix ∨ ix.preambles.appliesTo job.options.language = true ∧
      ix.preambles.find? options = none ∧
        ix.asked job = { ix with preambles := { ix.preambles with
          entries := ix.preambles.entries ++
            [{ options, path := ix.preambles.artifactPath options }] } } := by
  intro options
  unfold asked
  cases happlies : ix.preambles.appliesTo job.options.language with
  | false => exact .inl rfl
  | true =>
    have henabled : ix.preambles.config.enabled = true := (Bool.and_eq_true_iff.mp happlies).1
    rw [if_pos rfl]
    rcases get_cases henabled options with ⟨e, _, hget⟩ | ⟨hnone, e, he, hget⟩
    · rw [hget]
      exact .inl rfl
    · rw [hget, he]
      exact .inr ⟨rfl, hnone, rfl⟩

/-! ## One trial -/

/-- How a trial ends in some world, with the calls it makes.  A parse is asked for only if the
    modification time of the file can be read, and it counts only if it is the same afterwards. -/
inductive Leads (F : Frontend σ) (job : SourceJob) (trial : Trial) (w : World σ) :
    List FrontendCall → ParseResult → World σ → Prop where
  | unreadable {e : FileError} (hbefore : w.files.modified job.file = .error e) :
      Leads F job trial w [] (.ended (.io job.file e)) w
  | rejected {before : Stamp} {e : FrontendError} {w' : World σ}
      (hbefore : w.files.modified job.file = .ok before)
      (hparse : F.parse job.file trial.options w = (.error e, w')) :
      Leads F job trial w [.parse job.file trial.options w.files (.error e) w'.files]
        .rejected (w'.tell (.parseFailed trial.attempt
          (job.options.commandLine trial.options job.file) e))
  | vanished {before : Stamp} {unit : TranslationUnit} {w' : World σ} {e : FileError}
      (hbefore : w.files.modified job.file = .ok before)
      (hparse : F.parse job.file trial.options w = (.ok unit, w'))
      (hafter : w'.files.modified job.file = .error e) :
      Leads F job trial w [.parse job.file trial.options w.files (.ok unit) w'.files]
        (.ended (.io job.file e)) w'
  | changed {before after : Stamp} {unit : TranslationUnit} {w' : World σ}
      (hbefore : w.files.modified job.file = .ok before)
      (hparse : F.parse job.file trial.options w = (.ok unit, w'))
      (hafter : w'.files.modified job.file = .ok after) (hchanged : after ≠ before) :
      Leads F job trial w [.parse job.file trial.options w.files (.ok unit) w'.files]
        (.ended (.changedDuringIndex job.file)) (w'.tell (.changed job.file))
  | parsed {modified : Stamp} {unit : TranslationUnit} {w' : World σ}
      (hbefore : w.files.modified job.file = .ok modified)
      (hparse : F.parse job.file trial.options w = (.ok unit, w'))
      (hafter : w'.files.modified job.file = .ok modified) :
      Leads F job trial w [.parse job.file trial.options w.files (.ok unit) w'.files]
        (.parsed unit modified) w'

variable {F : Frontend σ} {job : SourceJob} {trial : Trial} {trials : List Trial} {w w' : World σ}
  {ix ix' : Indexer σ} {calls log : List FrontendCall}

/-- Every trial ends in one of these ways. -/
theorem exists_leads (F : Frontend σ) (job : SourceJob) (trial : Trial) (w : World σ) :
    ∃ calls result w', Leads F job trial w calls result w' := by
  cases hbefore : w.files.modified job.file with
  | error e => exact ⟨_, _, _, .unreadable hbefore⟩
  | ok before =>
    cases hparse : F.parse job.file trial.options w with
    | mk result w' =>
      cases result with
      | error e => exact ⟨_, _, _, .rejected hbefore hparse⟩
      | ok unit =>
        cases hafter : w'.files.modified job.file with
        | error e => exact ⟨_, _, _, .vanished hbefore hparse hafter⟩
        | ok after =>
          by_cases hsame : after = before
          · exact ⟨_, _, _, .parsed hbefore hparse (hsame ▸ hafter)⟩
          · exact ⟨_, _, _, .changed hbefore hparse hafter hsame⟩

theorem Leads.isParse {result : ParseResult} (h : Leads F job trial w calls result w') :
    calls.filter (·.isParse) = calls := by
  cases h with
  | unreadable => rfl
  | rejected => rfl
  | vanished => rfl
  | changed => rfl
  | parsed => rfl

/-- What a trial leads to is what parsing once leads to. -/
theorem Leads.parseOnce_eq {result : ParseResult}
    (h : Leads F job trial ix.world calls result w') (log : List FrontendCall) :
    (ix.recording log).parseOnce F.recorded job trial.attempt trial.options =
      (result, (ix.inWorld w').recording (log ++ calls)) := by
  have hrecorded : ∀ {result w'}, F.parse job.file trial.options ix.world = (result, w') →
      F.recorded.parse job.file trial.options (ix.world.recording log) =
        (result, w'.recording (log ++
          [.parse job.file trial.options ix.world.files result w'.files])) :=
    fun hparse => Frontend.recorded_parse hparse
  unfold parseOnce
  rw [recording_world, World.recording_files]
  cases h with
  | unreadable hbefore =>
    rw [hbefore, List.append_nil]
    rfl
  | rejected hbefore hparse =>
    rw [hbefore]
    dsimp only
    rw [hrecorded hparse]
    rfl
  | vanished hbefore hparse hafter =>
    rw [hbefore]
    dsimp only
    rw [hrecorded hparse]
    dsimp only
    rw [World.recording_files, hafter]
    rfl
  | changed hbefore hparse hafter hchanged =>
    rw [hbefore]
    dsimp only
    rw [hrecorded hparse]
    dsimp only
    rw [World.recording_files, hafter]
    dsimp only
    rw [if_neg hchanged]
    rfl
  | parsed hbefore hparse hafter =>
    rw [hbefore]
    dsimp only
    rw [hrecorded hparse]
    dsimp only
    rw [World.recording_files, hafter]
    dsimp only
    rw [if_pos rfl]
    rfl

/-! ## What is made of a unit -/

/-- The headers of a unit go to the preamble of the job's options, where preambles are used. -/
def collect (F : Frontend σ) (job : SourceJob) (usesPreambles : Bool) (unit : TranslationUnit)
    (ix : Indexer σ) : Indexer σ :=
  if usesPreambles then ix.contribute F job.options.optionList unit.inclusions else ix

/-- Leaves some notices. -/
def tellAll (ix : Indexer σ) (notices : List Notice) : Indexer σ := notices.foldl tell ix

theorem tellAll_recording (ix : Indexer σ) (notices : List Notice) (log : List FrontendCall) :
    (ix.recording log).tellAll notices = (ix.tellAll notices).recording log :=
  List.foldl_hom (f := fun ix : Indexer σ => ix.recording log) fun _ _ => rfl

/-- What is told of a unit that is taken in: its tree, if that is wanted, and what came of its
    references. -/
def noticesOf (ix : Indexer σ) (job : SourceJob) (lu : LocatedUnit) (tree : CursorTree)
    (report : UnitReport) : List Notice :=
  (if ix.config.wantsDump job.file then [.cursorTree job.file (tree.dump lu)] else []) ++
    report.notices.map .reference

theorem takeIn_of_error {usesPreambles : Bool} {unit : TranslationUnit} {e : TreeError}
    (htree : CursorTree.reconstruct
      (.ofUnit (ix.collect F job usesPreambles unit).world.files unit) = .error e)
    (attempt : Attempt) (modified : Stamp) :
    ix.takeIn F job usesPreambles attempt unit modified =
      (.error (.structuralInconsistency job.file e),
        (ix.collect F job usesPreambles unit).tell (.brokenTree e)) := by
  unfold collect at htree ⊢
  unfold takeIn
  dsimp only
  rw [htree]

theorem takeIn_of_ok {usesPreambles : Bool} {unit : TranslationUnit} {collected : Indexer σ}
    {lu : LocatedUnit} {tree : CursorTree} {report : UnitReport} {graph : SymbolGraph}
    (hcollected : ix.collect F job usesPreambles unit = collected)
    (hlocated : .ofUnit collected.world.files unit = lu)
    (htree : CursorTree.reconstruct lu = .ok tree)
    (hindexed : indexTree lu tree collected.graph = (report, graph))
    (attempt : Attempt) (modified : Stamp) :
    ix.takeIn F job usesPreambles attempt unit modified =
      (.ok { file := job.file, attempt, nodesAdded := report.nodesAdded, build := report.build,
             resolve := report.resolve, dependencies := unit.inclusions.map (·.path), modified },
        ({ collected with graph } : Indexer σ).tellAll
          (collected.noticesOf job lu tree report)) := by
  unfold collect at hcollected
  unfold takeIn noticesOf
  dsimp only
  rw [hcollected, hlocated, htree]
  dsimp only
  rw [tellAll, List.foldl_append, List.foldl_map]
  split
  · have hgraph : (collected.tell (.cursorTree job.file (tree.dump lu))).graph =
        collected.graph := rfl
    rw [hgraph, hindexed]
    rfl
  · rw [hindexed]
    rfl

/-! ### The record of calls -/

/-- A preamble is built by a call that is no parse. -/
theorem ensureBuilt_recording (F : Frontend σ) (e : PreambleEntry) (w : World σ)
    (log : List FrontendCall) :
    ∃ builds, e.ensureBuilt F.recorded.buildPreamble (w.recording log) =
        ((e.ensureBuilt F.buildPreamble w).1,
          (e.ensureBuilt F.buildPreamble w).2.recording (log ++ builds)) ∧
      builds.filter (·.isParse) = [] := by
  unfold PreambleEntry.ensureBuilt
  cases e.outcome with
  | some o => exact ⟨[], by rw [List.append_nil], rfl⟩
  | none =>
    dsimp only
    split
    · exact ⟨[], by rw [List.append_nil], rfl⟩
    · cases hbuild : F.buildPreamble e.headers e.options e.path w with
      | mk result w' =>
        rw [Frontend.recorded_build (w := w.recording log) hbuild]
        cases result with
        | ok _ => exact ⟨_, rfl, rfl⟩
        | error err => exact ⟨_, rfl, rfl⟩

theorem collect_recording (F : Frontend σ) (job : SourceJob) (usesPreambles : Bool)
    (unit : TranslationUnit) (ix : Indexer σ) (log : List FrontendCall) :
    ∃ builds, (ix.recording log).collect F.recorded job usesPreambles unit =
        (ix.collect F job usesPreambles unit).recording (log ++ builds) ∧
      builds.filter (·.isParse) = [] := by
  have hnothing : ∃ builds, ix.recording log = ix.recording (log ++ builds) ∧
      builds.filter (·.isParse) = [] := ⟨[], by rw [List.append_nil], rfl⟩
  unfold collect
  cases usesPreambles with
  | false => exact hnothing
  | true =>
    simp only [if_true]
    unfold contribute
    rw [recording_preambles, recording_world]
    cases ix.preambles.find? job.options.optionList with
    | none => exact hnothing
    | some e =>
      dsimp only
      split
      · exact hnothing
      · split
        · obtain ⟨builds, hbuilt, hnone⟩ := ensureBuilt_recording F
            (e.add ((unit.inclusions.filter (·.depth == 1)).map (·.path))
              (unit.inclusions.map (·.path))) ix.world log
          refine ⟨builds, ?_, hnone⟩
          rw [hbuilt]
          rfl
        · exact ⟨[], by rw [List.append_nil]; rfl, rfl⟩

/-! ## All trials -/

/-- How some trials end that are made one after the other, with the parses they ask for.  The
    first that is not rejected decides, and the others are not made.  Without a unit the task fails,
    and nothing changes but the world.  The headers of a unit are collected, and its nodes are added
    to the graph if its cursors form a tree. -/
inductive Tries (F : Frontend σ) (job : SourceJob) (usesPreambles : Bool) :
    List Trial → Indexer σ → List FrontendCall → Except IndexError FileReport → Indexer σ →
      Prop where
  | exhausted {ix : Indexer σ} :
      Tries F job usesPreambles [] ix []
        (.error (.parseFailure job.file
          (job.options.commandLine job.options.optionList job.file))) ix
  | rejected {trial : Trial} {trials : List Trial} {ix ix' : Indexer σ} {w : World σ}
      {calls more : List FrontendCall} {result : Except IndexError FileReport}
      (htried : Leads F job trial ix.world calls .rejected w)
      (hmore : Tries F job usesPreambles trials (ix.inWorld w) more result ix') :
      Tries F job usesPreambles (trial :: trials) ix (calls ++ more) result ix'
  | ended {trial : Trial} {untried : List Trial} {ix : Indexer σ} {w : World σ}
      {calls : List FrontendCall} {e : IndexError}
      (htried : Leads F job trial ix.world calls (.ended e) w) :
      Tries F job usesPreambles (trial :: untried) ix calls (.error e) (ix.inWorld w)
  | inconsistent {trial : Trial} {untried : List Trial} {ix : Indexer σ} {w : World σ}
      {calls : List FrontendCall} {unit : TranslationUnit} {modified : Stamp} {e : TreeError}
      (htried : Leads F job trial ix.world calls (.parsed unit modified) w)
      (htree : CursorTree.reconstruct
        (.ofUnit ((ix.inWorld w).collect F job usesPreambles unit).world.files unit) = .error e) :
      Tries F job usesPreambles (trial :: untried) ix calls
        (.error (.structuralInconsistency job.file e))
        (((ix.inWorld w).collect F job usesPreambles unit).tell (.brokenTree e))
  | indexed {trial : Trial} {untried : List Trial} {ix collected : Indexer σ} {w : World σ}
      {calls : List FrontendCall} {unit : TranslationUnit} {modified : Stamp} {lu : LocatedUnit}
      {tree : CursorTree} {report : UnitReport} {graph : SymbolGraph}
      (htried : Leads F job trial ix.world calls (.parsed unit modified) w)
      (hcollected : collected = (ix.inWorld w).collect F job usesPreambles unit)
      (hlocated : lu = .ofUnit collected.world.files unit)
      (htree : CursorTree.reconstruct lu = .ok tree)
      (hindexed : indexTree lu tree ix.graph = (report, graph)) :
      Tries F job usesPreambles (trial :: untried) ix calls
        (.ok { file := job.file, attempt := trial.attempt, nodesAdded := report.nodesAdded,
               build := report.build, resolve := report.resolve,
               dependencies := unit.inclusions.map (·.path), modified })
        (({ collected with graph } : Indexer σ).tellAll
          (collected.noticesOf job lu tree report))

variable {usesPreambles : Bool} {result : Except IndexError FileReport}

/-- Some trials end in one of these ways, whatever the frontend answers. -/
theorem exists_tries (F : Frontend σ) (job : SourceJob) (usesPreambles : Bool)
    (trials : List Trial) (ix : Indexer σ) :
    ∃ calls result ix', Tries F job usesPreambles trials ix calls result ix' := by
  induction trials generalizing ix with
  | nil => exact ⟨_, _, _, .exhausted⟩
  | cons trial trials ih =>
    obtain ⟨calls, result, w, htried⟩ := exists_leads F job trial ix.world
    cases result with
    | rejected =>
      obtain ⟨more, result, ix', hmore⟩ := ih (ix.inWorld w)
      exact ⟨_, _, _, .rejected htried hmore⟩
    | ended e => exact ⟨_, _, _, .ended htried⟩
    | parsed unit modified =>
      cases htree : CursorTree.reconstruct
          (.ofUnit ((ix.inWorld w).collect F job usesPreambles unit).world.files unit) with
      | error e => exact ⟨_, _, _, .inconsistent htried htree⟩
      | ok tree => exact ⟨_, _, _, .indexed htried rfl rfl htree rfl⟩

/-- Trials lead where making them in turn leads, and the parses are among the calls. -/
theorem Tries.tryAll_eq (h : Tries F job usesPreambles trials ix calls result ix')
    (log : List FrontendCall) :
    ∃ made, tryAll F.recorded job usesPreambles trials (ix.recording log) =
        (result, ix'.recording (log ++ made)) ∧ made.filter (·.isParse) = calls := by
  induction h generalizing log with
  | exhausted => exact ⟨[], by rw [List.append_nil]; rfl, rfl⟩
  | @rejected _ _ _ _ _ calls _ _ htried _ ih =>
    obtain ⟨made, hmade, hparses⟩ := ih (log ++ calls)
    refine ⟨calls ++ made, ?_, by rw [List.filter_append, htried.isParse, hparses]⟩
    rw [tryAll, htried.parseOnce_eq log, ← List.append_assoc]
    exact hmade
  | ended htried =>
    refine ⟨_, ?_, htried.isParse⟩
    rw [tryAll, htried.parseOnce_eq log]
  | @inconsistent trial _ ix w calls unit modified e htried htree =>
    obtain ⟨builds, hcollected, hnone⟩ :=
      collect_recording F job usesPreambles unit (ix.inWorld w) (log ++ calls)
    refine ⟨calls ++ builds, ?_, by rw [List.filter_append, htried.isParse, hnone,
      List.append_nil]⟩
    rw [tryAll, htried.parseOnce_eq log]
    dsimp only
    rw [takeIn_of_error (by rw [hcollected]; exact htree), hcollected, List.append_assoc]
    rfl
  | @indexed trial _ ix collected w calls unit modified lu tree report graph htried hcollected
      hlocated htree hindexed =>
    obtain ⟨builds, hrecorded, hnone⟩ :=
      collect_recording F job usesPreambles unit (ix.inWorld w) (log ++ calls)
    -- to collect headers leaves the graph as it was
    have hgraph : collected.graph = ix.graph := by
      rw [hcollected]
      exact ((spares_contribute (ix.inWorld w) _ _).ite (usesPreambles = true)).graph
    rw [← hcollected] at hrecorded
    rw [← hgraph] at hindexed
    refine ⟨calls ++ builds, ?_, by rw [List.filter_append, htried.isParse, hnone,
      List.append_nil]⟩
    rw [tryAll, htried.parseOnce_eq log, ← List.append_assoc, ← tellAll_recording]
    exact takeIn_of_ok hrecorded hlocated.symm htree hindexed trial.attempt modified

/-! ## Tasks -/

/-- The parses that a task asks for. -/
def parses (F : Frontend σ) (ix : Indexer σ) (job : SourceJob) : List FrontendCall :=
  (ix.recording.runTask F.recorded job).2.world.state.calls.filter (·.isParse)

/-- A task ends as its trials do. -/
theorem Tries.runTask_eq
    (h : Tries F job (ix.preambles.appliesTo job.options.language) (ix.trials job) (ix.asked job)
      calls result ix') :
    ix.runTask F job = (result, ix') ∧ ix.parses F job = calls := by
  obtain ⟨made, hmade, hparses⟩ := h.tryAll_eq []
  have hasked : ix.recording.asked job = (ix.asked job).recording := by
    unfold asked
    rw [apply_ite (recording · [])]
    rfl
  have hrecorded : ix.recording.runTask F.recorded job = (result, ix'.recording made) := by
    rw [runTask_eq_tryAll, hasked]
    exact hmade
  -- the record makes no difference
  obtain ⟨hresult, hafter⟩ :=
    agree_runTask F.recorded_answersAlike (alongside_unrecorded ix.recording) job
  rw [hrecorded] at hresult hafter
  refine ⟨Prod.ext hresult.symm hafter.eq_unrecorded, ?_⟩
  rw [parses, hrecorded]
  exact hparses

/-- **A file is parsed with its preamble, if there is one, and then without, and the first parse
    that makes a unit decides.**  There is a preamble where preambles are for the language of the
    job, that of its options was built, and the artifact is still there; to ask for it changes
    nothing, or adds an entry that is empty.  Whatever the frontend answers and does to the files
    meanwhile, a task ends as the rules of `Tries` tell for its trials, with the parses they tell
    and no others; and no task that ends otherwise, or with other parses, is told of by them. -/
theorem runTask_iff (F : Frontend σ) (ix : Indexer σ) (job : SourceJob) :
    let options := job.options.optionList
    let applies := ix.preambles.appliesTo job.options.language
    (∀ artifact, ix.artifact? job = some artifact ↔
      applies = true ∧ ∃ e, ix.preambles.find? options = some e ∧
        e.outcome = some (.ok artifact) ∧ ix.world.files.exists? artifact = true) ∧
    (ix.asked job = ix ∨ applies = true ∧ ix.preambles.find? options = none ∧
      ix.asked job = { ix with preambles := { ix.preambles with
        entries := ix.preambles.entries ++
          [{ options, path := ix.preambles.artifactPath options }] } }) ∧
    ∀ calls result after,
      ix.runTask F job = (result, after) ∧ ix.parses F job = calls ↔
        Tries F job applies (ix.trials job) (ix.asked job) calls result after := by
  intro options applies
  refine ⟨ix.artifact?_eq_some_iff job, ix.asked_cases job, fun calls result after =>
    ⟨?_, fun h => h.runTask_eq⟩⟩
  rintro ⟨hrun, hparses⟩
  obtain ⟨calls', result', after', h⟩ :=
    exists_tries F job applies (ix.trials job) (ix.asked job)
  obtain ⟨hrun', hparses'⟩ := h.runTask_eq
  cases hrun.symm.trans hrun'
  cases hparses.symm.trans hparses'
  exact h

end Indexer

end SymbolAtlas
