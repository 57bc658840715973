import Mathlib.Data.List.Induction
import SymbolAtlas.Proofs.Histories

/-!
# What is asked of a frontend

An indexer calls its frontend, and what it calls it with depends on the answers before.  Here a
frontend keeps a record of its calls, without a change in what it answers, so that every call that
an indexer makes can be spoken of.

* `FrontendCall` — one call, with the files before and after it.
* `Frontend.recorded` — the frontend with a record of its calls.
* `Indexer.Chronicle` — the calls that some steps make, each with the step that makes it.

Principal results: `Indexer.agree_runJob`, `Indexer.agree_buildPreambles` — where two frontends
answer alike in worlds that correspond, what indexers do with them corresponds; hence
`Indexer.unrecorded_apply` — the record of calls changes nothing.
-/

set_option autoImplicit false

namespace SymbolAtlas

/-- One call of a frontend: what it was asked for, the files before it, what it answered, and the
    files after it. -/
inductive FrontendCall where
  | parse (file : Path) (options : List String) (before : FileSystem)
      (result : Except FrontendError TranslationUnit) (after : FileSystem)
  | build (inputs : PreambleInputs) (options : List String) (output : Path) (before : FileSystem)
      (result : Except FrontendError Unit) (after : FileSystem)

/-- The state of a frontend with the calls made so far. -/
structure Recorded (σ : Type) where
  state : σ
  calls : List FrontendCall := []

variable {σ τ : Type}

/-- The world without the record. -/
def World.unrecorded (w : World (Recorded σ)) : World σ where
  files := w.files
  state := w.state.state
  notices := w.notices

/-- The world with a record of calls. -/
def World.recording (w : World σ) (calls : List FrontendCall) : World (Recorded σ) where
  files := w.files
  state := { state := w.state, calls }
  notices := w.notices

@[simp]
theorem World.recording_files (w : World σ) (calls : List FrontendCall) :
    (w.recording calls).files = w.files := rfl

/-- The frontend that answers as another one and keeps a record. -/
def Frontend.recorded (F : Frontend σ) : Frontend (Recorded σ) where
  parse file options w :=
    let (result, w') := F.parse file options w.unrecorded
    (result, w'.recording (w.state.calls ++ [.parse file options w.files result w'.files]))
  buildPreamble inputs options output w :=
    let (result, w') := F.buildPreamble inputs options output w.unrecorded
    (result,
      w'.recording (w.state.calls ++ [.build inputs options output w.files result w'.files]))

theorem Frontend.recorded_parse {F : Frontend σ} {file : Path} {options : List String}
    {w : World (Recorded σ)} {result : Except FrontendError TranslationUnit} {w' : World σ}
    (h : F.parse file options w.unrecorded = (result, w')) :
    F.recorded.parse file options w = (result,
      w'.recording (w.state.calls ++ [.parse file options w.files result w'.files])) := by
  simp only [recorded, h]

theorem Frontend.recorded_build {F : Frontend σ} {inputs : PreambleInputs} {options : List String}
    {output : Path} {w : World (Recorded σ)} {result : Except FrontendError Unit} {w' : World σ}
    (h : F.buildPreamble inputs options output w.unrecorded = (result, w')) :
    F.recorded.buildPreamble inputs options output w = (result,
      w'.recording (w.state.calls ++ [.build inputs options output w.files result w'.files])) := by
  simp only [recorded, h]

/-- In worlds that correspond two frontends answer alike, and the worlds behind still correspond. -/
structure Frontend.AnswersAlike (G : Frontend τ) (F : Frontend σ)
    (R : World τ → World σ → Prop) : Prop where
  files : ∀ {w v}, R w v → w.files = v.files
  tell : ∀ {w v} n, R w v → R (w.tell n) (v.tell n)
  parse : ∀ {w v} file options, R w v → (G.parse file options w).1 = (F.parse file options v).1 ∧
    R (G.parse file options w).2 (F.parse file options v).2
  build : ∀ {w v} inputs options output, R w v →
    (G.buildPreamble inputs options output w).1 = (F.buildPreamble inputs options output v).1 ∧
    R (G.buildPreamble inputs options output w).2 (F.buildPreamble inputs options output v).2

/-- A property of worlds that a frontend keeps corresponds to itself. -/
theorem Frontend.answersAlike_of_keeps {F : Frontend σ} {P : World σ → Prop}
    (htell : ∀ w n, P w → P (w.tell n))
    (hparse : ∀ w file options, P w → P (F.parse file options w).2)
    (hbuild : ∀ w inputs options output, P w → P (F.buildPreamble inputs options output w).2) :
    F.AnswersAlike F fun w v => v = w ∧ P w where
  files := fun ⟨hv, _⟩ => by rw [hv]
  tell := fun n ⟨hv, hw⟩ => ⟨by rw [hv], htell _ n hw⟩
  parse := fun file options ⟨hv, hw⟩ => by
    subst hv
    exact ⟨rfl, rfl, hparse _ file options hw⟩
  build := fun inputs options output ⟨hv, hw⟩ => by
    subst hv
    exact ⟨rfl, rfl, hbuild _ inputs options output hw⟩

/-- A record makes no difference to the answers. -/
theorem Frontend.recorded_answersAlike (F : Frontend σ) :
    F.recorded.AnswersAlike F fun w v => v = w.unrecorded where
  files := fun hv => by rw [hv]; rfl
  tell := fun n hv => by rw [hv]; rfl
  parse := fun _ _ hv => by
    subst hv
    exact ⟨rfl, rfl⟩
  build := fun _ _ _ hv => by
    subst hv
    exact ⟨rfl, rfl⟩

namespace Indexer

variable {G : Frontend τ} {F : Frontend σ} {R : World τ → World σ → Prop}

/-! ## Two indexers side by side -/

/-- Two indexers differ in their worlds only, and these correspond. -/
structure Alongside (R : World τ → World σ → Prop) (ix : Indexer τ) (jx : Indexer σ) : Prop where
  config : ix.config = jx.config
  world : R ix.world jx.world
  graph : ix.graph = jx.graph
  preambles : ix.preambles = jx.preambles
  registry : ix.registry = jx.registry

/-- What two indexers do leads to the same result, and leaves them side by side. -/
def Agree {α : Type} (R : World τ → World σ → Prop) (done : α × Indexer τ)
    (done' : α × Indexer σ) : Prop :=
  done.1 = done'.1 ∧ Alongside R done.2 done'.2

theorem Alongside.tell (hF : G.AnswersAlike F R) {ix : Indexer τ} {jx : Indexer σ}
    (h : Alongside R ix jx) (n : Notice) : Alongside R (ix.tell n) (jx.tell n) :=
  ⟨h.config, hF.tell n h.world, h.graph, h.preambles, h.registry⟩

theorem agree_parseOnce (hF : G.AnswersAlike F R) {ix : Indexer τ} {jx : Indexer σ}
    (h : Alongside R ix jx) (job : SourceJob) (attempt : Attempt) (options : List String) :
    Agree R (ix.parseOnce G job attempt options) (jx.parseOnce F job attempt options) := by
  obtain ⟨hresult, hworld⟩ := hF.parse job.file options h.world
  have hin : ∀ {w v}, R w v → Alongside R { ix with world := w } { jx with world := v } :=
    fun hwv => ⟨h.config, hwv, h.graph, h.preambles, h.registry⟩
  unfold parseOnce
  rw [hF.files h.world]
  cases jx.world.files.modified job.file with
  | error e => exact ⟨rfl, h⟩
  | ok before =>
    generalize G.parse job.file options ix.world = done at hresult hworld
    generalize F.parse job.file options jx.world = done' at hresult hworld
    obtain ⟨result, w⟩ := done
    obtain ⟨result', v⟩ := done'
    obtain rfl : result = result' := hresult
    dsimp only at hworld
    cases result with
    | error e => exact ⟨rfl, hin (hF.tell _ hworld)⟩
    | ok unit =>
      dsimp only
      rw [hF.files hworld]
      cases v.files.modified job.file with
      | error e => exact ⟨rfl, hin hworld⟩
      | ok after =>
        dsimp only
        split
        · exact ⟨rfl, hin hworld⟩
        · exact ⟨rfl, hin (hF.tell _ hworld)⟩

theorem ensureBuilt_alike (hF : G.AnswersAlike F R) {w : World τ} {v : World σ} (h : R w v)
    (e : PreambleEntry) :
    (e.ensureBuilt G.buildPreamble w).1 = (e.ensureBuilt F.buildPreamble v).1 ∧
      R (e.ensureBuilt G.buildPreamble w).2 (e.ensureBuilt F.buildPreamble v).2 := by
  obtain ⟨hresult, hworld⟩ := hF.build e.headers e.options e.path h
  unfold PreambleEntry.ensureBuilt
  cases e.outcome with
  | some o => exact ⟨rfl, h⟩
  | none =>
    dsimp only
    split
    · exact ⟨rfl, h⟩
    · generalize G.buildPreamble e.headers e.options e.path w = done at hresult hworld
      generalize F.buildPreamble e.headers e.options e.path v = done' at hresult hworld
      obtain ⟨result, w⟩ := done
      obtain ⟨result', v⟩ := done'
      obtain rfl : result = result' := hresult
      cases result with
      | ok _ => exact ⟨rfl, hworld⟩
      | error err => exact ⟨rfl, hF.tell _ hworld⟩

theorem alongside_contribute (hF : G.AnswersAlike F R) {ix : Indexer τ} {jx : Indexer σ}
    (h : Alongside R ix jx) (options : List String) (inclusions : List Inclusion) :
    Alongside R (ix.contribute G options inclusions) (jx.contribute F options inclusions) := by
  unfold contribute
  rw [h.preambles]
  cases jx.preambles.find? options with
  | none => exact h
  | some e =>
    dsimp only
    split
    · exact h
    · split
      · obtain ⟨hbuilt, hworld⟩ := ensureBuilt_alike hF h.world
          (e.add ((inclusions.filter (·.depth == 1)).map (·.path)) (inclusions.map (·.path)))
        exact ⟨h.config, hworld, h.graph, by rw [hbuilt], h.registry⟩
      · exact ⟨h.config, h.world, h.graph, rfl, h.registry⟩

theorem agree_takeIn (hF : G.AnswersAlike F R) {ix : Indexer τ} {jx : Indexer σ}
    (h : Alongside R ix jx) (job : SourceJob) (usesPreambles : Bool) (attempt : Attempt)
    (unit : TranslationUnit) (modified : Stamp) :
    Agree R (ix.takeIn G job usesPreambles attempt unit modified)
      (jx.takeIn F job usesPreambles attempt unit modified) := by
  have hcollected : Alongside R
      (if usesPreambles then ix.contribute G job.options.optionList unit.inclusions else ix)
      (if usesPreambles then jx.contribute F job.options.optionList unit.inclusions else jx) := by
    split
    · exact alongside_contribute hF h _ _
    · exact h
  unfold takeIn
  generalize (if usesPreambles = true then ix.contribute G _ _ else ix) = ix at hcollected ⊢
  generalize (if usesPreambles = true then jx.contribute F _ _ else jx) = jx at hcollected ⊢
  dsimp only
  rw [hF.files hcollected.world, hcollected.config]
  cases CursorTree.reconstruct (LocatedUnit.ofUnit jx.world.files unit) with
  | error e => exact ⟨rfl, hcollected.tell hF _⟩
  | ok tree =>
    dsimp only
    have hshown : Alongside R
        (if jx.config.wantsDump job.file then
          ix.tell (.cursorTree job.file (tree.dump (.ofUnit jx.world.files unit))) else ix)
        (if jx.config.wantsDump job.file then
          jx.tell (.cursorTree job.file (tree.dump (.ofUnit jx.world.files unit))) else jx) := by
      split
      · exact hcollected.tell hF _
      · exact hcollected
    generalize LocatedUnit.ofUnit jx.world.files unit = lu at hshown ⊢
    generalize (if jx.config.wantsDump job.file = true then ix.tell _ else ix) = ix' at hshown ⊢
    generalize (if jx.config.wantsDump job.file = true then jx.tell _ else jx) = jx' at hshown ⊢
    rw [hshown.graph]
    refine ⟨rfl, ?_⟩
    generalize (indexTree lu tree jx'.graph).1.notices = notices
    have hindexed : Alongside R { ix' with graph := (indexTree lu tree jx'.graph).2 }
        { jx' with graph := (indexTree lu tree jx'.graph).2 } :=
      ⟨hshown.config, hshown.world, rfl, hshown.preambles, hshown.registry⟩
    generalize { ix' with graph := (indexTree lu tree jx'.graph).2 } = ix at hindexed ⊢
    generalize { jx' with graph := (indexTree lu tree jx'.graph).2 } = jx at hindexed ⊢
    induction notices generalizing ix jx with
    | nil => exact hindexed
    | cons n notices ih => exact ih _ _ (hindexed.tell hF _)

theorem agree_runPlain (hF : G.AnswersAlike F R) {ix : Indexer τ} {jx : Indexer σ}
    (h : Alongside R ix jx) (job : SourceJob) (usesPreambles : Bool) :
    Agree R (ix.runPlain G job usesPreambles) (jx.runPlain F job usesPreambles) := by
  obtain ⟨hresult, hafter⟩ := agree_parseOnce hF h job .withoutPreamble job.options.optionList
  unfold runPlain
  dsimp only
  generalize ix.parseOnce G job .withoutPreamble job.options.optionList = done at hresult hafter ⊢
  generalize jx.parseOnce F job .withoutPreamble job.options.optionList = done' at hresult hafter ⊢
  obtain ⟨result, ix⟩ := done
  obtain ⟨result', jx⟩ := done'
  obtain rfl : result = result' := hresult
  dsimp only at hafter
  cases result with
  | parsed unit modified => exact agree_takeIn hF hafter job usesPreambles _ unit modified
  | ended e => exact ⟨rfl, hafter⟩
  | rejected => exact ⟨rfl, hafter⟩

theorem agree_runTask (hF : G.AnswersAlike F R) {ix : Indexer τ} {jx : Indexer σ}
    (h : Alongside R ix jx) (job : SourceJob) :
    Agree R (ix.runTask G job) (jx.runTask F job) := by
  unfold runTask
  rw [h.preambles]
  dsimp only
  split
  · generalize jx.preambles.get job.options.optionList = asked
    obtain ⟨entry, preambles⟩ := asked
    have hasked : Alongside R { ix with preambles } { jx with preambles } :=
      ⟨h.config, h.world, h.graph, rfl, h.registry⟩
    dsimp only
    rw [hF.files h.world]
    cases entry.bind (·.builtPath jx.world.files) with
    | none => exact agree_runPlain hF hasked job true
    | some artifact =>
      obtain ⟨hresult, hafter⟩ := agree_parseOnce hF hasked job .withPreamble
        (job.options.optionList ++ [preambleFlag, artifact.text])
      dsimp only
      generalize parseOnce G { ix with preambles } job _ _ = done at hresult hafter ⊢
      generalize parseOnce F { jx with preambles } job _ _ = done' at hresult hafter ⊢
      obtain ⟨result, ix'⟩ := done
      obtain ⟨result', jx'⟩ := done'
      obtain rfl : result = result' := hresult
      dsimp only at hafter
      cases result with
      | parsed unit modified => exact agree_takeIn hF hafter job true _ unit modified
      | ended e => exact ⟨rfl, hafter⟩
      | rejected => exact agree_runPlain hF hafter job true
  · exact agree_runPlain hF h job false

/-- Indexers side by side end a job alike. -/
theorem agree_runJob (hF : G.AnswersAlike F R) {ix : Indexer τ} {jx : Indexer σ}
    (h : Alongside R ix jx) (force : Bool) (job : SourceJob) :
    Agree R (ix.runJob G force job) (jx.runJob F force job) := by
  have hknown : ∀ key file options, ix.isUpToDate key file options =
      jx.isUpToDate key file options := fun key file options => by
    rw [isUpToDate, isUpToDate, record?, record?, h.registry, hF.files h.world]
  obtain ⟨hresult, hafter⟩ := agree_runTask hF h job
  unfold runJob
  dsimp only
  rw [hknown, hF.files h.world]
  split
  · exact ⟨rfl, h⟩
  · generalize ix.runTask G job = done at hresult hafter ⊢
    generalize jx.runTask F job = done' at hresult hafter ⊢
    obtain ⟨result, ix'⟩ := done
    obtain ⟨result', jx'⟩ := done'
    obtain rfl : result = result' := hresult
    dsimp only at hafter
    cases result with
    | ok report =>
      refine ⟨rfl, hafter.config, hafter.world, hafter.graph, hafter.preambles, ?_⟩
      show ix'.registry.filter _ ++ _ = jx'.registry.filter _ ++ _
      rw [hafter.registry]
    | error e =>
      refine ⟨rfl, ?_⟩
      dsimp only
      split
      · exact hafter
      · exact hafter.tell hF _

/-- Indexers side by side build their preambles alike. -/
theorem agree_buildPreambles (hF : G.AnswersAlike F R) {ix : Indexer τ} {jx : Indexer σ}
    (h : Alongside R ix jx) : Agree R (ix.buildPreambles G) (jx.buildPreambles F) := by
  unfold buildPreambles
  rw [h.preambles]
  dsimp only
  generalize jx.preambles.entries.filter _ = waiting
  suffices hfold : ∀ (done : List (Path × Except PreambleError Path) × Indexer τ) done',
      Agree R done done' → Agree R (waiting.foldl _ done) (waiting.foldl _ done') from
    hfold ([], ix) ([], jx) ⟨rfl, h⟩
  induction waiting with
  | nil => exact fun _ _ hdone => hdone
  | cons e waiting ih =>
    rintro ⟨outcomes, ix⟩ ⟨outcomes', jx⟩ ⟨houtcomes, hafter⟩
    obtain rfl : outcomes = outcomes' := houtcomes
    obtain ⟨hbuilt, hworld⟩ := ensureBuilt_alike hF hafter.world e
    refine ih _ _ ⟨?_, hafter.config, hworld, hafter.graph, ?_, hafter.registry⟩
    · show outcomes ++ _ = outcomes ++ _
      rw [hbuilt]
    · show ix.preambles.update _ = jx.preambles.update _
      rw [hbuilt, hafter.preambles]

/-- Indexers side by side stay so over a step, if worlds that correspond do so after a change of the
    files. -/
theorem alongside_apply (hF : G.AnswersAlike F R)
    (hfiles : ∀ {w v} (change : FileSystem → FileSystem), R w v →
      R { w with files := change w.files } { v with files := change v.files })
    {ix : Indexer τ} {jx : Indexer σ} (h : Alongside R ix jx) (s : Step) :
    Alongside R (s.apply G ix) (s.apply F jx) := by
  cases s with
  | job force job => exact (agree_runJob hF h force job).2
  | buildPreambles => exact (agree_buildPreambles hF h).2
  | reset => exact ⟨h.config, h.world, congrArg SymbolGraph.clear h.graph, h.preambles, rfl⟩
  | files change => exact ⟨h.config, hfiles change h.world, h.graph, h.preambles, h.registry⟩

/-! ## Records -/

/-- The indexer without the record of calls. -/
def unrecorded (ix : Indexer (Recorded σ)) : Indexer σ :=
  { ix with world := ix.world.unrecorded }

/-- The indexer with a record of calls. -/
def recording (ix : Indexer σ) (calls : List FrontendCall := []) : Indexer (Recorded σ) :=
  { ix with world := ix.world.recording calls }

@[simp]
theorem recording_world (ix : Indexer σ) (calls : List FrontendCall) :
    (ix.recording calls).world = ix.world.recording calls := rfl

@[simp]
theorem recording_preambles (ix : Indexer σ) (calls : List FrontendCall) :
    (ix.recording calls).preambles = ix.preambles := rfl

theorem alongside_unrecorded (ix : Indexer (Recorded σ)) :
    Alongside (fun w v => v = w.unrecorded) ix ix.unrecorded := ⟨rfl, rfl, rfl, rfl, rfl⟩

theorem Alongside.eq_unrecorded {ix : Indexer (Recorded σ)} {jx : Indexer σ}
    (h : Alongside (fun w v => v = w.unrecorded) ix jx) : jx = ix.unrecorded := by
  obtain ⟨hconfig, hworld, hgraph, hpreambles, hregistry⟩ := h
  cases jx
  cases hconfig
  cases hworld
  cases hgraph
  cases hpreambles
  cases hregistry
  rfl

/-- The calls that a step makes. -/
def Step.calls (F : Frontend σ) (ix : Indexer σ) (s : Step) : List FrontendCall :=
  (s.apply F.recorded ix.recording).world.state.calls

/-- The record of calls changes nothing. -/
theorem unrecorded_apply (F : Frontend σ) (ix : Indexer (Recorded σ)) (s : Step) :
    (s.apply F.recorded ix).unrecorded = s.apply F ix.unrecorded :=
  (alongside_apply F.recorded_answersAlike (fun change hv => by rw [hv]; rfl)
    (alongside_unrecorded ix) s).eq_unrecorded.symm

/-- The calls that some steps make, each with its step, and the indexer that they lead to. -/
structure Chronicle (σ : Type) where
  calls : List (Step × FrontendCall) := []
  indexer : Indexer σ

/-- A chronicle that goes on with a step. -/
def Chronicle.extend (F : Frontend σ) (c : Chronicle σ) (s : Step) : Chronicle σ where
  calls := c.calls ++ (s.calls F c.indexer).map (s, ·)
  indexer := s.apply F c.indexer

/-- The chronicle of some steps. -/
def chronicle (F : Frontend σ) (ix : Indexer σ) (steps : List Step) : Chronicle σ :=
  steps.foldl (Chronicle.extend F) { indexer := ix }

theorem chronicle_concat (F : Frontend σ) (ix : Indexer σ) (steps : List Step) (s : Step) :
    chronicle F ix (steps ++ [s]) = (chronicle F ix steps).extend F s := by
  rw [chronicle, List.foldl_append]
  rfl

/-- A chronicle leads where a history leads. -/
theorem chronicle_indexer (F : Frontend σ) (ix : Indexer σ) (steps : List Step) :
    (chronicle F ix steps).indexer = (history F ix steps).indexer := by
  rw [history, indexer_foldl_extend]
  induction steps using List.reverseRecOn with
  | nil => rfl
  | append_singleton steps s ih =>
    rw [chronicle_concat, List.foldl_append]
    exact congrArg (s.apply F ·) ih

end Indexer

end SymbolAtlas
