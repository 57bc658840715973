import SymbolAtlas.Proofs.JobSteps

/-!
# What an indexer remembers

Over a long run files are indexed, forced to be indexed again, fail, are found up to date, change
and vanish, and everything may be forgotten at once.  What an indexer knows of a file is at any time
what the latest job that indexed it told, under whatever spelling of its path; nothing else counts.

* `Indexer.Step` — one thing that happens to an indexer; `Indexer.Call` — what is asked of it in one
  call, which is one step after another (`Indexer.apply_calls`).
* `Indexer.history` — the indexer after some steps, with the log of its jobs and resets.
* `Indexer.Latest` — the latest job that indexed a file, since the last reset.

Principal result: `Indexer.remembers_latest` — after every history the latest jobs decide which
files are up to date, and which headers they have.
-/

set_option autoImplicit false

namespace SymbolAtlas.Indexer

variable {σ : Type} {F : Frontend σ}

/-! ## Steps and calls -/

/-- One thing that happens to an indexer, or to the files that it works on. -/
inductive Step where
  | job (force : Bool) (job : SourceJob)
  | buildPreambles
  | reset
  | files (change : FileSystem → FileSystem)

/-- The indexer after a step. -/
def Step.apply (F : Frontend σ) (ix : Indexer σ) : Step → Indexer σ
  | .job force j => (ix.runJob F force j).2
  | .buildPreambles => (ix.buildPreambles F).2
  | .reset => ix.reset
  | .files change => { ix with world := { ix.world with files := change ix.world.files } }

/-- What is asked of an indexer in one call, and what happens to files between calls. -/
inductive Call where
  | indexFiles (jobs : List SourceJob)
  | reindexFiles (jobs : List SourceJob)
  | indexFile (job : SourceJob)
  | buildPreambles
  | reset
  | files (change : FileSystem → FileSystem)

/-- The indexer after a call. -/
def Call.apply (F : Frontend σ) (ix : Indexer σ) : Call → Indexer σ
  | .indexFiles jobs => (ix.indexFiles F jobs).2
  | .reindexFiles jobs => (ix.reindexFiles F jobs).2
  | .indexFile job => (ix.indexFile F job).2
  | .buildPreambles => (ix.buildPreambles F).2
  | .reset => ix.reset
  | .files change => { ix with world := { ix.world with files := change ix.world.files } }

/-- The steps of a call; a batch takes its jobs in order. -/
def Call.steps : Call → List Step
  | .indexFiles jobs => jobs.map (.job false)
  | .reindexFiles jobs => jobs.map (.job true)
  | .indexFile job => [.job false job]
  | .buildPreambles => [.buildPreambles]
  | .reset => [.reset]
  | .files change => [.files change]

/-! ## Histories -/

/-- What is logged: how a job ended and under which canonical path it ran, and that everything was
    forgotten. -/
inductive Event where
  | job (key : Path) (force : Bool) (job : SourceJob) (outcome : FileOutcome)
  | reset

/-- What a step adds to the log. -/
def Step.event? (F : Frontend σ) (ix : Indexer σ) : Step → Option Event
  | .job force j => some (.job (ix.key j.file) force j (ix.runJob F force j).1)
  | .reset => some .reset
  | _ => none

/-- A log, and the indexer that it led to. -/
structure History (σ : Type) where
  events : List Event := []
  indexer : Indexer σ

/-- A history that goes on with a step. -/
def History.extend (F : Frontend σ) (h : History σ) (s : Step) : History σ where
  events := h.events ++ (s.event? F h.indexer).toList
  indexer := s.apply F h.indexer

/-- The history of some steps. -/
def history (F : Frontend σ) (ix : Indexer σ) (steps : List Step) : History σ :=
  steps.foldl (History.extend F) { indexer := ix }

theorem indexer_foldl_extend (F : Frontend σ) (steps : List Step) (h : History σ) :
    (steps.foldl (History.extend F) h).indexer = steps.foldl (Step.apply F) h.indexer := by
  induction steps generalizing h with
  | nil => rfl
  | cons s steps ih => rw [List.foldl_cons, ih, List.foldl_cons, History.extend]

theorem foldl_apply_jobs (F : Frontend σ) (force : Bool) (jobs : List SourceJob)
    (ix : Indexer σ) :
    (jobs.map (Step.job force)).foldl (Step.apply F) ix = (runJobs F force jobs ix).2 := by
  induction jobs generalizing ix with
  | nil => rfl
  | cons job jobs ih =>
    rw [List.map_cons, List.foldl_cons, ih]
    rfl

/-- Calls are made in steps. -/
theorem apply_calls (F : Frontend σ) (calls : List Call) (ix : Indexer σ) :
    calls.foldl (Call.apply F) ix = (history F ix (calls.flatMap Call.steps)).indexer := by
  rw [history, indexer_foldl_extend]
  induction calls generalizing ix with
  | nil => rfl
  | cons call calls ih =>
    rw [List.foldl_cons, List.flatMap_cons, List.foldl_append, ih]
    cases call with
    | indexFiles jobs => rw [Call.steps, foldl_apply_jobs]; rfl
    | reindexFiles jobs => rw [Call.steps, foldl_apply_jobs]; rfl
    | indexFile job => rfl
    | buildPreambles => rfl
    | reset => rfl
    | files change => rfl

/-! ## The latest jobs -/

/-- What was known of a file before counts no more: everything is forgotten, or the file is
    indexed. -/
def Event.Settles (key : Path) : Event → Prop
  | .job key' _ _ (.indexed _) => (key' == key) = true
  | .job _ _ _ _ => False
  | .reset => True

/-- The latest job that indexed the file with a canonical path, since the last reset. -/
def Latest (key : Path) (events : List Event) (job : SourceJob) (report : FileReport) : Prop :=
  ∃ before key' force after, events = before ++ .job key' force job (.indexed report) :: after ∧
    (key' == key) = true ∧ ∀ e ∈ after, ¬e.Settles key

/-- The latest job is the last one that is logged, or it was the latest before and is not
    superseded. -/
theorem latest_concat {key : Path} {events : List Event} {e : Event} {job : SourceJob}
    {report : FileReport} :
    Latest key (events ++ [e]) job report ↔
      (∃ key' force, e = .job key' force job (.indexed report) ∧ (key' == key) = true) ∨
        ¬e.Settles key ∧ Latest key events job report := by
  constructor
  · rintro ⟨before, key', force, after, heq, hkey, hquiet⟩
    rcases List.eq_nil_or_concat after with rfl | ⟨after, last, rfl⟩
    · obtain ⟨_, he⟩ := List.append_inj' heq rfl
      cases he
      exact .inl ⟨key', force, rfl, hkey⟩
    · rw [List.concat_eq_append, ← List.cons_append, ← List.append_assoc] at heq
      obtain ⟨hevents, he⟩ := List.append_inj' heq rfl
      cases he
      rw [List.concat_eq_append] at hquiet
      exact .inr ⟨hquiet e (List.mem_append_right _ (List.mem_singleton_self e)),
        before, key', force, after, hevents, hkey,
        fun e' he' => hquiet e' (List.mem_append_left _ he')⟩
  · rintro (⟨key', force, rfl, hkey⟩ | ⟨hnot, before, key', force, after, rfl, hkey, hquiet⟩)
    · exact ⟨events, key', force, [], rfl, hkey, fun _ he => by cases he⟩
    · refine ⟨before, key', force, after ++ [e], by simp, hkey, fun e' he' => ?_⟩
      rcases List.mem_append.mp he' with he' | he'
      · exact hquiet e' he'
      · rw [List.mem_singleton] at he'
        rw [he']
        exact hnot

/-! ## What is remembered -/

/-- What is remembered of files is what the latest jobs told, and these made units of them. -/
structure Remembers (F : Frontend σ) (h : History σ) : Prop where
  record : ∀ key r, h.indexer.record? key = some r ↔
    ∃ job report, Latest key h.events job report ∧ r = recordOf job report
  sound : ∀ key force job report, .job key force job (.indexed report) ∈ h.events →
    ∃ unit, Makes F job unit report.modified ∧
      report.dependencies = unit.inclusions.map (·.path)

/-- A file that is remembered replaces what was known of it, under any spelling. -/
theorem record?_remember (ix : Indexer σ) (key key' : Path) (r : FileRecord) :
    (ix.remember key r).record? key' = if key == key' then some r else ix.record? key' := by
  unfold record? remember
  dsimp only
  rw [List.find?_append, List.find?_filter]
  by_cases hkey : (key == key') = true
  · have hgone : ix.registry.find?
        (fun e => decide ((!(e.1 == key)) = true ∧ (e.1 == key') = true)) = none := by
      refine List.find?_eq_none.mpr fun e _ htest => ?_
      obtain ⟨hne, he⟩ := of_decide_eq_true htest
      rw [BEq.trans he (BEq.symm hkey)] at hne
      cases hne
    rw [if_pos hkey, hgone, Option.none_or, List.find?_singleton, if_pos hkey]
    rfl
  · have hsame : (fun e : Path × FileRecord =>
        decide ((!(e.1 == key)) = true ∧ (e.1 == key') = true)) = fun e => e.1 == key' := by
      funext e
      have hne : (e.1 == key') = true → (e.1 == key) = false := fun he =>
        Bool.eq_false_iff.mpr fun hek => hkey (BEq.trans (BEq.symm hek) he)
      cases he : e.1 == key' with
      | false => simp
      | true => simp [hne he]
    rw [if_neg hkey, hsame, List.find?_singleton, if_neg hkey, Option.or_none]

theorem spares_buildPreambles (F : Frontend σ) (ix : Indexer σ) :
    Spares ix (ix.buildPreambles F).2 := by
  unfold buildPreambles
  refine List.foldlRecOn (motive := fun done : _ × Indexer σ => Spares ix done.2) _ _ (.refl ix)
    fun done h e _ => ?_
  exact h.trans ⟨rfl, rfl, rfl⟩

theorem record?_congr {ix ix' : Indexer σ} (h : ix'.registry = ix.registry) (key : Path) :
    ix'.record? key = ix.record? key := by
  rw [record?, record?, h]

/-- A step that leaves the registry alone and logs nothing is not noticed. -/
theorem Remembers.unlogged {h h' : History σ} (hr : Remembers F h)
    (hevents : h'.events = h.events) (hregistry : h'.indexer.registry = h.indexer.registry) :
    Remembers F h' := by
  refine ⟨fun key r => ?_, fun key force job report hmem => ?_⟩
  · rw [record?_congr hregistry, hevents]
    exact hr.record key r
  · rw [hevents] at hmem
    exact hr.sound key force job report hmem

/-- What is remembered after one more event: what it tells of its own file, and what was remembered
    of the files that it does not settle. -/
theorem Remembers.logged {h : History σ} (hr : Remembers F h) {e : Event} {ix : Indexer σ}
    (hrecord : ∀ key r, ix.record? key = some r ↔
      (∃ key' force job report, e = .job key' force job (.indexed report) ∧
        (key' == key) = true ∧ r = recordOf job report) ∨
          ¬e.Settles key ∧ h.indexer.record? key = some r)
    (hsound : ∀ key force job report, e = .job key force job (.indexed report) →
      ∃ unit, Makes F job unit report.modified ∧
        report.dependencies = unit.inclusions.map (·.path)) :
    Remembers F ⟨h.events ++ [e], ix⟩ := by
  refine ⟨fun key r => ?_, fun key force job report hmem => ?_⟩
  · dsimp only
    rw [hrecord, hr.record]
    simp only [latest_concat]
    constructor
    · rintro (⟨key', force, job, report, he, hkey, hr'⟩ | ⟨hnot, job, report, hl, hr'⟩)
      · exact ⟨job, report, .inl ⟨key', force, he, hkey⟩, hr'⟩
      · exact ⟨job, report, .inr ⟨hnot, hl⟩, hr'⟩
    · rintro ⟨job, report, ⟨key', force, he, hkey⟩ | ⟨hnot, hl⟩, hr'⟩
      · exact .inl ⟨key', force, job, report, he, hkey, hr'⟩
      · exact .inr ⟨hnot, job, report, hl, hr'⟩
  · rw [List.mem_append, List.mem_singleton] at hmem
    rcases hmem with hmem | he
    · exact hr.sound key force job report hmem
    · exact hsound key force job report he.symm

/-- A job that indexes no file settles nothing. -/
theorem Remembers.unindexed {h : History σ} (hr : Remembers F h) {key : Path} {force : Bool}
    {job : SourceJob} {outcome : FileOutcome} {ix : Indexer σ} (hs : Spares h.indexer ix)
    (hnot : ∀ report, outcome ≠ .indexed report) :
    Remembers F ⟨h.events ++ [.job key force job outcome], ix⟩ := by
  have hquiet : ∀ key', ¬(Event.job key force job outcome).Settles key' := fun key' => by
    cases outcome with
    | indexed report => exact absurd rfl (hnot report)
    | upToDate => exact fun hs => hs
    | failed _ => exact fun hs => hs
  have hother : ∀ {key' force' job' report},
      Event.job key force job outcome ≠ .job key' force' job' (.indexed report) := fun he => by
    cases he
    exact hnot _ rfl
  refine hr.logged (fun key' r => ?_) fun _ _ _ _ he => absurd he hother
  rw [record?_congr hs.registry]
  constructor
  · exact fun hold => .inr ⟨hquiet key', hold⟩
  · rintro (⟨_, _, _, _, he, _⟩ | ⟨_, hold⟩)
    · exact absurd he hother
    · exact hold

/-- A job that indexes a file is remembered in place of earlier ones of the file. -/
theorem Remembers.indexed {h : History σ} (hr : Remembers F h) {key : Path} {force : Bool}
    {job : SourceJob} {report : FileReport} {ix : Indexer σ}
    (ht : TakesIn F h.indexer job report ix) :
    Remembers F ⟨h.events ++ [.job key force job (.indexed report)],
      ix.remember key (recordOf job report)⟩ := by
  refine hr.logged (fun key' r => ?_) fun _ _ _ _ he => ?_
  · rw [record?_remember, record?_congr ht.registry]
    by_cases hkey : (key == key') = true
    · rw [if_pos hkey]
      constructor
      · rintro ⟨⟩
        exact .inl ⟨key, force, job, report, rfl, hkey, rfl⟩
      · rintro (⟨_, _, _, _, he, _, rfl⟩ | ⟨hnot, _⟩)
        · cases he
          rfl
        · exact absurd hkey hnot
    · rw [if_neg hkey]
      constructor
      · exact fun hold => .inr ⟨hkey, hold⟩
      · rintro (⟨_, _, _, _, he, hkey', _⟩ | ⟨_, hold⟩)
        · cases he
          exact absurd hkey' hkey
        · exact hold
  · cases he
    obtain ⟨unit, hm, hd, _⟩ := ht.unit
    exact ⟨unit, hm, hd⟩

/-- After a reset nothing is remembered. -/
theorem Remembers.reset {h : History σ} (hr : Remembers F h) :
    Remembers F ⟨h.events ++ [.reset], h.indexer.reset⟩ := by
  refine hr.logged (fun key r => ⟨fun hsome => ?_, ?_⟩) fun _ _ _ _ he => by cases he
  · cases hsome
  · rintro (⟨_, _, _, _, he, _⟩ | ⟨hnot, _⟩)
    · cases he
    · exact absurd trivial hnot

/-- Every step keeps track. -/
theorem Remembers.extend {h : History σ} (hr : Remembers F h) (s : Step) :
    Remembers F (h.extend F s) := by
  cases s with
  | job force job =>
    have hends := ends_runJob F h.indexer force job
    unfold History.extend Step.event? Step.apply
    dsimp only [Option.toList_some]
    generalize h.indexer.runJob F force job = done at hends
    cases hends with
    | upToDate _ _ => exact hr.unindexed (.refl h.indexer) nofun
    | failed _ hs => exact hr.unindexed hs nofun
    | indexed _ ht => exact hr.indexed ht
  | buildPreambles =>
    exact hr.unlogged (List.append_nil _) (spares_buildPreambles F h.indexer).registry
  | reset => exact hr.reset
  | files change => exact hr.unlogged (List.append_nil _) rfl

/-- A new indexer keeps track over every history. -/
theorem remembers_history (F : Frontend σ) (config : IndexerConfig) (files : FileSystem)
    (state : σ) (steps : List Step) :
    Remembers F (history F (.new config files state) steps) := by
  refine List.foldlRecOn (motive := Remembers F) _ _ ⟨fun key r => ⟨fun hsome => ?_, ?_⟩, ?_⟩
    fun h hr s _ => hr.extend s
  · cases hsome
  · rintro ⟨job, report, ⟨before, _, _, after, heq, _⟩, _⟩
    cases before <;> cases heq
  · exact fun _ _ _ _ hmem => by cases hmem

/-- A file is up to date if it was indexed with the same options at its present modification
    time. -/
theorem isUpToDate_iff {ix : Indexer σ} {key file : Path} {options : List String} :
    ix.isUpToDate key file options = true ↔ ∃ r, ix.record? key = some r ∧ r.options = options ∧
      ix.world.files.modified file = .ok r.modified := by
  unfold isUpToDate
  cases ix.record? key with
  | none => simp
  | some r =>
    cases ix.world.files.modified file with
    | error e => simp
    | ok stamp =>
      simp only [Bool.and_eq_true, beq_iff_eq, Option.some.injEq, Except.ok.injEq,
        exists_eq_left']
      exact ⟨fun ⟨hm, ho⟩ => ⟨ho, hm.symm⟩, fun ⟨ho, hm⟩ => ⟨hm.symm, ho⟩⟩

/-- Unless it is forced, a job is up to date exactly if its file is. -/
theorem runJob_upToDate_iff {ix : Indexer σ} {job : SourceJob} :
    (ix.runJob F false job).1 = .upToDate ↔
      ix.isUpToDate (ix.key job.file) job.file job.options.optionList = true := by
  have hends := ends_runJob F ix false job
  generalize ix.runJob F false job = done at hends
  cases hends with
  | upToDate _ hknown => exact ⟨fun _ => hknown, fun _ => rfl⟩
  | failed hdue _ =>
    have hnot := hdue.resolve_left Bool.false_ne_true
    exact ⟨nofun, fun hknown => by rw [hnot] at hknown; cases hknown⟩
  | indexed hdue _ =>
    have hnot := hdue.resolve_left Bool.false_ne_true
    exact ⟨nofun, fun hknown => by rw [hnot] at hknown; cases hknown⟩

/-- **What an indexer remembers of a file is what the latest job that indexed it told.**  After
    every history of a new indexer, such as that of some calls, a job that is not forced is up to
    date exactly if the latest job that indexed the file since the last reset had the same options,
    and told the modification time that the file has now.  The headers of a file are those that
    this job told, or none if there is no such job.  What it told is what the frontend made of the
    file at that time. -/
theorem remembers_latest (F : Frontend σ) (config : IndexerConfig) (files : FileSystem)
    (state : σ) (steps : List Step) :
    let past := history F (.new config files state) steps
    (∀ calls : List Call, calls.flatMap Call.steps = steps →
      calls.foldl (Call.apply F) (.new config files state) = past.indexer) ∧
    (∀ job, (past.indexer.runJob F false job).1 = .upToDate ↔
      ∃ job' report, Latest (past.indexer.key job.file) past.events job' report ∧
        job'.options.optionList = job.options.optionList ∧
          past.indexer.world.files.modified job.file = .ok report.modified) ∧
    (∀ file, (∀ job report, Latest (past.indexer.key file) past.events job report →
        past.indexer.dependencies file = report.dependencies) ∧
      ((∀ job report, ¬Latest (past.indexer.key file) past.events job report) →
        past.indexer.dependencies file = [])) ∧
    ∀ key job report, Latest key past.events job report → ∃ unit,
      Makes F job unit report.modified ∧
        report.dependencies = unit.inclusions.map (·.path) := by
  intro past
  have hr : Remembers F past := remembers_history F config files state steps
  refine ⟨fun calls hcalls => ?_, fun job => ?_,
    fun file => ⟨fun job report hl => ?_, fun hnone => ?_⟩, fun key job report hl => ?_⟩
  · rw [apply_calls, hcalls]
  · rw [runJob_upToDate_iff, isUpToDate_iff]
    constructor
    · rintro ⟨r, hrecord, hoptions, hmodified⟩
      obtain ⟨job', report, hl, rfl⟩ := (hr.record _ _).mp hrecord
      exact ⟨job', report, hl, hoptions, hmodified⟩
    · rintro ⟨job', report, hl, hoptions, hmodified⟩
      exact ⟨_, (hr.record _ _).mpr ⟨job', report, hl, rfl⟩, hoptions, hmodified⟩
  · have hrecord := (hr.record _ _).mpr ⟨job, report, hl, rfl⟩
    unfold key at hrecord
    rw [dependencies, hrecord]
    rfl
  · have hrecord : past.indexer.record? (past.indexer.key file) = none :=
      Option.eq_none_iff_forall_ne_some.mpr fun r hsome => by
        obtain ⟨job, report, hl, _⟩ := (hr.record _ _).mp hsome
        exact hnone job report hl
    unfold key at hrecord
    rw [dependencies, hrecord]
  · obtain ⟨before, key', force, after, heq, _⟩ := hl
    exact hr.sound key' force job report
      (heq ▸ List.mem_append_right _ List.mem_cons_self)

end SymbolAtlas.Indexer
