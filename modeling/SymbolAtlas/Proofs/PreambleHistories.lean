import SymbolAtlas.Proofs.JobEffects
import SymbolAtlas.Proofs.PreambleEntries

/-!
# Preambles over whole histories

A preamble is built at the end of a parse that makes enough contributions, or when it is asked for
all preambles.  Over any history that happens at most once for an option list, and what came of it
is final: neither further parses nor a reset nor a change of the files brings it about again.

* `Indexer.Running` — what holds within a step: the stories of all entries, what the calls of the
  step were made for, and that nothing settled was touched.
* `Indexer.Step.Asks` — what a step may ask the frontend for.

Principal results: `Indexer.preamble_single_build` — over every history, for all option lists;
`Indexer.preamble_threshold` — what decides on the outcome of an entry where no build fails.
-/

set_option autoImplicit false

namespace SymbolAtlas.Indexer

variable {σ : Type} {config : PreambleConfig} {asked : Prop} {t : List (Step × FrontendCall)}
  {e e' : PreambleEntry}

/-! ## Within a step -/

/-- What a step asks a frontend for: a job has its file parsed with its options, or also with the
    preamble that was built for exactly these and is still there.  Preambles may always be built. -/
def Step.Asks (config : PreambleConfig) (start : PreambleCoordinator) : Step → FrontendCall → Prop
  | _, .build .. => True
  | .job _ j, .parse file options before .. =>
    file = j.file ∧ (options = j.options.optionList ∨
      config.Serves j ∧ ∃ e, start.find? j.options.optionList = some e ∧
        e.outcome = some (.ok e.path) ∧ before.exists? e.path = true ∧
          options = j.options.optionList ++ [preambleFlag, e.path.text])
  | _, .parse .. => False

theorem Step.asks_build {config : PreambleConfig} {start : PreambleCoordinator} {step : Step}
    {options : List String} {call : FrontendCall} (h : call.builds options = true) :
    step.Asks config start call := by
  cases call with
  | parse _ _ _ _ _ => cases h
  | build _ _ _ _ _ _ => cases step <;> trivial

/-- A step may bring about an entry: that of a job that preambles are for. -/
def Step.Opens (config : PreambleConfig) (options : List String) : Step → Prop
  | .job _ j => config.Serves j ∧ j.options.optionList = options
  | _ => False

/-- How things stand in the course of a step that began with some calls and entries. -/
structure Running (config : PreambleConfig) (asked : Prop) (t : List (Step × FrontendCall))
    (step : Step) (start : PreambleCoordinator) (ix : Indexer (Recorded σ)) : Prop where
  traces : Traces config asked (t ++ ix.world.state.calls.map (step, ·)) ix.preambles
  asks : ∀ call ∈ ix.world.state.calls, step.Asks config start call
  opens : ∀ options ∈ ix.preambles.entries.map (·.options),
    options ∈ start.entries.map (·.options) ∨ step.Opens config options
  settled : ∀ e ∈ start.entries, e.outcome.isSome = true → e ∈ ix.preambles.entries

variable {step : Step} {start : PreambleCoordinator} {ix ix' : Indexer (Recorded σ)}
  {job : SourceJob} {force : Bool}

theorem Running.congr (h : Running config asked t step start ix)
    (hpreambles : ix'.preambles = ix.preambles) (hstate : ix'.world.state = ix.world.state) :
    Running config asked t step start ix' := by
  obtain ⟨htraces, hasks, hopens, hsettled⟩ := h
  rw [← hpreambles, ← hstate] at htraces
  rw [← hstate] at hasks
  rw [← hpreambles] at hopens hsettled
  exact ⟨htraces, hasks, hopens, hsettled⟩

theorem Running.known (h : Running config asked t step start ix) {options : List String}
    {e : PreambleEntry} :
    ix.preambles.find? options = some e ↔ e ∈ ix.preambles.entries ∧ e.options = options :=
  find?_eq_some_iff h.traces.distinct

/-- Further calls, and the entries are the same. -/
theorem Running.goOn (h : Running config asked t step start ix)
    (hpreambles : ix'.preambles = ix.preambles) {calls : List FrontendCall}
    (hcalls : ix'.world.state.calls = ix.world.state.calls ++ calls)
    (hasks : ∀ call ∈ calls, step.Asks config start call)
    (htraces : Traces config asked
      (t ++ ix.world.state.calls.map (step, ·) ++ calls.map (step, ·)) ix.preambles) :
    Running config asked t step start ix' where
  traces := by
    rw [hpreambles, hcalls, List.map_append, ← List.append_assoc]
    exact htraces
  asks call hcall := by
    rw [hcalls] at hcall
    exact (List.mem_append.mp hcall).elim (h.asks call) (hasks call)
  opens := by rw [hpreambles]; exact h.opens
  settled := by rw [hpreambles]; exact h.settled

/-- An entry that collects is replaced, and what happened meanwhile was about its option list. -/
theorem Running.update (h : Running config asked t step start ix)
    (hmem : e ∈ ix.preambles.entries) (hopen : e.outcome = none)
    (hoptions : e'.options = e.options) (hpath : e'.path = e.path)
    (hpreambles : ix'.preambles = ix.preambles.update e') {calls : List FrontendCall}
    (hcalls : ix'.world.state.calls = ix.world.state.calls ++ calls)
    (hothers : ∀ options, options ≠ e.options → Quiet config options (calls.map (step, ·)))
    (hasks : ∀ call ∈ calls, step.Asks config start call)
    (hstory : Story config asked
      (t ++ ix.world.state.calls.map (step, ·) ++ calls.map (step, ·)) e') :
    Running config asked t step start ix' where
  traces := by
    rw [hpreambles, hcalls, List.map_append, ← List.append_assoc]
    exact h.traces.update hmem hoptions hpath hothers hstory
  asks call hcall := by
    rw [hcalls] at hcall
    exact (List.mem_append.mp hcall).elim (h.asks call) (hasks call)
  opens := by rw [hpreambles, options_update]; exact h.opens
  settled x hx hsome := by
    rw [hpreambles]
    refine mem_update_of_ne (h.settled x hx hsome) fun heq => ?_
    have hsame : x = e := List.inj_on_of_nodup_map h.traces.distinct (h.settled x hx hsome) hmem
      (heq.trans hoptions)
    rw [hsame, hopen] at hsome
    cases hsome

/-! ### Parses -/

/-- The unit that an attempt made. -/
def ParseResult.unit? : ParseResult → Option TranslationUnit
  | .parsed unit _ => some unit
  | _ => none

/-- An attempt asks for one parse at most, and makes the unit that the call makes. -/
theorem calls_parseOnce (F : Frontend σ) (ix : Indexer (Recorded σ)) (job : SourceJob)
    (attempt : Attempt) (options : List String) :
    let done := ix.parseOnce F.recorded job attempt options
    done.2.preambles = ix.preambles ∧
      ((done.1.unit? = none ∧ done.2.world.state.calls = ix.world.state.calls) ∨
        ∃ result after,
          let call := FrontendCall.parse job.file options ix.world.files result after
          done.2.world.state.calls = ix.world.state.calls ++ [call] ∧
            call.made? = done.1.unit?) := by
  unfold parseOnce
  cases hbefore : ix.world.files.modified job.file with
  | error e => exact ⟨rfl, .inl ⟨rfl, rfl⟩⟩
  | ok before =>
    dsimp only
    cases hparse : F.parse job.file options ix.world.unrecorded with
    | mk result w =>
      rw [Frontend.recorded_parse hparse]
      cases result with
      | error e => exact ⟨rfl, .inr ⟨.error e, w.files, rfl, rfl⟩⟩
      | ok unit =>
        have hmade : (FrontendCall.parse job.file options ix.world.files (.ok unit)
            w.files).made? = match w.files.modified job.file with
              | .ok after => if after = before then some unit else none
              | .error _ => none := by
          rw [FrontendCall.made?, hbefore]
          cases w.files.modified job.file with
          | error e => rfl
          | ok after => rfl
        dsimp only
        rw [World.recording_files]
        cases hafter : w.files.modified job.file with
        | error e =>
          rw [hafter] at hmade
          exact ⟨rfl, .inr ⟨.ok unit, w.files, rfl, hmade⟩⟩
        | ok after =>
          rw [hafter] at hmade
          dsimp only at hmade ⊢
          split
          · rename_i hsame
            rw [if_pos hsame] at hmade
            exact ⟨rfl, .inr ⟨.ok unit, w.files, rfl, hmade⟩⟩
          · rename_i hchanged
            rw [if_neg hchanged] at hmade
            exact ⟨rfl, .inr ⟨.ok unit, w.files, rfl, hmade⟩⟩

/-- What makes a unit builds nothing. -/
theorem builds_made {call : FrontendCall} {unit : TranslationUnit} (h : call.made? = some unit)
    (options : List String) (step : Step) : builds options [(step, call)] = [] := by
  cases call with
  | parse _ _ _ _ _ => rfl
  | build _ _ _ _ _ _ => cases h

/-- A parse with a result contributes to the option list of its job. -/
theorem contributions_made {call : FrontendCall} {unit : TranslationUnit}
    (h : call.made? = some unit) (hserves : config.Serves job) (force : Bool) :
    contributions config job.options.optionList [(Step.job force job, call)] =
      [unit.inclusions] := by
  have hserved : config.Serves job ∧ job.options.optionList = job.options.optionList :=
    ⟨hserves, rfl⟩
  rw [contributions, List.filterMap_cons, contribution?, if_pos hserved, h]
  rfl

/-- It contributes to no other option list, and to none at all if preambles are not for its job. -/
theorem quiet_made {call : FrontendCall} {unit : TranslationUnit} (h : call.made? = some unit)
    {options : List String} (hnot : ¬(config.Serves job ∧ job.options.optionList = options))
    (force : Bool) : Quiet config options [(Step.job force job, call)] := by
  refine ⟨?_, builds_made h options _⟩
  rw [contributions, List.filterMap_cons, contribution?, if_neg hnot]
  rfl

/-- The headers of a parse go to the entry of its option list, which is settled with them if they
    are enough. -/
theorem running_contribute {F : Frontend σ} (h : Running config asked t (.job force job) start ix)
    (hserves : config.Serves job)
    (hknown : job.options.optionList ∈ ix.preambles.entries.map (·.options))
    {call : FrontendCall} {unit : TranslationUnit} (hmade : call.made? = some unit)
    (hcall : Step.Asks config start (.job force job) call)
    (hpreambles : ix'.preambles = ix.preambles)
    (hcalls : ix'.world.state.calls = ix.world.state.calls ++ [call]) :
    Running config asked t (.job force job) start
      (ix'.contribute F.recorded job.options.optionList unit.inclusions) := by
  obtain ⟨e, hfound⟩ := exists_find? hknown
  obtain ⟨hmem, hoptions⟩ := h.known.mp hfound
  have hown := contributions_made hmade hserves force
  have hnone := builds_made hmade e.options (.job force job)
  have hothers : ∀ options, options ≠ e.options →
      Quiet config options [(Step.job force job, call)] := fun options hne =>
    quiet_made hmade (fun hboth => hne (hboth.2.symm.trans hoptions.symm)) force
  rw [← hoptions] at hown
  have hasks : ∀ c ∈ [call], Step.Asks config start (.job force job) c := fun c hc => by
    rw [List.mem_singleton.mp hc]
    exact hcall
  unfold contribute
  rw [hpreambles, hfound]
  dsimp only
  cases houtcome : e.outcome with
  | some o =>
    have hsettled : e.outcome.isSome = true := by rw [houtcome]; rfl
    have hnot : (!e.collecting) = true := by rw [PreambleEntry.collecting, houtcome]; rfl
    rw [if_pos hnot]
    exact h.goOn hpreambles hcalls hasks (h.traces.settled hmem hsettled hnone hothers)
  | none =>
    have hopen : ¬(!e.collecting) = true := by
      rw [PreambleEntry.collecting, houtcome]
      exact Bool.false_ne_true
    rw [if_neg hopen]
    obtain ⟨hheld, hmore, hbuilt⟩ := (h.traces.story e hmem).2.open houtcome
    obtain ⟨haddedOptions, haddedPath, haddedOutcome, hcount, hheld'⟩ := hheld.add houtcome hown
    generalize e.add ((unit.inclusions.filter (·.depth == 1)).map (·.path))
      (unit.inclusions.map (·.path)) = added
      at haddedOptions haddedPath haddedOutcome hcount hheld' ⊢
    have hbuilt' : builds added.options (t ++ ix.world.state.calls.map (Step.job force job, ·) ++
        [(Step.job force job, call)]) = [] := by
      rw [haddedOptions, builds_append, hbuilt, hnone, List.append_nil]
    have hready : ix.preambles.readyToBuild added =
        decide (added.contributions ≥ max config.buildAfter 1) := by
      rw [PreambleCoordinator.readyToBuild, PreambleEntry.collecting, haddedOutcome,
        h.traces.configured]
      rfl
    rw [hready]
    split
    · rename_i henough
      have henough := of_decide_eq_true henough
      have hsettling : Settling config asked added :=
        ⟨by omega, by omega, .inl (by omega)⟩
      obtain ⟨hbuiltOptions, hbuiltPath, built, hcalled, hbuilds, hstory⟩ :=
        story_ensureBuilt F (.job force job) ix'.world haddedOutcome hheld' hsettling hbuilt'
      rw [haddedOptions] at hbuiltOptions hbuilds
      rw [List.append_assoc] at hstory
      have hmade : (added.ensureBuilt F.recorded.buildPreamble ix'.world).2.state.calls =
          ix.world.state.calls ++ call :: built := by
        rw [hcalled, hcalls, List.append_assoc]
        rfl
      refine h.update hmem houtcome hbuiltOptions (hbuiltPath.trans haddedPath) rfl hmade
        (fun options hne => ?_) (fun c hc => ?_) hstory
      · exact (hothers options hne).append (quiet_builds config _ hbuilds hne)
      · rcases List.mem_cons.mp hc with rfl | hc
        · exact hcall
        · exact Step.asks_build (hbuilds c hc)
    · rename_i hfew
      have hfew : added.contributions < max config.buildAfter 1 :=
        Nat.lt_of_not_le fun hle => hfew (decide_eq_true hle)
      exact h.update hmem houtcome haddedOptions haddedPath rfl hcalls hothers hasks
        (.collecting haddedOutcome hheld' hfew hbuilt')

/-- A unit is taken in; a job that preambles are for has an entry. -/
theorem running_takeIn {F : Frontend σ} (h : Running config asked t (.job force job) start ix)
    {usesPreambles : Bool} (huses : usesPreambles = true ↔ config.Serves job)
    (hknown : config.Serves job →
      job.options.optionList ∈ ix.preambles.entries.map (·.options))
    {call : FrontendCall} {unit : TranslationUnit} (hmade : call.made? = some unit)
    (hcall : Step.Asks config start (.job force job) call)
    (hpreambles : ix'.preambles = ix.preambles)
    (hcalls : ix'.world.state.calls = ix.world.state.calls ++ [call]) (attempt : Attempt)
    (modified : Stamp) :
    Running config asked t (.job force job) start
      (ix'.takeIn F.recorded job usesPreambles attempt unit modified).2 := by
  obtain ⟨notices, htaken⟩ :=
    takeIn_eq F.recorded ix' job usesPreambles attempt unit modified
  rw [htaken]
  cases usesPreambles with
  | true =>
    have hserves : config.Serves job := huses.mp rfl
    exact (running_contribute h hserves (hknown hserves) hmade hcall hpreambles
      hcalls).congr rfl rfl
  | false =>
    have hnot : ¬config.Serves job := fun hserves => by cases huses.mpr hserves
    refine (h.goOn hpreambles hcalls (fun c hc => ?_) ?_).congr rfl rfl
    · rw [List.mem_singleton.mp hc]
      exact hcall
    · exact h.traces.append fun options => quiet_made hmade (fun hboth => hnot hboth.1) force

/-- An attempt that makes no unit changes nothing but the calls; one that does has made it with its
    one call. -/
theorem running_parseOnce {F : Frontend σ} (h : Running config asked t step start ix)
    (attempt : Attempt) (options : List String)
    (hasks : ∀ result after,
      step.Asks config start (.parse job.file options ix.world.files result after)) :
    let done := ix.parseOnce F.recorded job attempt options
    done.2.preambles = ix.preambles ∧
      ((done.1.unit? = none ∧ Running config asked t step start done.2) ∨
        ∃ unit call, done.1.unit? = some unit ∧ call.made? = some unit ∧
          step.Asks config start call ∧
            done.2.world.state.calls = ix.world.state.calls ++ [call]) := by
  intro done
  obtain ⟨hpreambles, ⟨hunit, hcalls⟩ | ⟨result, after, hcalls, hmade⟩⟩ :=
    calls_parseOnce F ix job attempt options
  · have hnothing := hcalls.trans (List.append_nil ix.world.state.calls).symm
    exact ⟨hpreambles, .inl ⟨hunit, h.goOn hpreambles hnothing nofun
      (h.traces.append fun options => quiet_nil config options)⟩⟩
  · refine ⟨hpreambles, ?_⟩
    cases hunit : done.1.unit? with
    | some unit => exact .inr ⟨unit, _, rfl, hmade.trans hunit, hasks result after, hcalls⟩
    | none =>
      refine .inl ⟨rfl, h.goOn hpreambles hcalls (fun c hc => ?_) ?_⟩
      · rw [List.mem_singleton.mp hc]
        exact hasks result after
      · refine h.traces.append fun options => quiet_calls config step fun c hc => ?_
        rw [List.mem_singleton.mp hc]
        exact ⟨hmade.trans hunit, rfl⟩

theorem running_runPlain {F : Frontend σ} (h : Running config asked t (.job force job) start ix)
    {usesPreambles : Bool} (huses : usesPreambles = true ↔ config.Serves job)
    (hknown : config.Serves job →
      job.options.optionList ∈ ix.preambles.entries.map (·.options)) :
    Running config asked t (.job force job) start
      (ix.runPlain F.recorded job usesPreambles).2 := by
  obtain ⟨hpreambles, hparse⟩ := running_parseOnce (F := F) h .withoutPreamble
    job.options.optionList fun _ _ => ⟨rfl, .inl rfl⟩
  unfold runPlain
  dsimp only
  generalize ix.parseOnce F.recorded job .withoutPreamble _ = done at hpreambles hparse ⊢
  obtain ⟨result, ix'⟩ := done
  cases result with
  | parsed unit modified =>
    obtain ⟨hnone, _⟩ | ⟨unit', call, hunit, hmade, hcall, hcalls⟩ := hparse
    · cases hnone
    · cases hunit
      exact running_takeIn h huses hknown hmade hcall hpreambles hcalls _ modified
  | ended e => exact hparse.elim (fun hsame => hsame.2) nofun
  | rejected => exact hparse.elim (fun hsame => hsame.2) nofun

/-- A job that preambles are for asks for the entry of its options. -/
theorem Running.get (h : Running config asked t (.job force job) start ix)
    (hserves : config.Serves job) :
    ∃ e preambles, ix.preambles.get job.options.optionList = (some e, preambles) ∧
      preambles.find? job.options.optionList = some e ∧
        (e.outcome.isSome = true → ix.preambles.find? job.options.optionList = some e) ∧
          Running config asked t (.job force job) start { ix with preambles } := by
  have henabled : ix.preambles.config.enabled = true := by
    rw [h.traces.configured]
    exact hserves.1
  rcases get_cases henabled job.options.optionList with ⟨e, hfound, hget⟩ | ⟨hnone, e, he, hget⟩
  · exact ⟨e, _, hget, hfound, fun _ => hfound, h⟩
  · have hnew : e.outcome.isSome = false := by rw [he]; rfl
    refine ⟨e, _, hget, PreambleCoordinator.find?_get hget,
      fun hsome => absurd hsome (Bool.eq_false_iff.mp hnew), h.traces.addEntry hnone he, h.asks,
      fun options hmem => ?_, fun x hx hsome => List.mem_append_left _ (h.settled x hx hsome)⟩
    dsimp only at hmem
    rw [List.map_append, List.map_singleton, List.mem_append, List.mem_singleton] at hmem
    refine hmem.elim (h.opens options) fun heq => .inr ⟨hserves, ?_⟩
    rw [heq, he]

theorem running_runTask {F : Frontend σ}
    (h : Running config asked t (.job force job) start ix) (hstart : ix.preambles = start) :
    Running config asked t (.job force job) start (ix.runTask F.recorded job).2 := by
  have happlies : ix.preambles.appliesTo job.options.language = true ↔ config.Serves job := by
    rw [PreambleCoordinator.appliesTo, h.traces.configured, PreambleConfig.Serves,
      Bool.and_eq_true, decide_eq_true_iff]
  unfold runTask
  dsimp only
  split
  · rename_i hserved
    have hserves := happlies.mp hserved
    obtain ⟨e, preambles, hget, hfound, hold, hasked⟩ := h.get hserves
    have hknown : config.Serves job → job.options.optionList ∈ preambles.entries.map (·.options) :=
      fun _ => List.mem_map.mpr ⟨e, hasked.known.mp hfound⟩
    have huses : true = true ↔ config.Serves job := ⟨fun _ => hserves, fun _ => rfl⟩
    rw [hget]
    dsimp only [Option.bind_some]
    cases hbuilt : e.builtPath ix.world.files with
    | none => exact running_runPlain hasked huses hknown
    | some artifact =>
      obtain ⟨houtcome, hexists⟩ := (e.builtPath_eq_some_iff _ artifact).mp hbuilt
      have hearlier : start.find? job.options.optionList = some e := by
        rw [← hstart]
        exact hold (by rw [houtcome]; rfl)
      obtain rfl : artifact = e.path :=
        (hasked.traces.story e (hasked.known.mp hfound).1).2.path_eq houtcome
      obtain ⟨hpreambles, hparse⟩ := running_parseOnce (F := F) hasked .withPreamble
        (job.options.optionList ++ [preambleFlag, e.path.text])
        fun _ _ => ⟨rfl, .inr ⟨hserves, e, hearlier, houtcome, hexists, rfl⟩⟩
      dsimp only
      generalize parseOnce F.recorded { ix with preambles } job .withPreamble _ = done
        at hpreambles hparse ⊢
      obtain ⟨result, ix'⟩ := done
      cases result with
      | parsed unit modified =>
        obtain ⟨hnone, _⟩ | ⟨unit', call, hunit, hmade, hcall, hcalls⟩ := hparse
        · cases hnone
        · cases hunit
          exact running_takeIn hasked huses hknown hmade hcall hpreambles hcalls _ modified
      | ended e => exact hparse.elim (fun hsame => hsame.2) nofun
      | rejected =>
        refine hparse.elim (fun hsame => running_runPlain hsame.2 huses ?_) nofun
        intro hserves
        dsimp only at hpreambles
        rw [hpreambles]
        exact hknown hserves
  · rename_i hnot
    have huses : false = true ↔ config.Serves job :=
      ⟨nofun, fun hserves => absurd (happlies.mpr hserves) hnot⟩
    exact running_runPlain h huses fun hserves => absurd (happlies.mpr hserves) hnot

theorem running_runJob {F : Frontend σ}
    (h : Running config asked t (.job force job) start ix) (hstart : ix.preambles = start) :
    Running config asked t (.job force job) start (ix.runJob F.recorded force job).2 := by
  have htask := running_runTask (F := F) h hstart
  unfold runJob
  dsimp only
  split
  · exact h
  · generalize ix.runTask F.recorded job = done at htask ⊢
    obtain ⟨result, ix'⟩ := done
    cases result with
    | ok report => exact htask.congr rfl rfl
    | error e =>
      dsimp only
      split
      · exact htask
      · exact htask.congr rfl rfl

/-! ### Asking for all preambles -/

/-- Where it is asked for all preambles, the entries that wait are settled one by one. -/
theorem running_buildPreambles {F : Frontend σ} (hasked : asked)
    (h : Running config asked t .buildPreambles start ix) :
    Running config asked t .buildPreambles start (ix.buildPreambles F.recorded).2 := by
  have hwaiting : ∀ e ∈ ix.preambles.entries.filter
      (fun e => e.collecting && e.contributions > 0),
      e ∈ ix.preambles.entries ∧ e.outcome = none ∧ 0 < e.contributions := fun e he => by
    obtain ⟨hmem, hwaits⟩ := List.mem_filter.mp he
    obtain ⟨hopen, hsome⟩ := Bool.and_eq_true_iff.mp hwaits
    exact ⟨hmem, Option.isNone_iff_eq_none.mp hopen, of_decide_eq_true hsome⟩
  have hdistinct : ((ix.preambles.entries.filter
      (fun e => e.collecting && e.contributions > 0)).map (·.options)).Nodup :=
    h.traces.distinct.sublist (List.filter_sublist.map _)
  unfold buildPreambles
  dsimp only
  generalize ix.preambles.entries.filter _ = waiting at hwaiting hdistinct ⊢
  -- the entries are those before the first build; none of them is touched before its turn
  suffices hfold : ∀ (outcomes : List (Path × Except PreambleError Path))
      (ix : Indexer (Recorded σ)), Running config asked t .buildPreambles start ix →
      (∀ e ∈ waiting, e ∈ ix.preambles.entries ∧ e.outcome = none ∧ 0 < e.contributions) →
        Running config asked t .buildPreambles start (waiting.foldl _ (outcomes, ix)).2 from
    hfold [] ix h hwaiting
  clear hwaiting h
  induction waiting with
  | nil => exact fun _ _ h _ => h
  | cons e waiting ih =>
    intro outcomes ix h hwaiting
    obtain ⟨hnot, hdistinct⟩ := List.nodup_cons.mp hdistinct
    obtain ⟨hmem, houtcome, hpos⟩ := hwaiting e List.mem_cons_self
    obtain ⟨hheld, hmore, hnone⟩ := (h.traces.story e hmem).2.open houtcome
    obtain ⟨hoptions, hpath, calls, hcalls, hbuilds, hstory⟩ :=
      story_ensureBuilt F .buildPreambles ix.world houtcome hheld
        ⟨hpos, Nat.le_of_lt hmore, .inr hasked⟩ hnone
    rw [List.foldl_cons]
    refine ih hdistinct _ _ ?_ fun x hx => ?_
    · exact h.update hmem houtcome hoptions hpath rfl hcalls
        (fun options hne => quiet_builds config _ hbuilds hne)
        (fun c hc => Step.asks_build (hbuilds c hc)) hstory
    · obtain ⟨hx', hrest⟩ := hwaiting x (List.mem_cons_of_mem e hx)
      exact ⟨mem_update_of_ne hx' fun heq =>
        hnot (List.mem_map.mpr ⟨x, hx, heq.trans hoptions⟩), hrest⟩

/-! ## Whole histories -/

/-- Every step goes on with the stories of all entries. -/
theorem running_apply {F : Frontend σ} (step : Step) {ix : Indexer σ}
    (h : Traces config asked t ix.preambles) (hasked : step = .buildPreambles → asked) :
    Running config asked t step ix.preambles (step.apply F.recorded ix.recording) := by
  have hbegin : Running config asked t step ix.preambles (recording ix) :=
    ⟨by rw [recording, World.recording, List.map_nil, List.append_nil]; exact h, nofun,
      fun _ => .inl, fun _ he _ => he⟩
  cases step with
  | job force job => exact running_runJob hbegin rfl
  | buildPreambles => exact running_buildPreambles (hasked rfl) hbegin
  | reset => exact hbegin.congr rfl rfl
  | files change => exact hbegin.congr rfl rfl

/-- The indexer behind a step, whether its calls are recorded or not. -/
theorem preambles_recorded (F : Frontend σ) (step : Step) (ix : Indexer σ) :
    (step.apply F.recorded ix.recording).preambles = (step.apply F ix).preambles := by
  show (step.apply F.recorded ix.recording).unrecorded.preambles = _
  rw [unrecorded_apply]
  rfl

/-- After every history all entries have their stories. -/
theorem traces_chronicle (F : Frontend σ) (config : IndexerConfig) (files : FileSystem) (state : σ)
    (steps : List Step) :
    let past := chronicle F (.new config files state) steps
    Traces config.preamble (Step.buildPreambles ∈ steps) past.calls past.indexer.preambles := by
  induction steps using List.reverseRecOn with
  | nil => exact ⟨rfl, List.nodup_nil, nofun, fun options _ => quiet_nil _ options⟩
  | append_singleton steps step ih =>
    dsimp only
    rw [chronicle_concat]
    have hearlier : Traces config.preamble (Step.buildPreambles ∈ steps ++ [step]) _ _ :=
      ih.mono fun hmem => List.mem_append_left _ hmem
    have hlater := (running_apply (F := F) step hearlier
      fun heq => heq ▸ List.mem_append_right _ (List.mem_singleton_self step)).traces
    rw [preambles_recorded] at hlater
    exact hlater

/-- What holds within the next step of a history. -/
theorem running_chronicle (F : Frontend σ) (config : IndexerConfig) (files : FileSystem) (state : σ)
    (steps : List Step) (step : Step) :
    let past := chronicle F (.new config files state) steps
    Running config.preamble (Step.buildPreambles ∈ steps ++ [step]) past.calls step
      past.indexer.preambles (step.apply F.recorded past.indexer.recording) :=
  running_apply step
    ((traces_chronicle F config files state steps).mono fun hmem => List.mem_append_left _ hmem)
    fun heq => heq ▸ List.mem_append_right _ (List.mem_singleton_self step)

/-- What is settled stays as it is. -/
theorem settled_chronicle (F : Frontend σ) (config : IndexerConfig) (files : FileSystem) (state : σ)
    (steps more : List Step) {options : List String} {e : PreambleEntry}
    (hfound : (chronicle F (.new config files state) steps).indexer.preambles.find? options =
      some e) (hsettled : e.outcome.isSome = true) :
    (chronicle F (.new config files state) (steps ++ more)).indexer.preambles.find? options =
      some e := by
  induction more using List.reverseRecOn with
  | nil =>
    rw [List.append_nil]
    exact hfound
  | append_singleton more step ih =>
    have hdistinct := (traces_chronicle F config files state (steps ++ more)).distinct
    have hdistinct' := (traces_chronicle F config files state (steps ++ more ++ [step])).distinct
    obtain ⟨hmem, hoptions⟩ := (find?_eq_some_iff hdistinct).mp ih
    have hlater := (running_chronicle F config files state (steps ++ more) step).settled e hmem
      hsettled
    rw [preambles_recorded] at hlater
    rw [← List.append_assoc, find?_eq_some_iff hdistinct', chronicle_concat]
    exact ⟨hlater, hoptions⟩

/-- A list is split in one way at its only entry with a property. -/
theorem split_unique {α : Type} {p : α → Bool} {before after before' after' : List α} {x y : α}
    (hbefore : before.filter p = []) (hafter : after.filter p = []) (hy : p y = true)
    (h : before ++ x :: after = before' ++ y :: after') :
    before = before' ∧ x = y ∧ after = after' := by
  have hnot : ∀ {l : List α}, l.filter p = [] → y ∉ l := fun hl hmem =>
    List.filter_eq_nil_iff.mp hl y hmem hy
  rcases List.append_eq_append_iff.mp h with ⟨more, rfl, hrest⟩ | ⟨more, rfl, hrest⟩
  · cases more with
    | nil =>
      obtain ⟨rfl, rfl⟩ := List.cons.inj hrest
      exact ⟨(List.append_nil _).symm, rfl, rfl⟩
    | cons z more =>
      obtain ⟨rfl, rfl⟩ := List.cons.inj hrest
      exact absurd (List.mem_append_right _ List.mem_cons_self) (hnot hafter)
  · cases more with
    | nil =>
      obtain ⟨rfl, rfl⟩ := List.cons.inj hrest
      exact ⟨List.append_nil _, rfl, rfl⟩
    | cons z more =>
      obtain ⟨rfl, rfl⟩ := List.cons.inj hrest
      exact absurd (List.mem_append_right _ List.mem_cons_self) (hnot hbefore)

/-- A call that builds the preamble of an entry is the one in its story. -/
theorem Story.of_build (h : Story config asked t e) {before after : List (Step × FrontendCall)}
    {step : Step} {inputs : PreambleInputs} {output : Path} {files files' : FileSystem}
    {result : Except FrontendError Unit}
    (ht : t = before ++ (step, .build inputs e.options output files result files') :: after) :
    e.headers = inputs ∧ e.path = output ∧ e.outcome = some (outcomeOf output result) ∧
      inputs = .gathered (contributions config e.options before) := by
  have hbuild : (FrontendCall.build inputs e.options output files result files').builds
      e.options = true := beq_self_eq_true e.options
  have hsome : builds e.options t ≠ [] := fun hnone => by
    have hmem : (step, FrontendCall.build inputs e.options output files result files') ∈ t :=
      ht ▸ List.mem_append_right _ List.mem_cons_self
    exact List.filter_eq_nil_iff.mp hnone _ hmem hbuild
  cases h with
  | collecting _ _ _ hnone => exact absurd hnone hsome
  | empty _ _ _ _ _ hnone => exact absurd hnone hsome
  | built hcalls houtcome hheld _ _ hbefore hafter =>
    obtain ⟨rfl, hcall, rfl⟩ := split_unique hbefore hafter hbuild (hcalls.symm.trans ht)
    cases hcall
    exact ⟨rfl, rfl, houtcome, hheld.headers⟩

theorem Story.length_builds (h : Story config asked t e) : (builds e.options t).length ≤ 1 := by
  cases h with
  | collecting _ _ _ hnone => rw [hnone]; exact Nat.zero_le 1
  | empty _ _ _ _ _ hnone => rw [hnone]; exact Nat.zero_le 1
  | built hcalls _ _ _ _ hbefore hafter =>
    have hnone := Nat.le_of_eq (congrArg List.length hafter)
    rw [hcalls, builds_append, hbefore, List.nil_append, builds, List.filter_cons]
    split
    · exact Nat.succ_le_succ hnone
    · exact Nat.le_succ_of_le hnone

/-- **At most one preamble is built for an option list, and what came of it is final.**  After every
    history of a new indexer, such as that of some calls, whatever the frontend answers: a frontend
    was asked at most once to build the preamble of an option list; that call got the headers of the
    parses that had contributed to the option list by then, each once, in the order of their first
    appearance, and it decided the outcome.  An entry with an outcome stays as it is, whatever comes
    next.  In every next step a parse is given a preamble only if it is that of exactly the options
    of its job, was built and is still there, and preambles are for that job; and an entry comes
    about only by such a job. -/
theorem preamble_single_build (F : Frontend σ) (config : IndexerConfig) (files : FileSystem)
    (state : σ) (steps : List Step) :
    let past := chronicle F (.new config files state) steps
    (∀ calls : List Call, calls.flatMap Call.steps = steps →
      calls.foldl (Call.apply F) (.new config files state) = past.indexer) ∧
    (∀ options, (builds options past.calls).length ≤ 1) ∧
    (∀ before step inputs options output files result files' after,
      past.calls = before ++ (step, .build inputs options output files result files') :: after →
        inputs = .gathered (contributions config.preamble options before) ∧
          ∃ e, past.indexer.preambles.find? options = some e ∧ e.headers = inputs ∧
            e.path = output ∧ e.outcome = some (outcomeOf output result)) ∧
    (∀ more options e, past.indexer.preambles.find? options = some e →
      e.outcome.isSome = true →
        (chronicle F (.new config files state) (steps ++ more)).indexer.preambles.find? options =
          some e) ∧
    ∀ step : Step,
      (∀ call ∈ step.calls F past.indexer,
        step.Asks config.preamble past.indexer.preambles call) ∧
      ∀ options, past.indexer.preambles.find? options = none →
        ((step.apply F past.indexer).preambles.find? options).isSome = true →
          step.Opens config.preamble options := by
  intro past
  have htraces := traces_chronicle F config files state steps
  refine ⟨fun calls hcalls => ?_, fun options => ?_, ?_,
    fun more options e hfound hsettled =>
      settled_chronicle F config files state steps more hfound hsettled,
    fun step => ⟨?_, fun options hnone hsome => ?_⟩⟩
  · rw [apply_calls, hcalls, chronicle_indexer]
  · by_cases hknown : options ∈ past.indexer.preambles.entries.map (·.options)
    · obtain ⟨e, hmem, rfl⟩ := List.mem_map.mp hknown
      exact (htraces.story e hmem).2.length_builds
    · rw [(htraces.silent options hknown).2]
      exact Nat.zero_le 1
  · intro before step inputs options output files result files' after hsplit
    by_cases hknown : options ∈ past.indexer.preambles.entries.map (·.options)
    · obtain ⟨e, hmem, rfl⟩ := List.mem_map.mp hknown
      obtain ⟨hheaders, hpath, houtcome, hinputs⟩ := (htraces.story e hmem).2.of_build hsplit
      exact ⟨hinputs, e, (find?_eq_some_iff htraces.distinct).mpr ⟨hmem, rfl⟩, hheaders, hpath,
        houtcome⟩
    · have hnone := (htraces.silent options hknown).2
      have hmem : (step, FrontendCall.build inputs options output files result files') ∈
          past.calls := hsplit ▸ List.mem_append_right _ List.mem_cons_self
      exact absurd (beq_self_eq_true options) (List.filter_eq_nil_iff.mp hnone _ hmem)
  · exact (running_chronicle F config files state steps step).asks
  · have hrunning := running_chronicle F config files state steps step
    have hdistinct : ((step.apply F past.indexer).preambles.entries.map (·.options)).Nodup := by
      rw [← preambles_recorded]
      exact hrunning.traces.distinct
    obtain ⟨e, hfound⟩ := Option.isSome_iff_exists.mp hsome
    have hmem : options ∈ (step.apply F past.indexer).preambles.entries.map (·.options) :=
      List.mem_map.mpr ⟨e, (find?_eq_some_iff hdistinct).mp hfound⟩
    rw [← preambles_recorded] at hmem
    refine (hrunning.opens options hmem).resolve_left fun hold => ?_
    obtain ⟨e, he⟩ := exists_find? hold
    rw [hnone] at he
    cases he

/-! ## Enough contributions -/

/-- What an entry holds is what the first of all contributions were. -/
theorem Collected.seen {before : List (Step × FrontendCall)} (h : Collected config before e)
    (after : List (Step × FrontendCall)) :
    (contributions config e.options (before ++ after)).take e.contributions =
      contributions config e.options before := by
  rw [contributions_append, h.count, List.take_left]

/-- An entry was settled by the first contributions: with an artifact if any of them had headers,
    and the build did not fail. -/
theorem Story.outcome_eq (h : Story config asked t e)
    (hworks : ∀ call ∈ t, call.2.failsToBuild = false)
    {outcome : Except PreambleError Path} (houtcome : e.outcome = some outcome) :
    let seen := (contributions config e.options t).take e.contributions
    seen.length = e.contributions ∧ Settling config asked e ∧
      outcome = if seen.all (·.isEmpty) then .error (.noHeaders e.path) else .ok e.path := by
  cases h with
  | collecting hnone => rw [houtcome] at hnone; cases hnone
  | @empty before after hcalls hgiven hheld hsettling hempty _ =>
    rw [hcalls, hheld.seen after]
    rw [houtcome] at hgiven
    exact ⟨hheld.count.symm, hsettling, by rw [hempty, if_pos rfl, Option.some.inj hgiven]⟩
  | @built before after step files files' result hcalls hgiven hheld hsettling hsome _ _ =>
    have hworked := hworks _ (hcalls ▸ List.mem_append_right _ List.mem_cons_self)
    rw [hcalls, hheld.seen]
    rw [houtcome] at hgiven
    refine ⟨hheld.count.symm, hsettling, ?_⟩
    rw [hsome, if_neg Bool.false_ne_true, Option.some.inj hgiven]
    cases result with
    | ok _ => rfl
    | error err => cases hworked

/-- Enough contributions leave no option list without an outcome. -/
theorem Traces.settles {c : PreambleCoordinator} (h : Traces config asked t c)
    {options : List String}
    (henough : max config.buildAfter 1 ≤ (contributions config options t).length) :
    ∃ e outcome, c.find? options = some e ∧ e.outcome = some outcome := by
  by_cases hknown : options ∈ c.entries.map (·.options)
  · obtain ⟨e, hmem, rfl⟩ := List.mem_map.mp hknown
    cases houtcome : e.outcome with
    | some outcome =>
      exact ⟨e, outcome, (find?_eq_some_iff h.distinct).mpr ⟨hmem, rfl⟩, houtcome⟩
    | none =>
      obtain ⟨hheld, hmore, -⟩ := (h.story e hmem).2.open houtcome
      rw [hheld.count] at hmore
      exact absurd henough (Nat.not_le_of_lt hmore)
  · rw [(h.silent options hknown).1] at henough
    exact absurd (Nat.le_trans (Nat.le_max_right _ 1) henough) (by decide)

/-- **The first contributions to an option list decide on its preamble, with headers or without.**
    In a history in which no build fails, an option list has an outcome as soon as enough parses
    have contributed to it.  It is the artifact if any of the parses that were seen by then had
    headers, and otherwise it is that there are none, for good: later headers do not count.  The
    parses that are seen are enough of them, or less if it was asked for all preambles.  So enough
    parses lead to the artifact wherever the first of them has headers. -/
theorem preamble_threshold {F : Frontend σ} {config : IndexerConfig} {files : FileSystem}
    {state : σ} {steps : List Step} {options : List String}
    (hworks : ∀ call ∈ (chronicle F (.new config files state) steps).calls,
      call.2.failsToBuild = false) :
    let past := chronicle F (.new config files state) steps
    let parses := contributions config.preamble options past.calls
    let enough := max config.preamble.buildAfter 1
    (enough ≤ parses.length → ∃ e outcome,
      past.indexer.preambles.find? options = some e ∧ e.outcome = some outcome) ∧
    (∀ e outcome, past.indexer.preambles.find? options = some e → e.outcome = some outcome →
      let seen := parses.take e.contributions
      0 < seen.length ∧ seen.length ≤ enough ∧
        (seen.length = enough ∨ Step.buildPreambles ∈ steps) ∧
          outcome = if seen.all (·.isEmpty) then .error (.noHeaders e.path) else .ok e.path) ∧
    (enough ≤ parses.length → parses.head?.any (!·.isEmpty) = true →
      ∃ e, past.indexer.preambles.find? options = some e ∧ e.outcome = some (.ok e.path)) := by
  intro past parses enough
  have htraces := traces_chronicle F config files state steps
  refine ⟨htraces.settles, fun e outcome he houtcome => ?_,
    fun henough hfirst => ?_⟩
  · obtain ⟨hmem, rfl⟩ := (find?_eq_some_iff htraces.distinct).mp he
    obtain ⟨hlength, hsettling, hdecides⟩ :=
      (htraces.story e hmem).2.outcome_eq hworks houtcome
    intro seen
    have hseen : seen.length = e.contributions := hlength
    rw [hseen]
    exact ⟨hsettling.pos, hsettling.le, hsettling.full, hdecides⟩
  · obtain ⟨e, outcome, he, houtcome⟩ := htraces.settles henough
    obtain ⟨hmem, rfl⟩ := (find?_eq_some_iff htraces.distinct).mp he
    obtain ⟨-, hsettling, hdecides⟩ := (htraces.story e hmem).2.outcome_eq hworks houtcome
    -- what was seen begins with the first parse, which has headers
    have hseen : (parses.take e.contributions).all (·.isEmpty) = false := by
      obtain ⟨n, hn⟩ := Nat.exists_eq_succ_of_ne_zero (Nat.ne_of_gt hsettling.pos)
      rw [hn]
      cases hparses : parses with
      | nil => rw [hparses] at hfirst; cases hfirst
      | cons first rest =>
        rw [hparses] at hfirst
        rw [List.take_succ_cons, List.all_cons, (Bool.not_eq_true' _).mp hfirst, Bool.false_and]
    exact ⟨e, he, by rw [houtcome, hdecides, if_neg (by rw [hseen]; exact Bool.false_ne_true)]⟩

/-- A preamble is built after one parse. -/
def eagerConfig : IndexerConfig := { preamble := { directory := ⟨"/pre"⟩, buildAfter := 1 } }

/-- Two files, the second of which includes a header. -/
def twoFiles : FileSystem :=
  { entries := [(["a.cpp"], .file .empty ⟨5, 0⟩), (["b.cpp"], .file .empty ⟨5, 0⟩)] }

/-- Their units. -/
def twoUnits : Scripted.State :=
  { units := [plainUnit ⟨"/a.cpp"⟩,
      { plainUnit ⟨"/b.cpp"⟩ with inclusions := [⟨⟨"/h.h"⟩, 1⟩] }] }

/-- One file is indexed after the other. -/
def pastOf (first second : Path) : Chronicle Scripted.State :=
  chronicle Scripted.frontend (.new eagerConfig twoFiles twoUnits)
    [.job false (plainJob first), .job false (plainJob second)]

/-- No headers were there to build from. -/
def withoutHeaders : Except PreambleError Path → Bool
  | .error (.noHeaders _) => true
  | _ => false

theorem eq_of_withoutHeaders {outcome : Except PreambleError Path}
    (h : withoutHeaders outcome = true) : ∃ path, outcome = .error (.noHeaders path) := by
  cases outcome with
  | ok => cases h
  | error e =>
    cases e with
    | noHeaders path => exact ⟨path, rfl⟩
    | buildFailed => cases h

theorem headerless_parse_settles :
    let past := pastOf ⟨"/a.cpp"⟩ ⟨"/b.cpp"⟩
    let options := (plainJob ⟨"/b.cpp"⟩).options.optionList
    (∀ call ∈ past.calls, call.2.failsToBuild = false) ∧
      max eagerConfig.preamble.buildAfter 1 ≤
        ((contributions eagerConfig.preamble options past.calls).filter (!·.isEmpty)).length ∧
      ∃ e path, past.indexer.preambles.find? options = some e ∧
        e.outcome = some (.error (.noHeaders path)) := by
  intro past options
  have hgivenUp : ((past.indexer.preambles.find? options).bind (·.outcome)).any
      withoutHeaders = true := by decide +kernel
  refine ⟨by decide +kernel, by decide +kernel, ?_⟩
  cases hfound : (past.indexer.preambles.find? options).bind (·.outcome) with
  | none => rw [hfound] at hgivenUp; cases hgivenUp
  | some outcome =>
    obtain ⟨e, he, houtcome⟩ := Option.bind_eq_some_iff.mp hfound
    rw [hfound] at hgivenUp
    obtain ⟨path, rfl⟩ := eq_of_withoutHeaders hgivenUp
    exact ⟨e, path, he, houtcome⟩

theorem preamble_threshold_headersFirst :
    let past := pastOf ⟨"/b.cpp"⟩ ⟨"/a.cpp"⟩
    let options := (plainJob ⟨"/b.cpp"⟩).options.optionList
    (∀ call ∈ past.calls, call.2.failsToBuild = false) ∧
      ∃ e, past.indexer.preambles.find? options = some e ∧ e.outcome = some (.ok e.path) := by
  have hworks : ∀ call ∈ (pastOf ⟨"/b.cpp"⟩ ⟨"/a.cpp"⟩).calls, call.2.failsToBuild = false := by
    decide +kernel
  exact ⟨hworks, (preamble_threshold hworks).2.2 (by decide +kernel) (by decide +kernel)⟩

end SymbolAtlas.Indexer
