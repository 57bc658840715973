import Mathlib.Data.List.Nodup
import SymbolAtlas.Proofs.FrontendCalls
import SymbolAtlas.Settings

/-!
# Preamble entries and the calls behind them

An entry collects the headers of the parses with its options, until a preamble is built or given up.
All there is to know of an entry can be read off the calls of the frontend, and here it is said how.

* `Indexer.contributions`, `Indexer.builds` — the parses that contribute to an option list, and the
  calls that build its preamble, among some calls.
* `Indexer.Story` — how calls led to an entry: it still collects, or it was settled with nothing to
  build from, or by the one call that built its preamble.
* `Indexer.Traces` — every entry of a coordinator has its story, and there is nothing else to tell.

Principal results: `Indexer.Traces.goOn` — stories go on with further calls;
`Indexer.story_ensureBuilt` — an entry is settled.
-/

set_option autoImplicit false

namespace SymbolAtlas

variable {σ : Type}

/-! ## Headers in order -/

theorem addPaths_eq (known new : List Path) : addPaths known new = appendNew known new := by
  have hstep : (fun (ps : List Path) p => if ps.any (· == p) then ps else ps ++ [p]) =
      fun ps p => if ps.contains p then ps else ps ++ [p] := by
    funext ps p
    rw [List.contains_eq_any_beq]
    simp only [BEq.comm]
  rw [addPaths, appendNew, hstep]

/-- Adding paths to those of one list keeps each of both lists once, where it came first. -/
theorem addPaths_eraseDups (ps qs : List Path) :
    addPaths ps.eraseDups qs = (ps ++ qs).eraseDups := by
  rw [addPaths_eq, appendNew_eraseDups]

/-- The headers of some parses, each once, in the order of their first appearance. -/
def PreambleInputs.gathered (parses : List (List Inclusion)) : PreambleInputs where
  direct := ((parses.flatten.filter (·.depth == 1)).map (·.path)).eraseDups
  all := (parses.flatten.map (·.path)).eraseDups

theorem PreambleEntry.headers_add {e : PreambleEntry} {parses : List (List Inclusion)}
    (houtcome : e.outcome = none) (hheaders : e.headers = .gathered parses)
    (inclusions : List Inclusion) :
    e.add ((inclusions.filter (·.depth == 1)).map (·.path)) (inclusions.map (·.path)) =
      { e with
        headers := .gathered (parses ++ [inclusions])
        contributions := e.contributions + 1 } := by
  have hcollecting : e.collecting = true := by rw [collecting, houtcome]; rfl
  rw [add, if_pos hcollecting, hheaders]
  simp only [PreambleInputs.gathered, addPaths_eraseDups, List.flatten_append, List.flatten_cons,
    List.flatten_nil, List.append_nil, List.filter_append, List.map_append]

theorem PreambleInputs.gathered_all_isEmpty (parses : List (List Inclusion)) :
    (gathered parses).all.isEmpty = parses.all (·.isEmpty) := by
  rw [gathered]
  dsimp only
  have hsame : parses.all (·.isEmpty) = parses.flatten.isEmpty := by
    induction parses with
    | nil => rfl
    | cons p parses ih =>
      rw [List.all_cons, ih, List.flatten_cons]
      cases p with
      | nil => rfl
      | cons i is => rfl
  rw [hsame]
  cases parses.flatten with
  | nil => rfl
  | cons i is =>
    rw [List.map_cons, List.eraseDups_cons]
    rfl

/-- Without any header there is none that a main file includes itself. -/
theorem PreambleInputs.gathered_isEmpty (parses : List (List Inclusion)) :
    ((gathered parses).all.isEmpty && (gathered parses).direct.isEmpty) =
      parses.all (·.isEmpty) := by
  rw [gathered_all_isEmpty]
  cases hall : parses.all (·.isEmpty) with
  | false => rfl
  | true =>
    have hnone : parses.flatten = [] := List.flatten_eq_nil_iff.mpr fun p hp =>
      List.isEmpty_iff.mp (List.all_eq_true.mp hall p hp)
    rw [gathered, hnone]
    rfl

/-! ## Artifacts -/

/-- A preamble is used if it was built and the artifact is still there. -/
theorem PreambleEntry.builtPath_eq_some_iff (files : FileSystem) (e : PreambleEntry)
    (artifact : Path) :
    e.builtPath files = some artifact ↔
      e.outcome = some (.ok artifact) ∧ files.exists? artifact = true := by
  unfold builtPath
  split
  · rename_i path hpath
    rw [hpath]
    constructor
    · intro h
      split at h
      · rename_i hexists
        cases h
        exact ⟨rfl, hexists⟩
      · cases h
    · rintro ⟨hsame, hexists⟩
      cases hsame
      exact if_pos hexists
  · rename_i hnone
    exact ⟨nofun, fun h => absurd h.1 (hnone artifact)⟩

/-! ## Calls -/

/-- The unit that a call made of a file, if the file stayed the same meanwhile. -/
def FrontendCall.made? : FrontendCall → Option TranslationUnit
  | .parse file _ before (.ok unit) after =>
    match before.modified file, after.modified file with
    | .ok stamp, .ok stamp' => if stamp' = stamp then some unit else none
    | _, _ => none
  | _ => none

/-- The call builds the preamble of an option list. -/
def FrontendCall.builds (options : List String) : FrontendCall → Bool
  | .build _ options' .. => options' == options
  | .parse .. => false

/-- The call is a build that failed. -/
def FrontendCall.failsToBuild : FrontendCall → Bool
  | .build _ _ _ _ (.error _) _ => true
  | _ => false

/-- Preambles are used, and for the language of a job. -/
def PreambleConfig.Serves (config : PreambleConfig) (job : SourceJob) : Prop :=
  config.enabled = true ∧ config.language = job.options.language

instance (config : PreambleConfig) (job : SourceJob) : Decidable (config.Serves job) :=
  inferInstanceAs (Decidable (_ ∧ _))

namespace Indexer

/-- The headers that a call of a step contributes to the preamble of an option list, if it
    contributes. -/
def contribution? (config : PreambleConfig) (options : List String) :
    Step × FrontendCall → Option (List Inclusion)
  | (.job _ job, call) =>
    if config.Serves job ∧ job.options.optionList = options then call.made?.map (·.inclusions)
    else none
  | _ => none

/-- The headers that calls contribute to the preamble of an option list, call by call. -/
def contributions (config : PreambleConfig) (options : List String)
    (calls : List (Step × FrontendCall)) : List (List Inclusion) :=
  calls.filterMap (contribution? config options)

/-- The calls that build the preamble of an option list. -/
def builds (options : List String) (calls : List (Step × FrontendCall)) :
    List (Step × FrontendCall) :=
  calls.filter (·.2.builds options)

theorem contributions_append (config : PreambleConfig) (options : List String)
    (t r : List (Step × FrontendCall)) :
    contributions config options (t ++ r) =
      contributions config options t ++ contributions config options r :=
  List.filterMap_append

theorem builds_append (options : List String) (t r : List (Step × FrontendCall)) :
    builds options (t ++ r) = builds options t ++ builds options r :=
  List.filter_append t r

/-- Calls that neither contribute to the preamble of an option list nor build it. -/
def Quiet (config : PreambleConfig) (options : List String) (calls : List (Step × FrontendCall)) :
    Prop :=
  contributions config options calls = [] ∧ builds options calls = []

theorem quiet_nil (config : PreambleConfig) (options : List String) :
    Quiet config options [] := ⟨rfl, rfl⟩

theorem Quiet.append {config : PreambleConfig} {options : List String}
    {t r : List (Step × FrontendCall)} (ht : Quiet config options t) (hr : Quiet config options r) :
    Quiet config options (t ++ r) := by
  rw [Quiet, contributions_append, builds_append, ht.1, ht.2, hr.1, hr.2]
  exact ⟨rfl, rfl⟩

/-! ## Stories -/

/-- An entry holds what calls contributed to its option list. -/
structure Collected (config : PreambleConfig) (calls : List (Step × FrontendCall))
    (e : PreambleEntry) : Prop where
  headers : e.headers = .gathered (contributions config e.options calls)
  count : e.contributions = (contributions config e.options calls).length

/-- The number of contributions that settle an entry: enough of them, or less if it was `asked` for
    all preambles. -/
structure Settling (config : PreambleConfig) (asked : Prop) (e : PreambleEntry) : Prop where
  pos : 0 < e.contributions
  le : e.contributions ≤ max config.buildAfter 1
  full : e.contributions = max config.buildAfter 1 ∨ asked

/-- The outcome of an entry whose preamble was built with a result. -/
def outcomeOf (path : Path) : Except FrontendError Unit → Except PreambleError Path
  | .ok () => .ok path
  | .error e => .error (.buildFailed path e.message)

/-- How calls led to an entry. -/
inductive Story (config : PreambleConfig) (asked : Prop) (calls : List (Step × FrontendCall))
    (e : PreambleEntry) : Prop where
  /-- It holds all contributions, and waits for more. -/
  | collecting (houtcome : e.outcome = none) (hheld : Collected config calls e)
      (hmore : e.contributions < max config.buildAfter 1) (hnone : builds e.options calls = [])
  /-- It was given up without headers. -/
  | empty {before after : List (Step × FrontendCall)} (hcalls : calls = before ++ after)
      (houtcome : e.outcome = some (.error (.noHeaders e.path)))
      (hheld : Collected config before e) (hsettling : Settling config asked e)
      (hempty : (contributions config e.options before).all (·.isEmpty) = true)
      (hnone : builds e.options calls = [])
  /-- Its preamble was built from what it held. -/
  | built {before after : List (Step × FrontendCall)} {step : Step} {files files' : FileSystem}
      {result : Except FrontendError Unit}
      (hcalls : calls =
        before ++ (step, .build e.headers e.options e.path files result files') :: after)
      (houtcome : e.outcome = some (outcomeOf e.path result))
      (hheld : Collected config before e) (hsettling : Settling config asked e)
      (hsome : (contributions config e.options before).all (·.isEmpty) = false)
      (hbefore : builds e.options before = []) (hafter : builds e.options after = [])

variable {config : PreambleConfig} {asked asked' : Prop} {t r : List (Step × FrontendCall)}
  {e e' : PreambleEntry}

theorem Settling.mono (h : Settling config asked e) (hasked : asked → asked') :
    Settling config asked' e := ⟨h.pos, h.le, h.full.imp_right hasked⟩

theorem Story.mono (h : Story config asked t e) (hasked : asked → asked') :
    Story config asked' t e := by
  cases h with
  | collecting houtcome hheld hmore hnone => exact .collecting houtcome hheld hmore hnone
  | empty hcalls houtcome hheld hsettling hempty hnone =>
    exact .empty hcalls houtcome hheld (hsettling.mono hasked) hempty hnone
  | built hcalls houtcome hheld hsettling hsome hbefore hafter =>
    exact .built hcalls houtcome hheld (hsettling.mono hasked) hsome hbefore hafter

/-- Calls that are about something else do not change a story. -/
theorem Story.append (h : Story config asked t e) (hquiet : Quiet config e.options r) :
    Story config asked (t ++ r) e := by
  have hbuilds : ∀ {t}, builds e.options t = [] → builds e.options (t ++ r) = [] := fun h => by
    rw [builds_append, h, hquiet.2, List.append_nil]
  cases h with
  | collecting houtcome hheld hmore hnone =>
    have hsame : contributions config e.options (t ++ r) = contributions config e.options t := by
      rw [contributions_append, hquiet.1, List.append_nil]
    exact .collecting houtcome ⟨by rw [hsame]; exact hheld.headers,
      by rw [hsame]; exact hheld.count⟩ hmore (hbuilds hnone)
  | empty hcalls houtcome hheld hsettling hempty hnone =>
    exact .empty (by rw [hcalls, List.append_assoc]) houtcome hheld hsettling hempty
      (hbuilds hnone)
  | built hcalls houtcome hheld hsettling hsome hbefore hafter =>
    exact .built (by rw [hcalls, List.append_assoc, List.cons_append]) houtcome hheld hsettling
      hsome hbefore (hbuilds hafter)

/-- An entry without an outcome collects. -/
theorem Story.open (h : Story config asked t e) (houtcome : e.outcome = none) :
    Collected config t e ∧ e.contributions < max config.buildAfter 1 ∧
      builds e.options t = [] := by
  cases h with
  | collecting _ hheld hmore hnone => exact ⟨hheld, hmore, hnone⟩
  | empty _ hsome => rw [houtcome] at hsome; cases hsome
  | built _ hsome => rw [houtcome] at hsome; cases hsome

/-- A preamble that was built is at the path of its entry. -/
theorem Story.path_eq (h : Story config asked t e) {path : Path}
    (houtcome : e.outcome = some (.ok path)) : path = e.path := by
  cases h with
  | collecting hnone => rw [houtcome] at hnone; cases hnone
  | empty _ hempty => rw [houtcome] at hempty; cases hempty
  | @built _ _ _ _ _ result _ hbuilt =>
    rw [houtcome] at hbuilt
    cases result with
    | ok _ =>
      cases hbuilt
      rfl
    | error err => cases hbuilt

/-- Once an entry has an outcome, contributions do not change its story. -/
theorem Story.appendSettled (h : Story config asked t e) (houtcome : e.outcome.isSome = true)
    (hnone : builds e.options r = []) : Story config asked (t ++ r) e := by
  have hbuilds : ∀ {t}, builds e.options t = [] → builds e.options (t ++ r) = [] := fun h => by
    rw [builds_append, h, hnone, List.append_nil]
  cases h with
  | collecting hopen _ _ _ =>
    rw [hopen] at houtcome
    cases houtcome
  | empty hcalls houtcome hheld hsettling hempty hnone =>
    exact .empty (by rw [hcalls, List.append_assoc]) houtcome hheld hsettling hempty
      (hbuilds hnone)
  | built hcalls houtcome hheld hsettling hsome hbefore hafter =>
    exact .built (by rw [hcalls, List.append_assoc, List.cons_append]) houtcome hheld hsettling
      hsome hbefore (hbuilds hafter)

/-- An entry that collects takes in one more parse. -/
theorem Collected.add (h : Collected config t e) (houtcome : e.outcome = none)
    {inclusions : List Inclusion} (hr : contributions config e.options r = [inclusions]) :
    let added := e.add ((inclusions.filter (·.depth == 1)).map (·.path))
      (inclusions.map (·.path))
    added.options = e.options ∧ added.path = e.path ∧ added.outcome = none ∧
      added.contributions = e.contributions + 1 ∧ Collected config (t ++ r) added := by
  intro added
  have hadded : added = _ := PreambleEntry.headers_add houtcome h.headers inclusions
  have hboth : contributions config e.options (t ++ r) =
      contributions config e.options t ++ [inclusions] := by rw [contributions_append, hr]
  rw [hadded]
  refine ⟨rfl, rfl, houtcome, rfl, ?_, ?_⟩
  · dsimp only
    rw [hboth]
  · dsimp only
    rw [hboth, h.count, List.length_append, List.length_singleton]

/-! ## All entries -/

/-- The entries of a coordinator, each with its story, and nothing else was contributed or
    built. -/
structure Traces (config : PreambleConfig) (asked : Prop) (calls : List (Step × FrontendCall))
    (c : PreambleCoordinator) : Prop where
  configured : c.config = config
  distinct : (c.entries.map (·.options)).Nodup
  story : ∀ e ∈ c.entries, e.path = c.artifactPath e.options ∧ Story config asked calls e
  silent : ∀ options, options ∉ c.entries.map (·.options) → Quiet config options calls

variable {c : PreambleCoordinator}

theorem Traces.mono (h : Traces config asked t c) (hasked : asked → asked') :
    Traces config asked' t c :=
  ⟨h.configured, h.distinct, fun e he => (h.story e he).imp_right (·.mono hasked), h.silent⟩

/-- The same option lists after further calls: the entries that were there, with nothing about them
    in these calls, and others with stories of their own. -/
theorem Traces.goOn (h : Traces config asked t c) {c' : PreambleCoordinator}
    (hconfig : c'.config = c.config)
    (hoptions : c'.entries.map (·.options) = c.entries.map (·.options))
    (hentries : ∀ e ∈ c'.entries, e ∈ c.entries ∧ Quiet config e.options r ∨
      e.path = c.artifactPath e.options ∧ Story config asked (t ++ r) e)
    (hsilent : ∀ options, options ∉ c.entries.map (·.options) → Quiet config options r) :
    Traces config asked (t ++ r) c' where
  configured := hconfig.trans h.configured
  distinct := by rw [hoptions]; exact h.distinct
  story e he := by
    rw [PreambleCoordinator.artifactPath, hconfig]
    rcases hentries e he with ⟨he, hquiet⟩ | hstory
    · exact (h.story e he).imp_right (·.append hquiet)
    · exact hstory
  silent options hnot := by
    rw [hoptions] at hnot
    exact (h.silent options hnot).append (hsilent options hnot)

theorem Traces.append (h : Traces config asked t c)
    (hquiet : ∀ options, Quiet config options r) : Traces config asked (t ++ r) c :=
  h.goOn rfl rfl (fun e he => .inl ⟨he, hquiet e.options⟩) fun options _ => hquiet options

theorem find?_eq_some_iff (hdistinct : (c.entries.map (·.options)).Nodup)
    {options : List String} :
    c.find? options = some e ↔ e ∈ c.entries ∧ e.options = options := by
  unfold PreambleCoordinator.find?
  constructor
  · exact fun h => ⟨List.mem_of_find?_eq_some h, by simpa using List.find?_some h⟩
  · rintro ⟨hmem, rfl⟩
    cases hfound : c.entries.find? (·.options == e.options) with
    | none =>
      have hnot := List.find?_eq_none.mp hfound e hmem
      exact absurd (beq_self_eq_true e.options) hnot
    | some e' =>
      have hsame : e' = e := List.inj_on_of_nodup_map hdistinct (List.mem_of_find?_eq_some hfound)
        hmem (by simpa using List.find?_some hfound)
      rw [hsame]

/-- There is an entry for every option list that is known. -/
theorem exists_find? {options : List String} (h : options ∈ c.entries.map (·.options)) :
    ∃ e, c.find? options = some e := by
  obtain ⟨e, he, rfl⟩ := List.mem_map.mp h
  exact Option.isSome_iff_exists.mp
    (List.find?_isSome.mpr ⟨e, he, beq_self_eq_true e.options⟩)

theorem options_update (c : PreambleCoordinator) (e : PreambleEntry) :
    (c.update e).entries.map (·.options) = c.entries.map (·.options) := by
  unfold PreambleCoordinator.update
  rw [List.map_map]
  refine List.map_congr_left fun x _ => ?_
  dsimp only [Function.comp_apply]
  split
  · rename_i h
    exact h.symm
  · rfl

theorem mem_update {x : PreambleEntry} (h : x ∈ (c.update e).entries) :
    x = e ∨ x ∈ c.entries ∧ x.options ≠ e.options := by
  obtain ⟨y, hy, rfl⟩ := List.mem_map.mp h
  split
  · exact .inl rfl
  · rename_i hne
    exact .inr ⟨hy, hne⟩

theorem mem_update_of_ne {x : PreambleEntry} (h : x ∈ c.entries) (hne : x.options ≠ e.options) :
    x ∈ (c.update e).entries :=
  List.mem_map.mpr ⟨x, h, if_neg hne⟩

/-- One entry is replaced, and what happened meanwhile was about its option list. -/
theorem Traces.update (h : Traces config asked t c) (hmem : e ∈ c.entries)
    (hoptions : e'.options = e.options) (hpath : e'.path = e.path)
    (hothers : ∀ options, options ≠ e.options → Quiet config options r)
    (hstory : Story config asked (t ++ r) e') : Traces config asked (t ++ r) (c.update e') := by
  have hknown : e.options ∈ c.entries.map (·.options) := List.mem_map_of_mem hmem
  refine h.goOn rfl (options_update c e') (fun x hx => ?_) fun options hnot =>
    hothers options fun heq => hnot (heq ▸ hknown)
  rcases mem_update hx with rfl | ⟨hx, hne⟩
  · exact .inr ⟨by rw [hpath, hoptions]; exact (h.story e hmem).1, hstory⟩
  · exact .inl ⟨hx, hothers x.options (by rw [← hoptions]; exact hne)⟩

/-- A settled entry got further contributions. -/
theorem Traces.settled (h : Traces config asked t c) (hmem : e ∈ c.entries)
    (houtcome : e.outcome.isSome = true) (hnone : builds e.options r = [])
    (hothers : ∀ options, options ≠ e.options → Quiet config options r) :
    Traces config asked (t ++ r) c := by
  have hknown : e.options ∈ c.entries.map (·.options) := List.mem_map_of_mem hmem
  refine h.goOn rfl rfl (fun x hx => ?_) fun options hnot =>
    hothers options fun heq => hnot (heq ▸ hknown)
  by_cases hsame : x.options = e.options
  · obtain rfl : x = e := List.inj_on_of_nodup_map h.distinct hx hmem hsame
    exact .inr ((h.story x hx).imp_right (·.appendSettled houtcome hnone))
  · exact .inl ⟨hx, hothers x.options hsame⟩

/-- Where preambles are used, there is an entry, or a new one holds nothing. -/
theorem get_cases (henabled : c.config.enabled = true) (options : List String) :
    (∃ e, c.find? options = some e ∧ c.get options = (some e, c)) ∨
      c.find? options = none ∧ ∃ e : PreambleEntry,
        e = { options, path := c.artifactPath options } ∧
          c.get options = (some e, { c with entries := c.entries ++ [e] }) := by
  have hused : ¬(!c.config.enabled) = true := by
    rw [henabled]
    exact Bool.false_ne_true
  unfold PreambleCoordinator.get
  rw [if_neg hused]
  cases c.find? options with
  | some e => exact .inl ⟨e, rfl, rfl⟩
  | none => exact .inr ⟨rfl, _, rfl, rfl⟩

/-- A new entry has nothing to tell. -/
theorem Traces.addEntry (h : Traces config asked t c) {options : List String}
    (hnone : c.find? options = none)
    (he : e = { options, path := c.artifactPath options }) :
    Traces config asked t { c with entries := c.entries ++ [e] } := by
  have hnot : options ∉ c.entries.map (·.options) := fun hmem => by
    obtain ⟨e, he⟩ := exists_find? hmem
    rw [hnone] at he
    cases he
  obtain ⟨hcontributions, hbuilds⟩ := h.silent options hnot
  subst he
  refine ⟨h.configured, ?_, fun x hx => ?_, fun options' hnot' => h.silent options' fun hmem => ?_⟩
  · rw [List.map_append, List.map_singleton]
    exact List.Nodup.append h.distinct (List.nodup_singleton _) (List.disjoint_singleton.mpr hnot)
  · rcases List.mem_append.mp hx with hx | hx
    · exact h.story x hx
    · obtain rfl := List.mem_singleton.mp hx
      refine ⟨rfl, .collecting rfl ⟨?_, ?_⟩ ?_ hbuilds⟩
      · rw [hcontributions]
        rfl
      · rw [hcontributions]
        rfl
      · exact Nat.lt_of_lt_of_le Nat.zero_lt_one (Nat.le_max_right _ _)
  · refine hnot' ?_
    dsimp only
    rw [List.map_append]
    exact List.mem_append_left _ hmem

/-! ## Builds -/

/-- Calls that are no parses with a result, and no builds for an option list. -/
theorem quiet_calls (config : PreambleConfig) {options : List String} (step : Step)
    {calls : List FrontendCall}
    (h : ∀ call ∈ calls, call.made? = none ∧ call.builds options = false) :
    Quiet config options (calls.map (step, ·)) := by
  constructor
  · refine List.filterMap_eq_nil_iff.mpr fun call hcall => ?_
    obtain ⟨call, hmem, rfl⟩ := List.mem_map.mp hcall
    unfold contribution?
    cases step with
    | job force job =>
      dsimp only
      rw [(h call hmem).1, Option.map_none, ite_self]
    | buildPreambles => rfl
    | reset => rfl
    | files change => rfl
  · refine List.filter_eq_nil_iff.mpr fun call hcall => ?_
    obtain ⟨call, hmem, rfl⟩ := List.mem_map.mp hcall
    rw [(h call hmem).2]
    exact Bool.false_ne_true

/-- What builds the preamble of one option list is about no other one. -/
theorem quiet_builds (config : PreambleConfig) {options options' : List String} (step : Step)
    {calls : List FrontendCall} (h : ∀ call ∈ calls, call.builds options' = true)
    (hne : options ≠ options') : Quiet config options (calls.map (step, ·)) := by
  refine quiet_calls config step fun call hcall => ?_
  have hbuild := h call hcall
  cases call with
  | parse _ _ _ _ _ => cases hbuild
  | build inputs options'' output before result after =>
    refine ⟨rfl, beq_eq_false_iff_ne.mpr fun heq => hne ?_⟩
    rw [← heq]
    exact eq_of_beq hbuild

/-- An entry is settled, by a build if it holds any headers. -/
theorem story_ensureBuilt (F : Frontend σ) (step : Step) (w : World (Recorded σ))
    (houtcome : e.outcome = none) (hheld : Collected config t e)
    (hsettling : Settling config asked e) (hnone : builds e.options t = []) :
    let done := e.ensureBuilt F.recorded.buildPreamble w
    done.1.options = e.options ∧ done.1.path = e.path ∧
      ∃ calls, done.2.state.calls = w.state.calls ++ calls ∧
        (∀ call ∈ calls, call.builds e.options = true) ∧
        Story config asked (t ++ calls.map (step, ·)) done.1 := by
  have hholds : (e.headers.all.isEmpty && e.headers.direct.isEmpty) =
      (contributions config e.options t).all (·.isEmpty) := by
    rw [hheld.headers, PreambleInputs.gathered_isEmpty]
  intro done
  cases hempty : (contributions config e.options t).all (·.isEmpty) with
  | true =>
    have hdone : done = ({ e with outcome := some (.error (.noHeaders e.path)) }, w) := by
      simp only [done, PreambleEntry.ensureBuilt, houtcome, hholds, hempty, if_true]
    have hcalls : t ++ ([] : List FrontendCall).map (step, ·) = t ++ [] := rfl
    rw [hdone]
    exact ⟨rfl, rfl, [], (List.append_nil _).symm, List.forall_mem_nil _,
      .empty hcalls rfl ⟨hheld.headers, hheld.count⟩
        ⟨hsettling.pos, hsettling.le, hsettling.full⟩ hempty
        (by rw [List.map_nil, List.append_nil]; exact hnone)⟩
  | false =>
    obtain ⟨files', result, hresult, hcalls⟩ : ∃ files' result,
        done.1 = { e with outcome := some (outcomeOf e.path result) } ∧
          done.2.state.calls = w.state.calls ++
            [.build e.headers e.options e.path w.files result files'] := by
      cases hbuild : F.buildPreamble e.headers e.options e.path w.unrecorded with
      | mk result w' =>
        refine ⟨w'.files, result, ?_⟩
        simp only [done, PreambleEntry.ensureBuilt, houtcome, hholds, hempty, Bool.false_eq_true,
          if_false, Frontend.recorded_build hbuild]
        cases result with
        | ok _ => exact ⟨rfl, rfl⟩
        | error err => exact ⟨rfl, rfl⟩
    rw [hresult]
    refine ⟨rfl, rfl, _, hcalls, fun call hcall => ?_, ?_⟩
    · rw [List.mem_singleton.mp hcall]
      exact beq_self_eq_true e.options
    · exact .built (rfl : _ = t ++ _ :: []) rfl ⟨hheld.headers, hheld.count⟩
        ⟨hsettling.pos, hsettling.le, hsettling.full⟩ hempty hnone rfl

end Indexer

end SymbolAtlas
