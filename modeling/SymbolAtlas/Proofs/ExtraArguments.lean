import Mathlib.Data.List.Nodup
import SymbolAtlas.Proofs.SettingsLayers
import SymbolAtlas.Session

/-!
# Extra arguments of a job

Extra arguments stand at the end of every option list, those of the user before those of the
project.  They go through the same merge as include paths and defines, which leaves out what is
there already.  So an argument that is written twice, such as a flag before each of its values, is
passed once.

* `Settings.extraArgsIn` — the extra arguments that a document writes.
* `Settings.extraArgsOf` — those of the two files, one behind the other.

Principal results: `Settings.extraArgs_load` — what is loaded of them is each once, where it came
first; `Session.optionList_job` — they end the option list of every job, as they are written exactly
if none is written twice; `Session.optionList_sameFlag` — how a value loses its flag.
-/

set_option autoImplicit false

namespace SymbolAtlas

open Toml

/-- Nothing is erased from a list exactly if nothing is in it twice. -/
theorem eraseDups_eq_self_iff {α : Type} [BEq α] [LawfulBEq α] {l : List α} :
    l.eraseDups = l ↔ l.Nodup := by
  induction l with
  | nil => simp
  | cons a l ih =>
    rw [List.eraseDups_cons, List.cons_inj_right, List.nodup_cons]
    constructor
    · intro h
      have hout : a ∉ l := by
        rw [← h, List.mem_eraseDups, List.mem_filter]
        simp
      rw [List.filter_eq_self.mpr fun b hb => by simpa using ne_of_mem_of_not_mem hb hout] at h
      exact ⟨hout, ih.mp h⟩
    · rintro ⟨hout, hl⟩
      rw [List.filter_eq_self.mpr fun b hb => by simpa using ne_of_mem_of_not_mem hb hout]
      exact ih.mpr hl

namespace Settings

/-! ## What the files write -/

/-- What a document holds as extra arguments, if it mentions them. -/
def extraArgsMention? (document : Value) : Option Value := do
  let groups ← FieldValues.of? ["analysis", "preamble", "diagnostics", "logging"] document
  let group ← groups "analysis"
  let fields ← FieldValues.of? SettingKey.parallelism.fields group
  fields "extra_args"

/-- The extra arguments that a document writes. -/
def extraArgsIn (document : Value) : List String :=
  ((extraArgsMention? document).bind Value.texts?).getD []

/-- The extra arguments written in the two files, those of the user first. -/
def extraArgsOf (fs : FileSystem) (userDir : Option Path) (project : ProjectFile) : List String :=
  ((userDocument? fs userDir).map extraArgsIn).getD [] ++
    ((projectDocument? fs project).map extraArgsIn).getD []

theorem extraArgs_of_ofToml? {document : Value} {s : Settings} (h : ofToml? document = some s) :
    s.analysis.extraArgs = extraArgsIn document := by
  simp only [ofToml?, Option.bind_eq_bind, Option.bind_eq_some_iff, Option.pure_def,
    Option.some.injEq] at h
  obtain ⟨groups, hgroups, analysis, ha, _, _, _, _, _, _, rfl⟩ := h
  have hreads := FieldValues.read_within AnalysisSettings.extraArgs ha fun _ hv => by
    obtain ⟨fields, hfields, _, hextra⟩ := AnalysisSettings.reads_of_ofToml? hv
    exact ⟨fields, hfields, hextra⟩
  have hmention : extraArgsMention? document = (groups "analysis").bind fun v =>
      (FieldValues.of? SettingKey.parallelism.fields v).bind fun fields => fields "extra_args" := by
    rw [extraArgsMention?, hgroups]
    rfl
  rw [← hmention] at hreads
  unfold extraArgsIn
  cases hv : extraArgsMention? document with
  | none =>
    rw [hv] at hreads
    exact hreads.symm
  | some v =>
    rw [hv] at hreads
    rw [Option.bind_some, show v.texts? = some analysis.extraArgs from hreads]
    rfl

/-! ## What is loaded -/

/-- A layer adds the extra arguments that it writes. -/
theorem IsLayer.extraArgs_foldl {document : Option Value} {layers : List Settings}
    (h : IsLayer document layers) {below : Settings} {written : List String}
    (hbelow : below.analysis.extraArgs = written.eraseDups) :
    (layers.foldl (fun lower upper => upper.onTopOf lower) below).analysis.extraArgs =
      (written ++ (document.map extraArgsIn).getD []).eraseDups := by
  obtain ⟨rfl, rfl⟩ | ⟨d, s, rfl, hs, rfl⟩ := h
  · rw [Option.map_none, Option.getD_none, List.append_nil]
    exact hbelow
  · show appendNew below.analysis.extraArgs s.analysis.extraArgs = _
    rw [hbelow, extraArgs_of_ofToml? hs, appendNew_eraseDups]
    rfl

/-- What is loaded of the extra arguments in the two files is each once, where it came first. -/
theorem extraArgs_load {fs : FileSystem} {userDir : Option Path} {project : ProjectFile}
    {o : Overrides} {s : Settings} (h : load fs userDir project o = .ok s) :
    s.analysis.extraArgs = (extraArgsOf fs userDir project).eraseDups := by
  obtain ⟨lower, upper, hlower, hupper, rfl⟩ := load_eq_apply h
  have hstack : stack (lower ++ upper) =
      upper.foldl (fun lower upper => upper.onTopOf lower) (stack lower) := List.foldl_append
  have huser : (stack lower).analysis.extraArgs =
      ([] ++ ((userDocument? fs userDir).map extraArgsIn).getD []).eraseDups :=
    hlower.extraArgs_foldl rfl
  show (stack (lower ++ upper)).analysis.extraArgs = _
  rw [hstack]
  exact hupper.extraArgs_foldl huser

end Settings

/-! ## Jobs -/

namespace Session

open Settings (load extraArgsOf twoFiles)

/-- **Extra arguments end the option list of every job**, each once where it came first.  They are
    passed as they are written exactly if none is written twice. -/
theorem optionList_job {fs : FileSystem} {userDir : Option Path} {project : ProjectFile}
    {o : Overrides} {s : Settings} (h : load fs userDir project o = .ok s) (workspace : Path)
    (files : FileSystem) (file : Path) :
    let written := extraArgsOf fs userDir project
    let options := ((⟨s, workspace⟩ : Session).job files file).options
    options.optionList = { options with extra := [] }.optionList ++ options.extra ∧
      options.extra = written.eraseDups ∧ (options.extra = written ↔ written.Nodup) := by
  have hextra : ((⟨s, workspace⟩ : Session).job files file).options.extra =
      (extraArgsOf fs userDir project).eraseDups := Settings.extraArgs_load h
  dsimp only
  rw [hextra]
  refine ⟨?_, rfl, eraseDups_eq_self_iff⟩
  rw [← hextra]
  simp [CompileOptions.optionList]

/-- A user and a project that each write flags and values apart. -/
def apartFiles : FileSystem :=
  twoFiles "analysis.extra_args = [\"-I\", \"one\"]\n"
    "[analysis]\nextra_args = [\"-isystem\", \"two\", \"-Wall\"]\n"

theorem optionList_job_apart :
    ∃ s, load apartFiles (some ⟨"/home"⟩) (.inWorkspace ⟨"/ws"⟩) {} = .ok s ∧
      ["-I", "one", "-isystem", "two", "-Wall"] <:+
        ((⟨s, ⟨"/ws"⟩⟩ : Session).job apartFiles ⟨"/ws/m.c"⟩).options.optionList := by
  have hloads : (load apartFiles (some ⟨"/home"⟩) (.inWorkspace ⟨"/ws"⟩) {}).toOption.isSome =
      true := by
    decide +kernel
  have hwritten : extraArgsOf apartFiles (some ⟨"/home"⟩) (.inWorkspace ⟨"/ws"⟩) =
      ["-I", "one", "-isystem", "two", "-Wall"] := by
    decide +kernel
  cases hs : load apartFiles (some ⟨"/home"⟩) (.inWorkspace ⟨"/ws"⟩) {} with
  | error e =>
    rw [hs] at hloads
    cases hloads
  | ok s =>
    obtain ⟨hlist, -, hverbatim⟩ := optionList_job hs ⟨"/ws"⟩ apartFiles ⟨"/ws/m.c"⟩
    rw [hwritten] at hverbatim
    refine ⟨s, rfl, ?_⟩
    rw [hlist, hverbatim.mpr (by decide)]
    exact List.suffix_append _ _

/-- A user and a project that write the same flag before different values. -/
def sameFlagFiles : FileSystem :=
  twoFiles "[analysis]\nextra_args = [\"-I\", \"one\"]\n"
    "[analysis]\nextra_args = [\"-I\", \"two\"]\n"

/-- The second value has lost its flag. -/
theorem optionList_sameFlag :
    ¬∀ s, load sameFlagFiles (some ⟨"/home"⟩) (.inWorkspace ⟨"/ws"⟩) {} = .ok s →
      extraArgsOf sameFlagFiles (some ⟨"/home"⟩) (.inWorkspace ⟨"/ws"⟩) <:+
        ((⟨s, ⟨"/ws"⟩⟩ : Session).job sameFlagFiles ⟨"/ws/m.c"⟩).options.optionList := by
  intro hverbatim
  have hlist : (load sameFlagFiles (some ⟨"/home"⟩) (.inWorkspace ⟨"/ws"⟩) {}).toOption.map
      (fun s => ((⟨s, ⟨"/ws"⟩⟩ : Session).job sameFlagFiles ⟨"/ws/m.c"⟩).options.optionList) =
        some ["-x", "c", "-I", "one", "two"] := by
    decide +kernel
  have hwritten : extraArgsOf sameFlagFiles (some ⟨"/home"⟩) (.inWorkspace ⟨"/ws"⟩) =
      ["-I", "one", "-I", "two"] := by
    decide +kernel
  cases hs : load sameFlagFiles (some ⟨"/home"⟩) (.inWorkspace ⟨"/ws"⟩) {} with
  | error e =>
    rw [hs] at hlist
    cases hlist
  | ok s =>
    rw [hs] at hlist
    have hpassed : ((⟨s, ⟨"/ws"⟩⟩ : Session).job sameFlagFiles ⟨"/ws/m.c"⟩).options.optionList =
        ["-x", "c", "-I", "one", "two"] := Option.some.inj hlist
    have hsuffix := hverbatim s hs
    rw [hwritten, hpassed] at hsuffix
    revert hsuffix
    decide

end Session

end SymbolAtlas
