import SymbolAtlas.Settings.Layers

/-!
# Settings that files mention

A key that a settings file does not mention is read as its default.  When the file of a project is
put on top of that of a user, a default is therefore taken for a key that is missing: a project can
change what the user has set, but it cannot set it back to the default.

* `SettingKey` — the single values among the settings: where a document mentions them, and what is
  read there.
* `Settings.userDocument?`, `Settings.projectDocument?` — the documents in the two files.
* `SettingKey.Masked` — the project writes the default over something else.

Principal results: `SettingKey.ofToml?_reads` — a document that is read has the values that it
mentions, and defaults besides; `Settings.load_layered` — the file on top wins exactly where it does
not write the default over something else; `Settings.load_masked` — how it loses there.
-/

set_option autoImplicit false

namespace SymbolAtlas

open Toml

/-! ## Keys -/

/-- A single value among the settings, as opposed to lists and to the switch for preambles. -/
inductive SettingKey where
  | parallelism
  | preambleLanguage
  | preambleDirectory
  | preambleBuildAfter
  | logLevel
  | dumpTree

namespace SettingKey

/-- What a key stands for. -/
@[reducible]
def Kind : SettingKey → Type
  | parallelism | preambleBuildAfter => Nat
  | preambleLanguage | logLevel => String
  | preambleDirectory => Path
  | dumpTree => Option String

instance : (k : SettingKey) → BEq k.Kind
  | parallelism | preambleBuildAfter => inferInstanceAs (BEq Nat)
  | preambleLanguage | logLevel => inferInstanceAs (BEq String)
  | preambleDirectory => inferInstanceAs (BEq Path)
  | dumpTree => inferInstanceAs (BEq (Option String))

instance (k : SettingKey) : EquivBEq k.Kind := by
  cases k with
  | parallelism | preambleBuildAfter => exact inferInstanceAs (EquivBEq Nat)
  | preambleLanguage | logLevel => exact inferInstanceAs (EquivBEq String)
  | preambleDirectory => exact inferInstanceAs (EquivBEq Path)
  | dumpTree => exact inferInstanceAs (EquivBEq (Option String))

/-- The value of a key in some settings. -/
def value : (k : SettingKey) → Settings → k.Kind
  | parallelism, s => s.analysis.parallelism
  | preambleLanguage, s => s.preamble.language
  | preambleDirectory, s => s.preamble.directory
  | preambleBuildAfter, s => s.preamble.buildAfter
  | logLevel, s => s.logLevel
  | dumpTree, s => s.dumpTree

/-- The value where nothing is set. -/
def default (k : SettingKey) : k.Kind := k.value {}

/-- The group of a key. -/
def group : SettingKey → String
  | parallelism => "analysis"
  | preambleLanguage | preambleDirectory | preambleBuildAfter => "preamble"
  | logLevel => "logging"
  | dumpTree => "diagnostics"

/-- The fields of the group, in their order. -/
def fields : SettingKey → List String
  | parallelism => ["parallelism", "include_paths", "defines", "exclude_patterns", "extra_args"]
  | preambleLanguage | preambleDirectory | preambleBuildAfter =>
    ["enabled", "language", "directory", "build_after"]
  | logLevel => ["level"]
  | dumpTree => ["dump_tree"]

/-- The name of a key in its group. -/
def name : SettingKey → String
  | parallelism => "parallelism"
  | preambleLanguage => "language"
  | preambleDirectory => "directory"
  | preambleBuildAfter => "build_after"
  | logLevel => "level"
  | dumpTree => "dump_tree"

/-- Reads what a document holds under a key. -/
def decode : (k : SettingKey) → Value → Option k.Kind
  | parallelism, v | preambleBuildAfter, v => v.nat?
  | preambleLanguage, v | logLevel, v => v.text?
  | preambleDirectory, v => v.text?.map Path.mk
  | dumpTree, v => v.text?.map some

/-- What a document holds under a key, if it mentions the key. -/
def mention? (k : SettingKey) (document : Value) : Option Value := do
  let groups ← FieldValues.of? ["analysis", "preamble", "diagnostics", "logging"] document
  let group ← groups k.group
  let fields ← FieldValues.of? k.fields group
  fields k.name

/-- The value that a document writes for a key. -/
def written (k : SettingKey) (document : Value) : Option k.Kind :=
  (k.mention? document).bind k.decode

end SettingKey

/-! ## One document -/

theorem FieldValues.read_eq_some_iff {α : Type} {fields : FieldValues} {name : String}
    {decode : Value → Option α} {default x : α} :
    fields.read name decode default = some x ↔
      (fields name).elim (default = x) fun v => decode v = some x := by
  unfold FieldValues.read
  cases fields name with
  | none => exact Option.some_inj
  | some v => exact Iff.rfl

/-- A field of a group that may be missing itself. -/
theorem FieldValues.read_within {α β : Type} {groups : FieldValues} {group name : String}
    {names : List String} {ofGroup? : Value → Option β} {default s : β}
    {decode : Value → Option α} (get : β → α)
    (h : groups.read group ofGroup? default = some s)
    (hfield : ∀ v, ofGroup? v = some s → ∃ fields, FieldValues.of? names v = some fields ∧
      fields.read name decode (get default) = some (get s)) :
    ((groups group).bind fun v => (FieldValues.of? names v).bind fun fields => fields name).elim
      (get default = get s) fun v => decode v = some (get s) := by
  rw [read_eq_some_iff] at h
  cases hv : groups group with
  | none =>
    rw [hv] at h
    exact congrArg get h
  | some v =>
    rw [hv] at h
    obtain ⟨fields, hfields, hread⟩ := hfield v h
    rw [Option.bind_some, hfields]
    exact read_eq_some_iff.mp hread

/-- What the group of an analysis is read from. -/
theorem AnalysisSettings.reads_of_ofToml? {v : Value} {s : AnalysisSettings}
    (h : AnalysisSettings.ofToml? v = some s) :
    ∃ fields, FieldValues.of? SettingKey.parallelism.fields v = some fields ∧
      fields.read "parallelism" Value.nat? 0 = some s.parallelism ∧
      fields.read "extra_args" Value.texts? [] = some s.extraArgs := by
  simp only [AnalysisSettings.ofToml?, Option.bind_eq_bind, Option.bind_eq_some_iff,
    Option.pure_def, Option.some.injEq] at h
  obtain ⟨fields, hfields, _, hparallelism, _, _, _, _, _, _, _, hextra, rfl⟩ := h
  exact ⟨fields, hfields, hparallelism, hextra⟩

/-- What the group of preambles is read from. -/
theorem PreambleSettings.reads_of_ofToml? {v : Value} {s : PreambleSettings}
    (h : PreambleSettings.ofToml? v = some s) :
    ∃ fields, FieldValues.of? SettingKey.preambleLanguage.fields v = some fields ∧
      fields.read "language" Value.text? "c++" = some s.language ∧
      fields.read "directory" (fun v => v.text?.map Path.mk) ⟨".cxgraph/preambles"⟩ =
        some s.directory ∧
      fields.read "build_after" Value.nat? 2 = some s.buildAfter := by
  simp only [PreambleSettings.ofToml?, Option.bind_eq_bind, Option.bind_eq_some_iff,
    Option.pure_def, Option.some.injEq] at h
  obtain ⟨fields, hfields, _, _, _, hlanguage, _, hdirectory, _, hafter, rfl⟩ := h
  exact ⟨fields, hfields, hlanguage, hdirectory, hafter⟩

namespace SettingKey

/-- A document that is read has the default of a key that it does not mention, and otherwise what is
    read where it mentions the key. -/
theorem ofToml?_reads {document : Value} {s : Settings} (h : Settings.ofToml? document = some s)
    (k : SettingKey) :
    (k.mention? document).elim (k.default = k.value s) fun v => k.decode v = some (k.value s) := by
  simp only [Settings.ofToml?, Option.bind_eq_bind, Option.bind_eq_some_iff, Option.pure_def,
    Option.some.injEq] at h
  obtain ⟨groups, hgroups, analysis, ha, preamble, hp, dump, hd, level, hl, rfl⟩ := h
  simp only [mention?, hgroups, Option.bind_eq_bind, Option.bind_some]
  cases k with
  | parallelism =>
    refine FieldValues.read_within AnalysisSettings.parallelism ha fun _ hv => ?_
    obtain ⟨fields, hfields, hparallelism, _⟩ := AnalysisSettings.reads_of_ofToml? hv
    exact ⟨fields, hfields, hparallelism⟩
  | preambleLanguage =>
    refine FieldValues.read_within PreambleSettings.language hp fun _ hv => ?_
    obtain ⟨fields, hfields, hlanguage, _, _⟩ := PreambleSettings.reads_of_ofToml? hv
    exact ⟨fields, hfields, hlanguage⟩
  | preambleDirectory =>
    refine FieldValues.read_within PreambleSettings.directory hp fun _ hv => ?_
    obtain ⟨fields, hfields, _, hdirectory, _⟩ := PreambleSettings.reads_of_ofToml? hv
    exact ⟨fields, hfields, hdirectory⟩
  | preambleBuildAfter =>
    refine FieldValues.read_within PreambleSettings.buildAfter hp fun _ hv => ?_
    obtain ⟨fields, hfields, _, _, hafter⟩ := PreambleSettings.reads_of_ofToml? hv
    exact ⟨fields, hfields, hafter⟩
  | logLevel =>
    exact FieldValues.read_within id hl fun _ hv => Option.bind_eq_some_iff.mp hv
  | dumpTree =>
    exact FieldValues.read_within id hd fun _ hv => Option.bind_eq_some_iff.mp hv

/-- What a document mentions it writes, and what it does not write it leaves at the default. -/
theorem value_of_ofToml? {document : Value} {s : Settings} (h : Settings.ofToml? document = some s)
    (k : SettingKey) :
    (k.written document).isSome = (k.mention? document).isSome ∧
      k.value s = (k.written document).getD k.default := by
  have hreads := ofToml?_reads h k
  unfold written
  cases hv : k.mention? document with
  | none =>
    rw [hv] at hreads
    exact ⟨rfl, hreads.symm⟩
  | some v =>
    rw [hv] at hreads
    rw [Option.bind_some, show k.decode v = some (k.value s) from hreads]
    exact ⟨rfl, rfl⟩

/-! ## Two layers -/

theorem value_onTopOf (k : SettingKey) (upper lower : Settings) :
    k.value (upper.onTopOf lower) = pickSet k.default (k.value lower) (k.value upper) := by
  cases k with
  | dumpTree =>
    show (upper.dumpTree <|> lower.dumpTree) = pickSet none lower.dumpTree upper.dumpTree
    cases upper.dumpTree with
    | none => rfl
    | some name => rfl
  | _ => rfl

/-- The layer on top writes the default, and the layer below something else. -/
def Masked (k : SettingKey) (lower upper : Option k.Kind) : Prop :=
  (∃ x, upper = some x ∧ (x == k.default) = true) ∧
    ∃ y, lower = some y ∧ (y == k.default) = false

theorem pickSet_of_default {k : SettingKey} {lower upper : k.Kind}
    (h : (upper == k.default) = true) : pickSet k.default lower upper = lower := by
  rw [pickSet, if_pos h]

theorem pickSet_of_other {k : SettingKey} {lower upper : k.Kind}
    (h : (upper == k.default) = false) : pickSet k.default lower upper = upper := by
  rw [pickSet, if_neg (Bool.eq_false_iff.mp h)]

/-- On top of the default a layer shows as it is. -/
theorem pickSet_on_default (k : SettingKey) (x : k.Kind) :
    (pickSet k.default k.default x == x) = true := by
  cases hx : x == k.default with
  | true =>
    rw [pickSet_of_default hx]
    exact BEq.symm hx
  | false =>
    rw [pickSet_of_other hx]
    exact BEq.rfl

/-- What two layers on top of the defaults come to: what is written in the upper one, or else in the
    lower one, unless that is masked; then the lower one counts. -/
theorem pickSet_written (k : SettingKey) (lower upper : Option k.Kind) :
    let chosen := pickSet k.default
      (pickSet k.default k.default (lower.getD k.default)) (upper.getD k.default)
    ((chosen == (upper <|> lower).getD k.default) = true ↔ ¬k.Masked lower upper) ∧
      (k.Masked lower upper → lower = some chosen) := by
  cases upper with
  | none =>
    have hnot : ¬k.Masked lower none := fun ⟨⟨_, hx, _⟩, _⟩ => by cases hx
    dsimp only
    rw [Option.getD_none, pickSet_default]
    exact ⟨iff_of_true (k.pickSet_on_default _) hnot, fun h => absurd h hnot⟩
  | some x =>
    show ((pickSet k.default _ x == x) = true ↔ _) ∧ (_ → lower = some (pickSet k.default _ x))
    cases hx : x == k.default with
    | false =>
      have hnot : ¬k.Masked lower (some x) := fun ⟨⟨_, hx', hd⟩, _⟩ => by
        cases hx'
        rw [hx] at hd
        cases hd
      rw [pickSet_of_other hx]
      exact ⟨iff_of_true BEq.rfl hnot, fun h => absurd h hnot⟩
    | true =>
      rw [pickSet_of_default hx]
      cases hy : lower.getD k.default == k.default with
      | true =>
        -- the lower layer writes the default as well, or nothing
        have hnot : ¬k.Masked lower (some x) := fun ⟨_, y, hlower, hd⟩ => by
          rw [hlower, Option.getD_some, hd] at hy
          cases hy
        have hshown := BEq.trans (k.pickSet_on_default _) hy
        exact ⟨iff_of_true (BEq.trans hshown (BEq.symm hx)) hnot, fun h => absurd h hnot⟩
      | false =>
        cases lower with
        | none =>
          rw [Option.getD_none, BEq.rfl] at hy
          cases hy
        | some y =>
          have hmasked : k.Masked (some y) (some x) := ⟨⟨x, rfl, hx⟩, y, rfl, hy⟩
          rw [pickSet_of_other hy]
          refine ⟨iff_of_false (fun heq => ?_) (fun hnot => hnot hmasked), fun _ => rfl⟩
          rw [BEq.trans heq hx] at hy
          cases hy

end SettingKey

/-! ## Files -/

namespace Settings

/-- The document in a file, if there is one. -/
def document? (fs : FileSystem) (file : Path) : Option Value :=
  (fs.readText file).toOption.bind parse?

/-- The document of a user. -/
def userDocument? (fs : FileSystem) (userDir : Option Path) : Option Value :=
  userDir.bind fun dir => document? fs (userFile dir)

/-- The document of a project. -/
def projectDocument? (fs : FileSystem) : ProjectFile → Option Value
  | .inWorkspace root => document? fs (workspaceFile root)
  | .named file => document? fs file

/-- The layers that a document, if there is one, is read as. -/
def IsLayer (document : Option Value) (layers : List Settings) : Prop :=
  document = none ∧ layers = [] ∨
    ∃ d s, document = some d ∧ ofToml? d = some s ∧ layers = [s]

variable {fs : FileSystem}

theorem readFile_eq_ok {file : Path} {s : Settings} (h : readFile fs file = .ok s) :
    ∃ d, document? fs file = some d ∧ ofToml? d = some s := by
  unfold readFile at h
  unfold document?
  cases htext : fs.readText file with
  | error e =>
    rw [htext] at h
    cases h
  | ok text =>
    rw [htext] at h
    dsimp only [Except.mapError, bind, Except.bind] at h
    cases hread : (parse? text).bind ofToml? with
    | none =>
      rw [hread] at h
      cases h
    | some s' =>
      rw [hread] at h
      cases h
      exact Option.bind_eq_some_iff.mp hread

/-- There is no document where there is no file. -/
theorem document?_of_not_exists {file : Path} (h : fs.exists? file = false) :
    document? fs file = none := by
  unfold FileSystem.exists? at h
  unfold document? FileSystem.readText FileSystem.readBytes
  cases hentry : fs.entryAt file with
  | error e => rfl
  | ok entry =>
    rw [hentry] at h
    cases h

theorem isLayer_of_readFile {file : Path} {layers : List Settings}
    (h : (readFile fs file).map ([·]) = .ok layers) : IsLayer (document? fs file) layers := by
  cases hread : readFile fs file with
  | error e =>
    rw [hread] at h
    cases h
  | ok s =>
    rw [hread] at h
    cases h
    obtain ⟨d, hd, hs⟩ := readFile_eq_ok hread
    exact .inr ⟨d, s, hd, hs, rfl⟩

theorem isLayer_of_readIfPresent {file : Path} {layers : List Settings}
    (h : readIfPresent fs file = .ok layers) : IsLayer (document? fs file) layers := by
  unfold readIfPresent at h
  split at h
  · exact isLayer_of_readFile h
  · rename_i hmissing
    cases h
    exact .inl ⟨document?_of_not_exists (Bool.eq_false_iff.mpr hmissing), rfl⟩

theorem isLayer_of_readProject {project : ProjectFile} {layers : List Settings}
    (h : readProject fs project = .ok layers) : IsLayer (projectDocument? fs project) layers := by
  cases project with
  | inWorkspace root => exact isLayer_of_readIfPresent h
  | named file => exact isLayer_of_readFile h

theorem isLayer_of_readUser {userDir : Option Path} {layers : List Settings}
    (h : readUser fs userDir = .ok layers) : IsLayer (userDocument? fs userDir) layers := by
  cases userDir with
  | none =>
    cases h
    exact .inl ⟨rfl, rfl⟩
  | some dir => exact isLayer_of_readIfPresent h

/-- What is loaded are the layers of the two files, below the command line. -/
theorem load_eq_apply {userDir : Option Path} {project : ProjectFile} {o : Overrides}
    {s : Settings} (h : load fs userDir project o = .ok s) :
    ∃ lower upper, IsLayer (userDocument? fs userDir) lower ∧
      IsLayer (projectDocument? fs project) upper ∧ s = (stack (lower ++ upper)).apply o := by
  unfold load at h
  cases hproject : readProject fs project with
  | error e =>
    rw [hproject] at h
    cases h
  | ok upper =>
    cases huser : readUser fs userDir with
    | error e =>
      rw [hproject, huser] at h
      cases h
    | ok lower =>
      rw [hproject, huser] at h
      change (((stack (lower ++ upper)).apply o).validate).mapError SettingsError.invalid = .ok s
        at h
      refine ⟨lower, upper, isLayer_of_readUser huser, isLayer_of_readProject hproject, ?_⟩
      cases hvalid : ((stack (lower ++ upper)).apply o).validate with
      | error e =>
        rw [hvalid] at h
        cases h
      | ok t =>
        rw [hvalid] at h
        cases h
        exact ((validate_eq_ok_iff _ _).mp hvalid).1

/-- What is loaded without a command line are the layers of the two files. -/
theorem load_eq_ok {userDir : Option Path} {project : ProjectFile} {s : Settings}
    (h : load fs userDir project {} = .ok s) :
    ∃ lower upper, IsLayer (userDocument? fs userDir) lower ∧
      IsLayer (projectDocument? fs project) upper ∧ s = stack (lower ++ upper) := by
  obtain ⟨lower, upper, hlower, hupper, hs⟩ := load_eq_apply h
  exact ⟨lower, upper, hlower, hupper, hs.trans (apply_none _)⟩

/-- What a layer makes of a value below it. -/
theorem IsLayer.value_foldl {document : Option Value} {layers : List Settings}
    (h : IsLayer document layers) (k : SettingKey) (below : Settings) :
    (document.bind k.written).isSome = (document.bind k.mention?).isSome ∧
      k.value (layers.foldl (fun lower upper => upper.onTopOf lower) below) =
        pickSet k.default (k.value below) ((document.bind k.written).getD k.default) := by
  obtain ⟨rfl, rfl⟩ | ⟨d, s, rfl, hs, rfl⟩ := h
  · exact ⟨rfl, (pickSet_default _ _).symm⟩
  · obtain ⟨hmentions, hvalue⟩ := k.value_of_ofToml? hs
    refine ⟨hmentions, ?_⟩
    rw [List.foldl_cons, List.foldl_nil, k.value_onTopOf, hvalue]
    rfl

/-- **The file on top wins, unless it writes the default over something else.**  What a file
    mentions it writes; if the file of the project writes a default and that of the user something
    else, then what the user wrote is loaded. -/
theorem load_layered {userDir : Option Path} {project : ProjectFile} {s : Settings}
    (h : load fs userDir project {} = .ok s) (k : SettingKey) :
    let user := (userDocument? fs userDir).bind k.written
    let upper := (projectDocument? fs project).bind k.written
    user.isSome = ((userDocument? fs userDir).bind k.mention?).isSome ∧
      upper.isSome = ((projectDocument? fs project).bind k.mention?).isSome ∧
      ((k.value s == (upper <|> user).getD k.default) = true ↔ ¬k.Masked user upper) ∧
      (k.Masked user upper → user = some (k.value s)) := by
  obtain ⟨lower, upper, hlower, hupper, rfl⟩ := load_eq_ok h
  obtain ⟨huser, hbelow⟩ := hlower.value_foldl k {}
  obtain ⟨hproject, habove⟩ := hupper.value_foldl k (stack lower)
  refine ⟨huser, hproject, ?_⟩
  have hstack : stack (lower ++ upper) =
      upper.foldl (fun lower upper => upper.onTopOf lower) (stack lower) := List.foldl_append
  change k.value (stack lower) = _ at hbelow
  rw [hstack, habove, hbelow]
  exact k.pickSet_written _ _

/-- The files of a user and of a project in `/ws`, with these texts. -/
def twoFiles (user project : String) : FileSystem where
  entries := [
    (["home"], .directory), (["home", "config.toml"], .file user.toUTF8 ⟨1000, 0⟩),
    (["ws"], .directory), (["ws", ".cxgraph"], .directory),
    (["ws", ".cxgraph", "config.toml"], .file project.toUTF8 ⟨1000, 0⟩)]

/-- A project that builds preambles later than its user wants. -/
def laterFiles : FileSystem :=
  twoFiles "preamble.build_after = 4\n[logging]\nlevel = \"debug\"\n"
    "[preamble]\nbuild_after = 8\nlanguage = \"c++\"\n"

theorem load_layered_later :
    ∃ s, load laterFiles (some ⟨"/home"⟩) (.inWorkspace ⟨"/ws"⟩) {} = .ok s ∧
      s.preamble.buildAfter = 8 ∧ s.logLevel = "debug" := by
  have hloads : (load laterFiles (some ⟨"/home"⟩) (.inWorkspace ⟨"/ws"⟩) {}).toOption.isSome =
      true := by
    decide +kernel
  cases hs : load laterFiles (some ⟨"/home"⟩) (.inWorkspace ⟨"/ws"⟩) {} with
  | error e =>
    rw [hs] at hloads
    cases hloads
  | ok s =>
    have hafter := load_layered hs .preambleBuildAfter
    have hlevel := load_layered hs .logLevel
    have hproject : (projectDocument? laterFiles (.inWorkspace ⟨"/ws"⟩)).bind
        (SettingKey.written .preambleBuildAfter) = some 8 := by
      decide +kernel
    have hsilent : (projectDocument? laterFiles (.inWorkspace ⟨"/ws"⟩)).bind
        (SettingKey.written .logLevel) = none := by
      decide +kernel
    have huser : (userDocument? laterFiles (some ⟨"/home"⟩)).bind
        (SettingKey.written .logLevel) = some "debug" := by
      decide +kernel
    simp only [hproject] at hafter
    simp only [hsilent, huser] at hlevel
    refine ⟨s, rfl, beq_iff_eq.mp (hafter.2.2.1.mpr ?_), beq_iff_eq.mp (hlevel.2.2.1.mpr ?_)⟩
    · rintro ⟨⟨x, hx, hdefault⟩, _⟩
      cases hx
      revert hdefault
      decide
    · rintro ⟨⟨x, hx, _⟩, _⟩
      cases hx

/-- A project that wants the usual log where its user wants more. -/
def quietFiles : FileSystem :=
  twoFiles "[logging]\nlevel = \"debug\"\n" "[logging]\nlevel = \"info\"\n"

/-- The project asks for the default, and what the user asked for is loaded. -/
theorem load_masked :
    ¬∀ s, load quietFiles (some ⟨"/home"⟩) (.inWorkspace ⟨"/ws"⟩) {} = .ok s →
      some (SettingKey.logLevel.value s) =
        (projectDocument? quietFiles (.inWorkspace ⟨"/ws"⟩)).bind
          (SettingKey.written .logLevel) := by
  intro hwins
  have hloaded : (load quietFiles (some ⟨"/home"⟩) (.inWorkspace ⟨"/ws"⟩) {}).toOption.map
      (·.logLevel) = some "debug" := by
    decide +kernel
  have hproject : (projectDocument? quietFiles (.inWorkspace ⟨"/ws"⟩)).bind
      (SettingKey.written .logLevel) = some "info" := by
    decide +kernel
  cases hs : load quietFiles (some ⟨"/home"⟩) (.inWorkspace ⟨"/ws"⟩) {} with
  | error e =>
    rw [hs] at hloaded
    cases hloaded
  | ok s =>
    rw [hs] at hloaded
    have hdebug : s.logLevel = "debug" := Option.some.inj hloaded
    have hlevel := hwins s hs
    rw [hproject] at hlevel
    have hinfo : s.logLevel = "info" := Option.some.inj hlevel
    rw [hdebug] at hinfo
    revert hinfo
    decide

end Settings

end SymbolAtlas
