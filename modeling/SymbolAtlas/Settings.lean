import SymbolAtlas.Path
import SymbolAtlas.Text.Lowercase

/-!
# Settings

What a user can set: which sources are analysed and with which options, how preambles are made,
what is shown for diagnosis, and how much is logged.  Settings come in layers.  A layer that lies on
top of another replaces its single values and adds to its lists; what it leaves at the default shows
the layer below.

Main facts: a list that is added to keeps each entry once, where it came first
(`appendNew_eraseDups`), a default shows the layer below (`pickSet_default`), a command line that
sets nothing changes nothing (`Settings.apply_none`), and accepted settings name a known preamble
language and build after at least one parse (`Settings.validate_eq_ok_iff`), as the defaults do.
-/

set_option autoImplicit false

namespace SymbolAtlas

/-- Which sources are analysed, and how they are compiled. -/
structure AnalysisSettings where
  /-- Number of workers; zero stands for one per processor. -/
  parallelism : Nat := 0
  includePaths : List Path := []
  defines : List String := []
  excludePatterns : List String := ["**/.git/**", "**/build/**", "**/target/**", "**/.cxgraph/**"]
  /-- Options that follow all others. -/
  extraArgs : List String := []
deriving Inhabited

/-- How preambles are made. -/
structure PreambleSettings where
  enabled : Bool := true
  /-- The language whose files use preambles, as a user names it. -/
  language : String := "c++"
  /-- Where artifacts are kept; a relative path starts at the workspace. -/
  directory : Path := ⟨".cxgraph/preambles"⟩
  /-- How many parses contribute headers before a preamble is built. -/
  buildAfter : Nat := 2
deriving Inhabited

/-- All settings. -/
structure Settings where
  analysis : AnalysisSettings := {}
  preamble : PreambleSettings := {}
  /-- Which cursor trees are shown: all for `1`, else those of files whose name ends so. -/
  dumpTree : Option String := none
  logLevel : String := "info"
deriving Inhabited

/-- What a command line sets, on top of all layers. -/
structure Overrides where
  logLevel : Option String := none
  parallelism : Option Nat := none
  noPreamble : Bool := false
  dumpTree : Option String := none
  includePaths : List Path := []
  defines : List String := []
deriving Inhabited

/-- Appends, one after the other, the entries that are not there yet. -/
def appendNew {α : Type} [BEq α] (target extra : List α) : List α :=
  extra.foldl (fun kept x => if kept.contains x then kept else kept ++ [x]) target

theorem appendNew_eq {α : Type} [BEq α] [EquivBEq α] (target extra : List α) :
    appendNew target extra = target ++ (extra.filter fun x => !target.contains x).eraseDups := by
  induction extra generalizing target with
  | nil => exact (List.append_nil target).symm
  | cons x extra ih =>
    show appendNew (if target.contains x then target else target ++ [x]) extra = _
    rw [ih]
    cases hx : target.contains x with
    | true => rw [if_pos rfl, List.filter_cons_of_neg (by rw [hx]; decide)]
    | false =>
      have hnew : ∀ y, (!(target ++ [x]).contains y) = ((!y == x) && !target.contains y) :=
        fun y => by
          rw [List.contains_append, List.contains_cons, List.contains_nil, Bool.or_false,
            Bool.not_or, Bool.and_comm]
      rw [if_neg Bool.false_ne_true, List.filter_cons_of_pos (by rw [hx]; rfl),
        List.eraseDups_cons, List.filter_filter, List.append_assoc, funext hnew]
      rfl

/-- Appending to the entries of one list keeps each entry of both lists once, where it came
    first. -/
theorem appendNew_eraseDups {α : Type} [BEq α] [EquivBEq α] (xs ys : List α) :
    appendNew xs.eraseDups ys = (xs ++ ys).eraseDups := by
  have hnone : ∀ l : List α, appendNew [] l = l.eraseDups := fun l => by
    rw [appendNew_eq, List.nil_append]
    exact congrArg _ (List.filter_eq_self.mpr fun _ _ => rfl)
  rw [← hnone xs, ← hnone (xs ++ ys), appendNew, appendNew, appendNew, List.foldl_append]

/-- The upper value unless it is the default. -/
def pickSet {α : Type} [BEq α] (default lower upper : α) : α :=
  if upper == default then lower else upper

theorem pickSet_default {α : Type} [BEq α] [ReflBEq α] (d lower : α) :
    pickSet d lower d = lower := by
  simp [pickSet]

/-- The upper layer on top of the lower one. -/
def AnalysisSettings.onTopOf (upper lower : AnalysisSettings) : AnalysisSettings where
  parallelism := pickSet 0 lower.parallelism upper.parallelism
  includePaths := appendNew lower.includePaths upper.includePaths
  defines := appendNew lower.defines upper.defines
  excludePatterns := appendNew lower.excludePatterns upper.excludePatterns
  extraArgs := appendNew lower.extraArgs upper.extraArgs

/-- The upper layer on top of the lower one; preambles are made only if both make them. -/
def PreambleSettings.onTopOf (upper lower : PreambleSettings) : PreambleSettings :=
  let default : PreambleSettings := {}
  { enabled := lower.enabled && upper.enabled
    language := pickSet default.language lower.language upper.language
    directory := pickSet default.directory lower.directory upper.directory
    buildAfter := pickSet default.buildAfter lower.buildAfter upper.buildAfter }

/-- Why settings are not accepted. -/
inductive InvalidSetting where
  | preambleLanguage (text : String)
  | preambleBuildAfter
deriving DecidableEq, Repr

namespace InvalidSetting

/-- The setting that is at fault. -/
def key : InvalidSetting → String
  | .preambleLanguage _ => "preamble.language"
  | .preambleBuildAfter => "preamble.build_after"

/-- What is wrong with it. -/
def reason : InvalidSetting → String
  | .preambleLanguage text => s!"unknown language '{text}' (expected c or c++)"
  | .preambleBuildAfter => "must be at least 1"

/-- The wording of an unacceptable setting. -/
def message (e : InvalidSetting) : String := s!"bad value for '{e.key}': {e.reason}"

end InvalidSetting

namespace Settings

/-- The upper layer on top of the lower one. -/
def onTopOf (upper lower : Settings) : Settings where
  analysis := upper.analysis.onTopOf lower.analysis
  preamble := upper.preamble.onTopOf lower.preamble
  dumpTree := upper.dumpTree <|> lower.dumpTree
  logLevel := pickSet "info" lower.logLevel upper.logLevel

/-- Layers from the lowest to the highest, on top of the defaults. -/
def stack (layers : List Settings) : Settings :=
  layers.foldl (fun lower upper => upper.onTopOf lower) {}

/-- The settings that a command line leaves. -/
def apply (s : Settings) (o : Overrides) : Settings where
  analysis :=
    { s.analysis with
      parallelism := o.parallelism.getD s.analysis.parallelism
      includePaths := appendNew s.analysis.includePaths o.includePaths
      defines := appendNew s.analysis.defines o.defines }
  preamble := { s.preamble with enabled := s.preamble.enabled && !o.noPreamble }
  dumpTree := o.dumpTree <|> s.dumpTree
  logLevel := o.logLevel.getD s.logLevel

/-- The languages that preambles are made for, as a user names them. -/
def preambleLanguages : List String := ["c", "c++", "cpp", "cxx"]

/-- Accepts settings that an indexer can work with. -/
def validate (s : Settings) : Except InvalidSetting Settings :=
  if !preambleLanguages.contains (Text.lowercase s.preamble.language) then
    .error (.preambleLanguage s.preamble.language)
  else if s.preamble.buildAfter = 0 then .error .preambleBuildAfter
  else .ok s

/-- Where artifacts of a workspace are kept. -/
def preambleDir (s : Settings) (workspace : Path) : Path := workspace.join s.preamble.directory

/-- The include paths of a workspace. -/
def includePaths (s : Settings) (workspace : Path) : List Path :=
  s.analysis.includePaths.map workspace.join

/-! ### Facts -/

theorem validate_eq_ok_iff (s t : Settings) :
    s.validate = .ok t ↔
      t = s ∧ Text.lowercase s.preamble.language ∈ preambleLanguages ∧
        s.preamble.buildAfter ≠ 0 := by
  unfold validate
  split
  · rename_i h
    simp only [Bool.not_eq_true', List.contains_eq_mem, decide_eq_false_iff_not] at h
    simp [h]
  · rename_i h
    simp only [Bool.not_eq_true', List.contains_eq_mem, decide_eq_false_iff_not,
      Decidable.not_not] at h
    split
    · rename_i h₀
      simp [h₀]
    · rename_i h₀
      simp only [Except.ok.injEq, ne_eq, h, h₀, not_false_eq_true, and_self, and_true]
      exact eq_comm

theorem apply_none (s : Settings) : s.apply {} = s := by
  simp [apply, appendNew]

theorem validate_default : ({} : Settings).validate = .ok {} := by
  rw [validate_eq_ok_iff]
  refine ⟨rfl, ?_, by decide⟩
  have h : Text.lowercase "c++" = "c++" := by decide +kernel
  show Text.lowercase "c++" ∈ preambleLanguages
  rw [h]
  decide

end Settings

end SymbolAtlas
