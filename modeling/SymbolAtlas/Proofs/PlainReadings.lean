import SymbolAtlas.Proofs.HeaderCache
import SymbolAtlas.Proofs.JobEffects
import SymbolAtlas.Proofs.LoweredTrees
import SymbolAtlas.Proofs.UnitSpellings

/-!
# Jobs as plain readings tell

With the syntax frontend a job may take its unit from a preamble, from cached headers, or after a
preamble that failed it.  Nothing of that is left in the graph, nor in what is remembered: both are
as a reading of the file without a preamble tells.

* `Indexer.Sight` — what a plain reading of a job sees.
* `Indexer.Sight.settle` — what a job makes of the graph and of what is remembered, by its sight.

Principal result: `Indexer.runJob_settles` — every job does what its sight tells.
-/

set_option autoImplicit false

namespace SymbolAtlas

namespace SyntaxFrontend

variable {grammar : Grammar}

/-- What a reading of a job without a preamble gives. -/
def plainAnswer (grammar : Grammar) (files : FileSystem) (job : SourceJob) :
    Except FrontendError TranslationUnit :=
  (parse grammar job.file job.options.optionList { files, state := {} }).1

/-- The options of a job ask for no preamble, and for no value that is missing. -/
structure PlainOptions (args : List String) : Prop where
  plain : preambleFlag ∉ args
  complete : ParseOptions.Complete args = true

theorem parse_plain {job : SourceJob} (h : PlainOptions job.options.optionList) (w : World State) :
    parse grammar job.file job.options.optionList w = (plainAnswer grammar w.files job, w) := by
  have hpreamble : (ParseOptions.ofList job.options.optionList).preamble = none :=
    ParseOptions.preamble_readFrom {} _ h.plain
  refine Prod.ext ?_ (parse_state_of_no_preamble grammar _ _ w hpreamble)
  have hparseIn : ∀ language, (parseIn grammar w.files w.state job.file
      (ParseOptions.ofList job.options.optionList) language).1 =
      (parseIn grammar w.files {} job.file
        (ParseOptions.ofList job.options.optionList) language).1 := fun language => by
    unfold parseIn
    simp only [hpreamble]
    cases readSource grammar w.files (w.files.canonicalPath job.file) language with
    | error e => rfl
    | ok read => rfl
  rw [plainAnswer, result_parse, result_parse]
  simp only [hparseIn]

/-- The unit of a parse is plain. -/
theorem plain_of_parse {file : Path} {options : List String} {w : World State}
    {u : TranslationUnit} (h : (parse grammar file options w).1 = .ok u) : u.Plain := by
  rw [result_parse] at h
  split at h
  · cases h
  · unfold parseIn at h
    simp only at h
    split at h
    · cases h
    · split at h
      · cases h
      · cases h
        exact TranslationUnit.plain_ofSource _ _

/-- A parse with a preamble gives no unit, or the unit of a plain reading but for the spelling of
    files. -/
theorem parse_artifact {moments : FileSystem → Prop} (hstamped : FileSystem.Stamped moments)
    {w : World State} (hw : moments w.files) (hread : w.state.ReadAt grammar moments)
    {job : SourceJob} (h : PlainOptions job.options.optionList) (artifact : Path) :
    (∃ e, (parse grammar job.file (job.options.optionList ++ [preambleFlag, artifact.text]) w).1
        = .error e) ∨
      ∃ u v, plainAnswer grammar w.files job = .ok u ∧ u.Respells v ∧
        (parse grammar job.file (job.options.optionList ++ [preambleFlag, artifact.text]) w).1
          = .ok v := by
  have hagrees := (parse_agrees hstamped hw hread job.file h.plain h.complete artifact).2
  rw [parse_plain h] at hagrees
  obtain ⟨text, herror⟩ | hsame := hagrees
  · exact .inl ⟨_, herror⟩
  · generalize (parse grammar job.file _ w).1 = cached at hsame ⊢
    generalize plainAnswer grammar w.files job = plain at hsame ⊢
    cases hsame with
    | error e => exact .inl ⟨e, rfl⟩
    | unit huv => exact .inr ⟨_, _, rfl, huv, rfl⟩

end SyntaxFrontend

namespace Indexer

open SyntaxFrontend (State plainAnswer PlainOptions frontend)

/-! ## Sights -/

/-- What a plain reading of a job sees: which file it is, when that was modified, and its unit where
    it stands. -/
structure Sight where
  key : Path
  modified : Except FileError Stamp
  answer : Except FrontendError LocatedUnit

/-- What a job sees in some files. -/
def sight (grammar : Grammar) (files : FileSystem) (job : SourceJob) : Sight where
  key := files.canonicalPath job.file
  modified := files.modified job.file
  answer := (plainAnswer grammar files job).map (.ofUnit files)

namespace Sight

/-- The file was remembered with the options of the job, at the time when it was modified. -/
def upToDate (s : Sight) (job : SourceJob) (registry : List (Path × FileRecord)) : Bool :=
  match (registry.find? (·.1 == s.key)).map (·.2), s.modified with
  | some r, .ok stamp => r.modified == stamp && r.options == job.options.optionList
  | _, _ => false

/-- The effect of the job, if there is a file with a unit. -/
def effect? (s : Sight) (job : SourceJob) : Option Effect :=
  match s.modified, s.answer with
  | .ok modified, .ok unit => some {
      unit, key := s.key
      record := {
        modified, options := job.options.optionList
        dependencies := unit.unit.inclusions.map (·.path) } }
  | _, _ => none

/-- What the job makes of the graph and of what is remembered. -/
def settle (s : Sight) (force : Bool) (job : SourceJob)
    (kept : SymbolGraph × List (Path × FileRecord)) : SymbolGraph × List (Path × FileRecord) :=
  if !force && s.upToDate job kept.2 then kept else (s.effect? job).toList.foldl Effect.apply kept

end Sight

/-! ## Attempts -/

variable {grammar : Grammar}

/-- An attempt leaves everything but the notices and the cache. -/
structure Attempted (ix ix' : Indexer State) : Prop where
  spares : Spares ix ix'
  files : ix'.world.files = ix.world.files

/-- An attempt gives nothing where a plain reading gives nothing, and otherwise what it gives is a
    unit but for the spelling of files.  With a preamble it may be rejected. -/
inductive AttemptEnds (grammar : Grammar) (ix : Indexer State) (job : SourceJob)
    (mayFail : Prop) : ParseResult × Indexer State → Prop where
  | ended {e : FileError} (hmodified : ix.world.files.modified job.file = .error e) :
      AttemptEnds grammar ix job mayFail (.ended (.io job.file e), ix)
  | rejected {ix' : Indexer State} (hattempted : Attempted ix ix')
      (hwhy : mayFail ∨ ∃ e, plainAnswer grammar ix.world.files job = .error e) :
      AttemptEnds grammar ix job mayFail (.rejected, ix')
  | parsed {ix' : Indexer State} {stamp : Stamp} {u v : TranslationUnit}
      (hattempted : Attempted ix ix') (hmodified : ix.world.files.modified job.file = .ok stamp)
      (hplain : plainAnswer grammar ix.world.files job = .ok u) (hspelled : u.Respells v) :
      AttemptEnds grammar ix job mayFail (.parsed v stamp, ix')

theorem parseOnce_ends {ix : Indexer State} {job : SourceJob} {options : List String}
    {attempt : Attempt} {mayFail : Prop}
    (herror : ∀ e, (SyntaxFrontend.parse grammar job.file options ix.world).1 = .error e →
      mayFail ∨ ∃ e, plainAnswer grammar ix.world.files job = .error e)
    (hunit : ∀ v, (SyntaxFrontend.parse grammar job.file options ix.world).1 = .ok v →
      ∃ u, plainAnswer grammar ix.world.files job = .ok u ∧ u.Respells v) :
    AttemptEnds grammar ix job mayFail
      (ix.parseOnce (frontend grammar) job attempt options) := by
  have hfiles := SyntaxFrontend.files_parse grammar job.file options ix.world
  unfold parseOnce
  cases hmodified : ix.world.files.modified job.file with
  | error e => exact .ended hmodified
  | ok before =>
    have hparse : (frontend grammar).parse = SyntaxFrontend.parse grammar := rfl
    dsimp only
    rw [hparse]
    generalize SyntaxFrontend.parse grammar job.file options ix.world = done
      at hfiles herror hunit ⊢
    obtain ⟨result, w⟩ := done
    cases result with
    | error e => exact .rejected ⟨⟨rfl, rfl, rfl⟩, hfiles⟩ (herror e rfl)
    | ok v =>
      obtain ⟨u, hplain, hspelled⟩ := hunit v rfl
      dsimp only at hfiles ⊢
      rw [hfiles, hmodified]
      dsimp only
      rw [if_pos rfl]
      exact .parsed ⟨⟨rfl, rfl, rfl⟩, hfiles⟩ hmodified hplain hspelled

/-- Without a preamble. -/
theorem parseOnce_plain {ix : Indexer State} {job : SourceJob}
    (h : PlainOptions job.options.optionList) (attempt : Attempt) :
    AttemptEnds grammar ix job False
      (ix.parseOnce (frontend grammar) job attempt job.options.optionList) := by
  refine parseOnce_ends (fun e he => .inr ⟨e, ?_⟩) fun v hv => ⟨v, ?_, .refl v⟩
  · rwa [SyntaxFrontend.parse_plain h] at he
  · rwa [SyntaxFrontend.parse_plain h] at hv

/-- With a preamble. -/
theorem parseOnce_artifact {moments : FileSystem → Prop} (hstamped : FileSystem.Stamped moments)
    {ix : Indexer State} (hmoment : moments ix.world.files)
    (hread : ix.world.state.ReadAt grammar moments) {job : SourceJob}
    (h : PlainOptions job.options.optionList) (attempt : Attempt) (artifact : Path) :
    AttemptEnds grammar ix job True
      (ix.parseOnce (frontend grammar) job attempt
        (job.options.optionList ++ [preambleFlag, artifact.text])) := by
  refine parseOnce_ends (fun _ _ => .inl trivial) fun v hv => ?_
  obtain ⟨e, herror⟩ | ⟨u, v', hplain, hspelled, hv'⟩ :=
    SyntaxFrontend.parse_artifact hstamped hmoment hread h artifact
  · rw [herror] at hv
    cases hv
  · rw [hv'] at hv
    cases hv
    exact ⟨u, hplain, hspelled⟩

/-! ## Tasks -/

/-- A task fails where a plain reading sees no unit, and then it leaves what is kept alone;
    otherwise it adds the unit, and reports it. -/
inductive TaskEnds (grammar : Grammar) (ix : Indexer State) (job : SourceJob) :
    Except IndexError FileReport × Indexer State → Prop where
  | failed {e : IndexError} {ix' : Indexer State} (hspares : Spares ix ix')
      (hwhy : (∃ e, ix.world.files.modified job.file = .error e) ∨
        ∃ e, plainAnswer grammar ix.world.files job = .error e) :
      TaskEnds grammar ix job (.error e, ix')
  | indexed {report : FileReport} {ix' : Indexer State} {u : TranslationUnit}
      (hmodified : ix.world.files.modified job.file = .ok report.modified)
      (hplain : plainAnswer grammar ix.world.files job = .ok u)
      (hdependencies : report.dependencies = u.inclusions.map (·.path))
      (hgraph : ix'.graph =
        (SymbolGraph.Operation.index (.ofUnit ix'.world.files u)).apply ix.graph)
      (hregistry : ix'.registry = ix.registry) :
      TaskEnds grammar ix job (.ok report, ix')

/-- Taking a unit in adds the unit of a plain reading to the graph. -/
theorem takeIn_ends {ix : Indexer State} {job : SourceJob} {stamp : Stamp}
    {u v : TranslationUnit} (hmodified : ix.world.files.modified job.file = .ok stamp)
    (hplain : plainAnswer grammar ix.world.files job = .ok u) (hspelled : u.Respells v)
    (usesPreambles : Bool) (attempt : Attempt) :
    TaskEnds grammar ix job
      (ix.takeIn (frontend grammar) job usesPreambles attempt v stamp) := by
  have hcollected := (spares_contribute (F := frontend grammar) ix job.options.optionList
    v.inclusions).ite (usesPreambles = true)
  unfold takeIn
  generalize (if usesPreambles = true then _ else ix) = mid at hcollected ⊢
  -- The tree of a lowered unit is always rebuilt, and it is the tree of the other spelling.
  have hlocated := LocatedUnit.respells_ofUnit mid.world.files hspelled
  obtain ⟨tree, htree⟩ : ∃ tree,
      CursorTree.reconstruct (LocatedUnit.ofUnit mid.world.files u) = .ok tree :=
    CursorTree.reconstruct_total ((SyntaxFrontend.plain_of_parse hplain).reportsParents _)
  dsimp only
  rw [CursorTree.reconstruct_respelled hlocated htree]
  dsimp only
  have hshown := (spares_tell mid (.cursorTree job.file
    (tree.dump (.ofUnit mid.world.files v)))).ite (mid.config.wantsDump job.file = true)
  have hfiles : (if mid.config.wantsDump job.file = true then mid.tell (.cursorTree job.file
      (tree.dump (.ofUnit mid.world.files v))) else mid).world.files = mid.world.files := by
    split
    · rfl
    · rfl
  generalize (if mid.config.wantsDump job.file = true then _ else mid) = shown at hshown hfiles ⊢
  obtain ⟨told, htold⟩ := foldl_tell
    (indexTree (.ofUnit mid.world.files v) tree shown.graph).1.notices
    { shown with graph := (indexTree (.ofUnit mid.world.files v) tree shown.graph).2 }
  rw [htold]
  have hdependencies : v.inclusions.map (·.path) = u.inclusions.map (·.path) := by
    rw [hspelled.inclusions]
  refine .indexed hmodified hplain hdependencies ?_ ((hcollected.trans hshown).registry)
  show (indexTree (.ofUnit mid.world.files v) tree shown.graph).2 =
    (SymbolGraph.Operation.index (.ofUnit shown.world.files u)).apply ix.graph
  rw [hfiles, hlocated.indexTree, (hcollected.trans hshown).graph, SymbolGraph.Operation.apply,
    indexUnit, indexUnitInto, htree]
  rfl

theorem TaskEnds.after {ix mid : Indexer State} {job : SourceJob}
    {done : Except IndexError FileReport × Indexer State} (hspares : Spares ix mid)
    (hfiles : mid.world.files = ix.world.files) (h : TaskEnds grammar mid job done) :
    TaskEnds grammar ix job done := by
  cases h with
  | failed hs hwhy =>
    rw [hfiles] at hwhy
    exact .failed (hspares.trans hs) hwhy
  | indexed hmodified hplain hdependencies hgraph hregistry =>
    rw [hfiles] at hmodified hplain
    rw [hspares.graph] at hgraph
    exact .indexed hmodified hplain hdependencies hgraph (hregistry.trans hspares.registry)

theorem runPlain_ends (ix : Indexer State) {job : SourceJob}
    (h : PlainOptions job.options.optionList) (usesPreambles : Bool) :
    TaskEnds grammar ix job (ix.runPlain (frontend grammar) job usesPreambles) := by
  have hends : AttemptEnds grammar ix job False _ := parseOnce_plain h .withoutPreamble
  unfold runPlain
  dsimp only
  generalize ix.parseOnce (frontend grammar) job .withoutPreamble _ = done at hends ⊢
  cases hends with
  | ended hmodified => exact .failed (.refl ix) (.inl ⟨_, hmodified⟩)
  | rejected hattempted hwhy =>
    exact .failed hattempted.spares (.inr (hwhy.resolve_left id))
  | parsed hattempted hmodified hplain hspelled =>
    rw [← hattempted.files] at hmodified hplain
    exact .after hattempted.spares hattempted.files
      (takeIn_ends hmodified hplain hspelled usesPreambles .withoutPreamble)

/-- A task does as a plain reading tells. -/
theorem runTask_ends {moments : FileSystem → Prop} (hstamped : FileSystem.Stamped moments)
    {ix : Indexer State} (hmoment : moments ix.world.files)
    (hread : ix.world.state.ReadAt grammar moments) {job : SourceJob}
    (h : PlainOptions job.options.optionList) :
    TaskEnds grammar ix job (ix.runTask (frontend grammar) job) := by
  unfold runTask
  dsimp only
  split
  · cases hget : ix.preambles.get job.options.optionList with
    | mk entry preambles =>
      dsimp only
      have hasked : Spares ix { ix with preambles } := ⟨rfl, rfl, rfl⟩
      refine .after hasked rfl ?_
      split
      · exact runPlain_ends _ h true
      · rename_i artifact _
        have hends := @parseOnce_artifact _ _ hstamped { ix with preambles } hmoment hread _ h
          .withPreamble artifact
        generalize parseOnce (frontend grammar) { ix with preambles } job .withPreamble _ = done
          at hends ⊢
        cases hends with
        | ended hmodified => exact .failed (.refl _) (.inl ⟨_, hmodified⟩)
        | rejected hattempted _ =>
          exact .after hattempted.spares hattempted.files (runPlain_ends _ h true)
        | parsed hattempted hmodified hplain hspelled =>
          rw [← hattempted.files] at hmodified hplain
          exact .after hattempted.spares hattempted.files
            (takeIn_ends hmodified hplain hspelled true .withPreamble)
  · exact runPlain_ends ix h false

/-! ## Jobs -/

/-- **Every job does what its sight tells**, if it sees the same before and after it. -/
theorem runJob_settles {moments : FileSystem → Prop} (hstamped : FileSystem.Stamped moments)
    {ix : Indexer State} (hmoment : moments ix.world.files)
    (hread : ix.world.state.ReadAt grammar moments) (force : Bool) {job : SourceJob}
    (h : PlainOptions job.options.optionList)
    (hsight : sight grammar (ix.runJob (frontend grammar) force job).2.world.files job =
      sight grammar ix.world.files job) :
    (ix.runJob (frontend grammar) force job).2.kept =
      (sight grammar ix.world.files job).settle force job ix.kept := by
  have hends := runTask_ends hstamped hmoment hread h
  have hknown : ix.isUpToDate (ix.world.files.canonicalPath job.file) job.file
      job.options.optionList = (sight grammar ix.world.files job).upToDate job ix.kept.2 := rfl
  unfold Sight.settle
  unfold runJob at hsight ⊢
  simp only [hknown] at hsight ⊢
  split
  · rfl
  · rename_i hdue
    rw [if_neg hdue] at hsight
    generalize ix.runTask (frontend grammar) job = done at hends hsight ⊢
    cases hends with
    | @failed e ix' hspares hwhy =>
      have hnone : (sight grammar ix.world.files job).effect? job = none := by
        obtain ⟨e, hmodified⟩ | ⟨e, hplain⟩ := hwhy
        · rw [Sight.effect?, sight, hmodified]
        · rw [Sight.effect?, sight, hplain]
          split
          · rename_i hanswer
            cases hanswer
          · rfl
      rw [hnone]
      dsimp only
      split
      · exact Prod.ext hspares.graph hspares.registry
      · exact Prod.ext hspares.graph hspares.registry
    | @indexed report ix' u hmodified hplain hdependencies hgraph hregistry =>
      -- The unit was located in the files that the job left, where it sees what it saw before.
      have hlocated : LocatedUnit.ofUnit ix'.world.files u =
          LocatedUnit.ofUnit ix.world.files u := by
        have hanswer : (plainAnswer grammar ix'.world.files job).map
            (LocatedUnit.ofUnit ix'.world.files) =
              .ok (LocatedUnit.ofUnit ix.world.files u) := by
          have hsame := congrArg Sight.answer hsight
          simp only [sight, hplain] at hsame
          exact hsame
        cases hnow : plainAnswer grammar ix'.world.files job with
        | error e =>
          rw [hnow] at hanswer
          cases hanswer
        | ok u' =>
          rw [hnow] at hanswer
          have hunits := Except.ok.inj hanswer
          obtain rfl : u' = u := congrArg LocatedUnit.unit hunits
          exact hunits
      have heffect : (sight grammar ix.world.files job).effect? job = some {
          unit := .ofUnit ix.world.files u
          key := ix.world.files.canonicalPath job.file
          record := {
            modified := report.modified, options := job.options.optionList
            dependencies := report.dependencies } } := by
        rw [Sight.effect?, sight, hmodified, hplain, hdependencies]
        rfl
      rw [heffect, Option.toList_some, List.foldl_cons, List.foldl_nil, Effect.apply, kept, kept]
      refine Prod.ext ?_ ?_
      · show ix'.graph = _
        rw [hgraph, hlocated]
      · show ix'.registry.filter _ ++ _ = _
        rw [hregistry]

end Indexer

end SymbolAtlas
