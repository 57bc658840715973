import Mathlib.Data.List.Nodup
import SymbolAtlas.Session
import SymbolAtlas.Proofs.LocationOrder
import SymbolAtlas.Proofs.WalkedFiles

/-!
# Jobs and the files they name

Sources are sorted and each spelling is kept once; only then does a job name the canonical path of
its source.  So a file has two jobs if the inputs lead to it by two spellings.  What a walk finds is
spelled as the directory followed by the names of the way down, so it is the spellings of the inputs
that decide: two of them that share a source give it one job exactly if the inner one is spelled as
the outer one followed by the names between the two.

* `DiscoveryConfig.Finds`, `DiscoveryConfig.Overlap` — a source of an input, and inputs that share
  one.
* `FileSystem.Continues` — an input that lies inside another is spelled as a walk would spell it.

Principal results: `nodup_map_sortDedupPaths` — what comes up once when each path is kept once;
`Session.exists_files_jobs` — jobs name the canonical paths of the sources, and which of them come
up twice; `Session.jobs_singleton`, `Session.jobs_of_canonical` — inputs that give every file one
job; `Session.jobs_apart` — no two jobs name one file exactly if inputs that share a source continue
each other.
-/

set_option autoImplicit false

namespace SymbolAtlas

open Std (LawfulEqCmp OrientedCmp TransCmp)

/-! ## The order of paths -/

instance : LawfulEqCmp Part.compare where
  compare_self {a} := by
    cases a with
    | name a => exact Std.ReflOrd.compare_self
    | _ => rfl
  eq_of_compare {a b} h := by
    cases a with
    | name a =>
      cases b with
      | name b => exact congrArg Part.name (Std.LawfulEqOrd.eq_of_compare h)
      | _ => cases h
    | _ =>
      cases b with
      | name b => cases h
      | _ => first | rfl | cases h

namespace Path

/-- Paths that are not in an order have the same components. -/
theorem parts_of_compare {a b : Path} (h : a.compare b = .eq) : a.parts = b.parts := by
  rw [compare, compareParts_eq] at h
  exact LawfulEqCmp.eq_of_compare h

theorem le_total (a b : Path) : (a.le b || b.le a) = true := by
  have hswap : a.compare b = (b.compare a).swap := OrientedCmp.eq_swap
  unfold le
  rw [hswap]
  cases b.compare a <;> rfl

theorem le_trans {a b c : Path} (hab : a.le b = true) (hbc : b.le c = true) : a.le c = true :=
  TransCmp.isLE_trans hab hbc

theorem parts_of_le {a b : Path} (hab : a.le b = true) (hba : b.le a = true) :
    a.parts = b.parts := by
  have hswap : a.compare b = (b.compare a).swap := OrientedCmp.eq_swap
  unfold le at hab hba
  rw [hswap] at hab
  refine (parts_of_compare ?_).symm
  cases h : b.compare a with
  | eq => rfl
  | lt =>
    rw [h] at hab
    cases hab
  | gt =>
    rw [h] at hba
    cases hba

end Path

/-! ## Sources that are kept once -/

theorem mem_of_mem_dedupPaths {ps : List Path} {p : Path} (h : p ∈ dedupPaths ps) : p ∈ ps := by
  fun_induction dedupPaths ps with
  | case1 a b rest hsame ih =>
    rcases List.mem_cons.mp (ih h) with rfl | hrest
    · exact List.mem_cons_self
    · exact .tail _ (.tail _ hrest)
  | case2 a b rest hsame ih =>
    rcases List.mem_cons.mp h with rfl | hrest
    · exact List.mem_cons_self
    · exact .tail _ (ih hrest)
  | case3 ps hshort => exact h

/-- Of every path one with the same components is kept. -/
theorem exists_mem_dedupPaths (ps : List Path) :
    ∀ p ∈ ps, ∃ q ∈ dedupPaths ps, q.parts = p.parts := by
  fun_induction dedupPaths ps with
  | case1 a b rest hsame ih =>
    intro p hp
    rcases List.mem_cons.mp hp with rfl | hp
    · exact ih p List.mem_cons_self
    rcases List.mem_cons.mp hp with rfl | hp
    · obtain ⟨q, hq, hparts⟩ := ih a List.mem_cons_self
      exact ⟨q, hq, hparts.trans ((Path.beq_iff_parts _ _).mp hsame)⟩
    · exact ih p (.tail a hp)
  | case2 a b rest hsame ih =>
    intro p hp
    rcases List.mem_cons.mp hp with rfl | hp
    · exact ⟨p, List.mem_cons_self, rfl⟩
    · obtain ⟨q, hq, hparts⟩ := ih p hp
      exact ⟨q, .tail a hq, hparts⟩
  | case3 ps hshort => exact fun p hp => ⟨p, hp, rfl⟩

/-- In a sorted list the paths with the same components stand together, so one of them is kept. -/
theorem pairwise_dedupPaths {ps : List Path} (h : ps.Pairwise fun p q => p.le q = true) :
    (dedupPaths ps).Pairwise fun p q => p.parts ≠ q.parts := by
  fun_induction dedupPaths ps with
  | case1 a b rest hsame ih => exact ih (h.sublist (.cons_cons a (.cons b (.refl rest))))
  | case2 a b rest hsame ih =>
    have hrest := List.pairwise_cons.mp h
    refine List.pairwise_cons.mpr ⟨fun q hq hparts => ?_, ih hrest.2⟩
    have hab : a.le b = true := hrest.1 b List.mem_cons_self
    have hbq : b.le q = true := by
      rcases List.mem_cons.mp (mem_of_mem_dedupPaths hq) with rfl | hq
      · simpa using Path.le_total q q
      · exact (List.pairwise_cons.mp hrest.2).1 q hq
    have hba : b.le a = true := by
      rwa [Path.le, Path.compare, hparts]
    exact hsame ((Path.beq_iff_parts a b).mpr (Path.parts_of_le hab hba))
  | case3 ps hshort =>
    match ps, hshort with
    | [], _ => exact .nil
    | [p], _ => exact List.pairwise_singleton _ p
    | a :: b :: rest, hshort => exact (hshort a b rest rfl).elim

theorem mem_of_mem_sortDedupPaths {ps : List Path} {p : Path} (h : p ∈ sortDedupPaths ps) :
    p ∈ ps :=
  List.mem_mergeSort.mp (mem_of_mem_dedupPaths h)

theorem exists_mem_sortDedupPaths {ps : List Path} {p : Path} (h : p ∈ ps) :
    ∃ q ∈ sortDedupPaths ps, q.parts = p.parts :=
  exists_mem_dedupPaths _ p (List.mem_mergeSort.mpr h)

theorem pairwise_sortDedupPaths (ps : List Path) :
    (sortDedupPaths ps).Pairwise fun p q => p.parts ≠ q.parts := by
  have hsorted : (ps.mergeSort Path.le).Pairwise fun p q => p.le q = true :=
    List.pairwise_mergeSort (fun a b c => @Path.le_trans a b c) Path.le_total ps
  exact pairwise_dedupPaths hsorted

section Kept

variable {β : Type} {ps : List Path} {k : Path → β}

/-- What does not depend on the spelling of a path is not lost when each path is kept once. -/
theorem mem_map_sortDedupPaths (hk : ∀ p ∈ ps, ∀ q ∈ ps, p.parts = q.parts → k p = k q) (b : β) :
    b ∈ (sortDedupPaths ps).map k ↔ ∃ p ∈ ps, k p = b := by
  rw [List.mem_map]
  constructor
  · rintro ⟨p, hp, hb⟩
    exact ⟨p, mem_of_mem_sortDedupPaths hp, hb⟩
  · rintro ⟨p, hp, hb⟩
    obtain ⟨q, hq, hparts⟩ := exists_mem_sortDedupPaths hp
    exact ⟨q, hq, (hk q (mem_of_mem_sortDedupPaths hq) p hp hparts).trans hb⟩

/-- It comes up twice exactly if paths with different components share it. -/
theorem nodup_map_sortDedupPaths (hk : ∀ p ∈ ps, ∀ q ∈ ps, p.parts = q.parts → k p = k q) :
    ((sortDedupPaths ps).map k).Nodup ↔ ∀ p ∈ ps, ∀ q ∈ ps, k p = k q → p.parts = q.parts := by
  constructor
  · intro hnodup p hp q hq hsame
    obtain ⟨p', hp', hpparts⟩ := exists_mem_sortDedupPaths hp
    obtain ⟨q', hq', hqparts⟩ := exists_mem_sortDedupPaths hq
    have hkept : k p' = k q' := by
      rw [hk p' (mem_of_mem_sortDedupPaths hp') p hp hpparts, hsame,
        hk q' (mem_of_mem_sortDedupPaths hq') q hq hqparts]
    rw [← hpparts, List.inj_on_of_nodup_map hnodup hp' hq' hkept, hqparts]
  · intro happart
    refine List.pairwise_map.mpr ((pairwise_sortDedupPaths ps).imp_of_mem ?_)
    intro p q hp hq hparts hsame
    exact hparts (happart p (mem_of_mem_sortDedupPaths hp) q (mem_of_mem_sortDedupPaths hq) hsame)

end Kept

/-! ## What inputs stand for -/

namespace FileSystem

variable {fs : FileSystem} {p q : Path} {names names' : List String}

/-- What exists is a file or a directory: no lookup ends at a link. -/
theorem WellFormed.isFile_or_isDirectory (hfs : fs.WellFormed) (h : fs.exists? p = true) :
    fs.isFile p = true ∨ fs.isDirectory p = true := by
  unfold exists? at h
  cases hentry : fs.entryAt p with
  | error e =>
    rw [hentry] at h
    cases h
  | ok entry =>
    cases entry with
    | file bytes stamp => exact .inl (isFile_iff.mpr ⟨bytes, stamp, hentry⟩)
    | directory => exact .inr (isDirectory_iff.mpr hentry)
    | link target =>
      obtain ⟨names, hnames, hfound⟩ := entryAt_eq_ok.mp hentry
      have hreal := trace_real hfs.here (trace_of_resolve hnames).1
      exact absurd hfound (hreal.linkFree names target (List.prefix_refl names))

/-- Two spellings that lead somewhere have the same canonical path. -/
theorem canonicalPath_of_parts (h : p.parts = q.parts) (hp : fs.trace .existing p = .ok names)
    (hq : fs.trace .existing q = .ok names') : fs.canonicalPath p = fs.canonicalPath q := by
  rcases trace_of_parts h hp with hsame | ⟨-, -, e, he⟩
  · rw [canonicalPath_of_ok hp, canonicalPath_of_ok hsame]
  · rw [hq] at he
    cases he

/-- If `q` leads inside what `p` leads to, it is spelled as `p` followed by the names on the way. -/
def Continues (fs : FileSystem) (p q : Path) : Prop :=
  ∀ names rest, fs.resolve p = .ok names → fs.resolve q = .ok (names ++ rest) →
    q.parts = p.parts ++ rest.map .name

theorem continues_self (p : Path) : fs.Continues p p := by
  intro names rest hp hp'
  rw [hp, Except.ok.injEq, List.self_eq_append_right] at hp'
  rw [hp', List.map_nil, List.append_nil]

/-- Inputs that are spelled like their canonical paths continue each other. -/
theorem continues_of_canonical (hfs : fs.WellFormed) (hp : p.parts = (fs.canonicalPath p).parts)
    (hq : q.parts = (fs.canonicalPath q).parts) : fs.Continues p q := by
  intro names rest hnames hnames'
  obtain ⟨htrace, -⟩ := trace_of_resolve hnames
  obtain ⟨htrace', -⟩ := trace_of_resolve hnames'
  rw [hq, hp, canonicalPath_of_ok htrace, canonicalPath_of_ok htrace',
    Path.parts_ofNames (trace_real hfs.here htrace).proper,
    Path.parts_ofNames (trace_real hfs.here htrace').proper, List.map_append, List.cons_append]

/-- Files that lie below two directories are one file exactly by the names that lead to them. -/
theorem LeadsBelow.names_eq {dir dir' file file' : Path} {rest rest' : List String}
    (hfs : fs.WellFormed) (h : fs.LeadsBelow dir names file rest)
    (h' : fs.LeadsBelow dir' names' file' rest')
    (hsame : fs.canonicalPath file = fs.canonicalPath file') : names ++ rest = names' ++ rest' := by
  rw [h.canonicalPath, h'.canonicalPath] at hsame
  exact Path.names_of_parts_ofNames (h.real hfs).proper (h'.real hfs).proper
    (congrArg Path.parts hsame)

end FileSystem

namespace DiscoveryConfig

/-- The file is one of the sources that an input stands for. -/
def Finds (c : DiscoveryConfig) (fs : FileSystem) (input file : Path) : Prop :=
  ∃ excluded sources, readPatterns c.exclude = .ok excluded ∧
    c.sourcesOf fs excluded input = .ok sources ∧ file ∈ sources

/-- A file is a source of both inputs. -/
def Overlap (c : DiscoveryConfig) (fs : FileSystem) (p q : Path) : Prop :=
  ∃ file file', c.Finds fs p file ∧ c.Finds fs q file' ∧
    fs.canonicalPath file = fs.canonicalPath file'

variable {c : DiscoveryConfig} {fs : FileSystem} {inputs : List Path} {excluded : List Glob}

theorem Finds.below (hfs : fs.WellFormed) {input file : Path} (h : c.Finds fs input file) :
    ∃ names rest, fs.resolve input = .ok names ∧ fs.LeadsBelow input names file rest := by
  obtain ⟨excluded, sources, -, hsources, hfile⟩ := h
  exact below_of_mem_sources hfs hsources hfile

theorem finds_iff (hread : readPatterns c.exclude = .ok excluded) {input file : Path} :
    c.Finds fs input file ↔ ∃ sources, c.sourcesOf fs excluded input = .ok sources ∧
      file ∈ sources := by
  constructor
  · rintro ⟨excluded', sources, hread', hsources, hfile⟩
    cases hread.symm.trans hread'
    exact ⟨sources, hsources, hfile⟩
  · rintro ⟨sources, hsources, hfile⟩
    exact ⟨excluded, sources, hread, hsources, hfile⟩

theorem exists_sourcesOf (hfs : fs.WellFormed) {input : Path} (h : fs.exists? input = true)
    (excluded : List Glob) : ∃ sources, c.sourcesOf fs excluded input = .ok sources := by
  unfold sourcesOf
  rcases hfs.isFile_or_isDirectory h with hfile | hdirectory
  · rw [if_pos hfile]
    exact ⟨_, rfl⟩
  · rw [hdirectory]
    split
    · exact ⟨_, rfl⟩
    · exact ⟨_, rfl⟩

/-- What inputs that exist stand for, one after the other. -/
theorem exists_mapM_sourcesOf (hfs : fs.WellFormed) (hread : readPatterns c.exclude = .ok excluded)
    (hinputs : ∀ p ∈ inputs, fs.exists? p = true) :
    ∃ found, inputs.mapM (c.sourcesOf fs excluded) = .ok found ∧
      ∀ file, file ∈ found.flatten ↔ ∃ p ∈ inputs, c.Finds fs p file := by
  induction inputs with
  | nil => exact ⟨[], rfl, fun file => by simp⟩
  | cons p inputs ih =>
    obtain ⟨sources, hsources⟩ :=
      exists_sourcesOf (c := c) hfs (hinputs p List.mem_cons_self) excluded
    obtain ⟨found, hfound, hmem⟩ := ih fun q hq => hinputs q (.tail p hq)
    have hp : ∀ file, file ∈ sources ↔ c.Finds fs p file := fun file => by
      rw [finds_iff hread]
      exact ⟨fun h => ⟨sources, hsources, h⟩, fun ⟨_, hs, h⟩ => by
        cases hsources.symm.trans hs
        exact h⟩
    refine ⟨sources :: found, ?_, fun file => ?_⟩
    · rw [List.mapM_cons, hsources, hfound]
      rfl
    · rw [List.flatten_cons, List.mem_append, hp, hmem, List.exists_mem_cons_iff]

section Pairs

variable {p q file file' : Path}

/-- Sources with the same components are one file. -/
theorem Finds.canonicalPath_eq (hfs : fs.WellFormed) (h : c.Finds fs p file)
    (h' : c.Finds fs q file') (hparts : file.parts = file'.parts) :
    fs.canonicalPath file = fs.canonicalPath file' := by
  obtain ⟨_, _, -, hbelow⟩ := h.below hfs
  obtain ⟨_, _, -, hbelow'⟩ := h'.below hfs
  exact FileSystem.canonicalPath_of_parts hparts hbelow.trace hbelow'.trace

/-- Two inputs that find one file under one spelling continue each other. -/
theorem Finds.continues (hfs : fs.WellFormed) (h : c.Finds fs p file) (h' : c.Finds fs q file')
    (hsame : fs.canonicalPath file = fs.canonicalPath file') (hparts : file.parts = file'.parts) :
    fs.Continues p q := by
  intro names way hp hq
  obtain ⟨names₁, rest, hp₁, hbelow⟩ := h.below hfs
  obtain ⟨names₂, rest', hq₂, hbelow'⟩ := h'.below hfs
  cases hp.symm.trans hp₁
  cases hq.symm.trans hq₂
  have hrest : rest = way ++ rest' := by
    have hnames := hbelow.names_eq hfs hbelow' hsame
    rwa [List.append_assoc, List.append_cancel_left_eq] at hnames
  rw [hbelow.parts, hbelow'.parts, hrest, List.map_append, ← List.append_assoc] at hparts
  exact (List.append_cancel_right hparts).symm

/-- Inputs that continue each other find one file under one spelling. -/
theorem Finds.parts_eq (hfs : fs.WellFormed) (h : c.Finds fs p file) (h' : c.Finds fs q file')
    (hsame : fs.canonicalPath file = fs.canonicalPath file') (hpq : fs.Continues p q)
    (hqp : fs.Continues q p) : file.parts = file'.parts := by
  obtain ⟨names, rest, hp, hbelow⟩ := h.below hfs
  obtain ⟨names', rest', hq, hbelow'⟩ := h'.below hfs
  rw [hbelow.parts, hbelow'.parts]
  -- One of the inputs leads inside what the other one leads to.
  rcases List.append_eq_append_iff.mp (hbelow.names_eq hfs hbelow' hsame) with
    ⟨way, rfl, rfl⟩ | ⟨way, rfl, rfl⟩
  · rw [hpq names way hp hq, List.map_append, List.append_assoc]
  · rw [hqp names' way hq hp, List.map_append, List.append_assoc]

end Pairs

/-- No file is found under two spellings exactly if inputs that share a source continue each
    other. -/
theorem spelled_once_iff (hfs : fs.WellFormed) :
    (∀ p ∈ inputs, ∀ q ∈ inputs, ∀ file file', c.Finds fs p file → c.Finds fs q file' →
        fs.canonicalPath file = fs.canonicalPath file' → file.parts = file'.parts) ↔
      ∀ p ∈ inputs, ∀ q ∈ inputs, c.Overlap fs p q → fs.Continues p q := by
  constructor
  · rintro h p hp q hq ⟨file, file', hfile, hfile', hsame⟩
    exact hfile.continues hfs hfile' hsame (h p hp q hq file file' hfile hfile' hsame)
  · intro h p hp q hq file file' hfile hfile' hsame
    exact hfile.parts_eq hfs hfile' hsame (h p hp q hq ⟨file, file', hfile, hfile', hsame⟩)
      (h q hq p hp ⟨file', file, hfile', hfile, hsame.symm⟩)

end DiscoveryConfig

/-! ## Jobs -/

namespace Session

/-- How sources are collected in a session. -/
def discovery (s : Session) : DiscoveryConfig := { exclude := s.settings.analysis.excludePatterns }

variable {s : Session} {fs : FileSystem} {inputs : List Path} {excluded : List Glob}
  {jobs : List SourceJob}

/-- The jobs for inputs that exist: each source that one of them stands for is kept once, and a job
    names its canonical path. -/
theorem jobs_eq (hfs : fs.WellFormed) (hread : readPatterns s.discovery.exclude = .ok excluded)
    (hinputs : ∀ p ∈ inputs, fs.exists? p = true) :
    ∃ found, s.jobs fs inputs = .ok ((sortDedupPaths found).map (s.job fs)) ∧
      ∀ file, file ∈ found ↔ ∃ p ∈ inputs, s.discovery.Finds fs p file := by
  obtain ⟨found, hfound, hmem⟩ := DiscoveryConfig.exists_mapM_sourcesOf hfs hread hinputs
  refine ⟨found.flatten, ?_, hmem⟩
  have hcollected : collectSources s.discovery fs inputs = .ok (sortDedupPaths found.flatten) := by
    rw [collectSources, hread]
    show (do
      let found ← inputs.mapM (s.discovery.sourcesOf fs excluded)
      pure (sortDedupPaths found.flatten)) = _
    rw [hfound]
    rfl
  show (collectSources s.discovery fs inputs).map (·.map (s.job fs)) = _
  rw [hcollected]
  rfl

/-- The files that jobs name are the canonical paths of the sources, each as often as different
    spellings of sources lead to it. -/
theorem exists_files_jobs (hfs : fs.WellFormed)
    (hread : readPatterns s.discovery.exclude = .ok excluded)
    (hinputs : ∀ p ∈ inputs, fs.exists? p = true) :
    ∃ jobs, s.jobs fs inputs = .ok jobs ∧
      (∀ path, path ∈ jobs.map (·.file) ↔
        ∃ p ∈ inputs, ∃ file, s.discovery.Finds fs p file ∧ fs.canonicalPath file = path) ∧
      ((jobs.map (·.file)).Nodup ↔
        ∀ p ∈ inputs, ∀ q ∈ inputs, ∀ file file', s.discovery.Finds fs p file →
          s.discovery.Finds fs q file' → fs.canonicalPath file = fs.canonicalPath file' →
            file.parts = file'.parts) := by
  obtain ⟨found, hjobs, hmem⟩ := jobs_eq hfs hread hinputs
  have hfiles : ((sortDedupPaths found).map (s.job fs)).map (·.file) =
      (sortDedupPaths found).map fs.canonicalPath := by
    rw [List.map_map]
    rfl
  have hspelling : ∀ f ∈ found, ∀ g ∈ found, f.parts = g.parts →
      fs.canonicalPath f = fs.canonicalPath g := by
    intro f hf g hg hparts
    obtain ⟨p, -, hp⟩ := (hmem f).mp hf
    obtain ⟨q, -, hq⟩ := (hmem g).mp hg
    exact hp.canonicalPath_eq hfs hq hparts
  refine ⟨_, hjobs, fun path => ?_, ?_⟩
  · rw [hfiles, mem_map_sortDedupPaths hspelling]
    constructor
    · rintro ⟨file, hfile, hpath⟩
      obtain ⟨p, hp, hfinds⟩ := (hmem file).mp hfile
      exact ⟨p, hp, file, hfinds, hpath⟩
    · rintro ⟨p, hp, file, hfinds, hpath⟩
      exact ⟨file, (hmem file).mpr ⟨p, hp, hfinds⟩, hpath⟩
  · rw [hfiles, nodup_map_sortDedupPaths hspelling]
    constructor
    · intro happart p hp q hq file file' hfile hfile'
      exact happart file ((hmem file).mpr ⟨p, hp, hfile⟩) file' ((hmem file').mpr ⟨q, hq, hfile'⟩)
    · intro happart f hf g hg
      obtain ⟨p, hp, hfile⟩ := (hmem f).mp hf
      obtain ⟨q, hq, hfile'⟩ := (hmem g).mp hg
      exact happart p hp q hq f g hfile hfile'

/-- Inputs that are spelled like their canonical paths give every file one job. -/
theorem jobs_of_canonical (hfs : fs.WellFormed)
    (hread : readPatterns s.discovery.exclude = .ok excluded)
    (hinputs : ∀ p ∈ inputs, fs.exists? p = true)
    (hspelled : ∀ p ∈ inputs, p.parts = (fs.canonicalPath p).parts) :
    ∃ jobs, s.jobs fs inputs = .ok jobs ∧ (jobs.map (·.file)).Nodup := by
  obtain ⟨jobs, hjobs, -, hnodup⟩ := exists_files_jobs hfs hread hinputs
  refine ⟨jobs, hjobs, hnodup.mpr ((DiscoveryConfig.spelled_once_iff hfs).mpr ?_)⟩
  exact fun p hp q hq _ => FileSystem.continues_of_canonical hfs (hspelled p hp) (hspelled q hq)

/-- A single input, in whatever spelling, gives every file one job. -/
theorem jobs_singleton (hfs : fs.WellFormed)
    (hread : readPatterns s.discovery.exclude = .ok excluded) {input : Path}
    (hinput : fs.exists? input = true) :
    ∃ jobs, s.jobs fs [input] = .ok jobs ∧ (jobs.map (·.file)).Nodup := by
  have hinputs : ∀ p ∈ [input], fs.exists? p = true := fun p hp => by
    cases List.mem_singleton.mp hp
    exact hinput
  obtain ⟨jobs, hjobs, -, hnodup⟩ := exists_files_jobs hfs hread hinputs
  refine ⟨jobs, hjobs, hnodup.mpr ((DiscoveryConfig.spelled_once_iff hfs).mpr ?_)⟩
  intro p hp q hq _
  cases List.mem_singleton.mp hp
  cases List.mem_singleton.mp hq
  exact FileSystem.continues_self input

/-- **One job per file.**  Every source that one of the inputs stands for has a job under its
    canonical path, and nothing else has one; no two jobs name one file exactly if inputs that share
    a source continue each other. -/
theorem jobs_apart (hfs : fs.WellFormed) (hread : readPatterns s.discovery.exclude = .ok excluded)
    (hinputs : ∀ p ∈ inputs, fs.exists? p = true) :
    ∃ jobs, s.jobs fs inputs = .ok jobs ∧
      (∀ path, path ∈ jobs.map (·.file) ↔
        ∃ p ∈ inputs, ∃ file, s.discovery.Finds fs p file ∧ fs.canonicalPath file = path) ∧
      ((jobs.map (·.file)).Nodup ↔
        ∀ p ∈ inputs, ∀ q ∈ inputs, s.discovery.Overlap fs p q → fs.Continues p q) := by
  obtain ⟨jobs, hjobs, hfiles, hnodup⟩ := exists_files_jobs hfs hread hinputs
  exact ⟨jobs, hjobs, hfiles, hnodup.trans (DiscoveryConfig.spelled_once_iff hfs)⟩

end Session

/-! ## One source, two spellings -/

/-- A directory with one source in it. -/
def FileSystem.oneSource : FileSystem :=
  { cwd := ["w"]
    entries := [(["w"], .directory), (["w", "a.c"], .file .empty { seconds := 1000 })] }

open FileSystem (oneSource) in
theorem FileSystem.wellFormed_oneSource : oneSource.WellFormed where
  here := (real_root oneSource).inside ⟨by decide, by decide, by decide, by decide⟩
    fun _ h => by cases h
  once := by decide
  named e he s hs := by
    have hdirectory : Path.IsName "w" :=
      ⟨⟨by decide, by decide, by decide, by decide⟩, by decide, by decide⟩
    have hsource : Path.IsName "a.c" :=
      ⟨⟨by decide, by decide, by decide, by decide⟩, by decide, by decide⟩
    rcases List.mem_cons.mp he with rfl | he
    · cases List.mem_singleton.mp hs
      exact hdirectory
    · cases List.mem_singleton.mp he
      rcases List.mem_cons.mp hs with rfl | hs
      · exact hdirectory
      · cases List.mem_singleton.mp hs
        exact hsource

namespace Session

open FileSystem (oneSource wellFormed_oneSource)

/-- A session with default settings. -/
def plain : Session := { settings := {}, workspace := ⟨"/w"⟩ }

theorem readPatterns_plain : ∃ excluded, readPatterns plain.discovery.exclude = .ok excluded := by
  have hread : (readPatterns plain.discovery.exclude).toOption.isSome = true := by decide +kernel
  cases h : readPatterns plain.discovery.exclude with
  | error e =>
    rw [h] at hread
    cases hread
  | ok excluded => exact ⟨excluded, rfl⟩

/-- The directory and the file as a walk of the directory spells it. -/
theorem jobs_apart_alike :
    oneSource.WellFormed ∧ (∀ p ∈ [⟨"."⟩, ⟨"./a.c"⟩], oneSource.exists? p = true) ∧
      ∃ jobs, plain.jobs oneSource [⟨"."⟩, ⟨"./a.c"⟩] = .ok jobs ∧ (jobs.map (·.file)).Nodup := by
  obtain ⟨excluded, hread⟩ := readPatterns_plain
  have hinputs : ∀ p ∈ [(⟨"."⟩ : Path), ⟨"./a.c"⟩], oneSource.exists? p = true := by decide +kernel
  obtain ⟨jobs, hjobs, -, hnodup⟩ := jobs_apart wellFormed_oneSource hread hinputs
  have hdirectory : oneSource.resolve ⟨"."⟩ = .ok ["w"] := by decide +kernel
  have hsource : oneSource.resolve ⟨"./a.c"⟩ = .ok ["w", "a.c"] := by decide +kernel
  refine ⟨wellFormed_oneSource, hinputs, jobs, hjobs, hnodup.mpr ?_⟩
  intro p hp q hq _ names rest hnames hrest
  simp only [List.mem_cons, List.not_mem_nil, or_false] at hp hq
  rcases hp with rfl | rfl
  · rcases hq with rfl | rfl
    · exact FileSystem.continues_self _ names rest hnames hrest
    · rw [hdirectory] at hnames
      rw [hsource] at hrest
      cases hnames
      cases hrest
      decide
  · rcases hq with rfl | rfl
    · rw [hsource] at hnames
      rw [hdirectory] at hrest
      cases hnames
      cases hrest
    · exact FileSystem.continues_self _ names rest hnames hrest

/-- The same file in two spellings has two jobs. -/
theorem jobs_twice :
    ¬∀ (s : Session) (fs : FileSystem) (inputs : List Path) (jobs : List SourceJob),
      fs.WellFormed → (∀ p ∈ inputs, fs.exists? p = true) → s.jobs fs inputs = .ok jobs →
        (jobs.map (·.file)).Nodup := by
  intro hdistinct
  obtain ⟨excluded, hread⟩ := readPatterns_plain
  have hinputs : ∀ p ∈ [(⟨"a.c"⟩ : Path), ⟨"./a.c"⟩], oneSource.exists? p = true := by
    decide +kernel
  obtain ⟨jobs, hjobs, -, hnodup⟩ := exists_files_jobs wellFormed_oneSource hread hinputs
  have happart := hnodup.mp (hdistinct plain oneSource _ jobs wellFormed_oneSource hinputs hjobs)
  have hfinds : ∀ p ∈ [(⟨"a.c"⟩ : Path), ⟨"./a.c"⟩], plain.discovery.Finds oneSource p p := by
    intro p hp
    have hfile : oneSource.isFile p = true := by
      revert p
      decide +kernel
    exact ⟨excluded, [p], hread, if_pos hfile, List.mem_singleton_self p⟩
  have hleads : ∀ p ∈ [(⟨"a.c"⟩ : Path), ⟨"./a.c"⟩],
      oneSource.trace .existing p = .ok ["w", "a.c"] := by
    decide +kernel
  have hsame : oneSource.canonicalPath ⟨"a.c"⟩ = oneSource.canonicalPath ⟨"./a.c"⟩ :=
    (FileSystem.canonicalPath_of_ok (hleads _ (by simp))).trans
      (FileSystem.canonicalPath_of_ok (hleads _ (by simp))).symm
  have hparts := happart ⟨"a.c"⟩ (by simp) ⟨"./a.c"⟩ (by simp) _ _ (hfinds _ (by simp))
    (hfinds _ (by simp)) hsame
  exact absurd hparts (by decide)

end Session

end SymbolAtlas
