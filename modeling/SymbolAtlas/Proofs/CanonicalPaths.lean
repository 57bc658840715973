import SymbolAtlas.Location
import SymbolAtlas.Proofs.PathSpellings

/-!
# Canonical paths of canonical paths

A canonical path is spelled out of the names that lead somewhere from the root.  If the path exists
these are the names that the file system finds, and no link is among them; otherwise they are what
is left of the spelling when dots are dropped and `..` is cancelled, which may well be a way through
links.

* `Path.Proper` — a name that can stand between separators.
* `FileSystem.Real` — names that lead somewhere without a link.
* `FileSystem.Detoured` — a path that leads nowhere, while what is left of its spelling leads
  somewhere through a link.

Principal results: `FileSystem.trace_real` — a lookup ends at real names;
`FileSystem.canonicalPath_ofNames` — real names spell their own canonical path;
`FileSystem.canonicalPath_twice` — a canonical path is its own canonical path exactly unless the
path was detoured, and in any case from the second time on.
-/

set_option autoImplicit false

namespace SymbolAtlas

/-! ## Spellings of names -/

namespace Path

theorem segments_append_slash {s : List Char} (h : '/' ∉ s) (rest : List Char) :
    segments (s ++ '/' :: rest) = s :: segments rest := by
  induction s with
  | nil =>
    rw [List.nil_append, segments, if_pos rfl]
  | cons c s ih =>
    rw [List.mem_cons, not_or] at h
    rw [List.cons_append, segments, if_neg (Ne.symm h.1), ih h.2]

theorem segments_of_not_slash {s : List Char} (h : '/' ∉ s) : segments s = [s] := by
  induction s with
  | nil => rfl
  | cons c s ih =>
    rw [List.mem_cons, not_or] at h
    rw [segments, if_neg (Ne.symm h.1), ih h.2]

/-- Segments put together with separators are found again. -/
theorem segments_intercalate {segs : List (List Char)} (hne : segs ≠ [])
    (h : ∀ s ∈ segs, '/' ∉ s) : segments (['/'].intercalate segs) = segs := by
  induction segs with
  | nil => exact absurd rfl hne
  | cons s segs ih =>
    have hs : '/' ∉ s := h s List.mem_cons_self
    cases segs with
    | nil =>
      rw [List.intercalate_singleton]
      exact segments_of_not_slash hs
    | cons t rest =>
      have hrest := ih (List.cons_ne_nil t rest) fun r hr => h r (List.mem_cons_of_mem s hr)
      rw [List.intercalate_cons_cons, List.append_assoc, List.singleton_append,
        segments_append_slash hs, hrest]

theorem not_slash_of_mem_segments {cs s : List Char} (h : s ∈ segments cs) : '/' ∉ s := by
  induction cs generalizing s with
  | nil =>
    rw [List.mem_singleton.mp h]
    exact List.not_mem_nil
  | cons c rest ih =>
    rw [segments] at h
    split at h
    · rcases List.mem_cons.mp h with rfl | h
      · exact List.not_mem_nil
      · exact ih h
    · rename_i hc
      split at h
      · rename_i front more hsegs
        rcases List.mem_cons.mp h with rfl | h
        · have hfront : '/' ∉ front := ih (by rw [hsegs]; exact List.mem_cons_self)
          exact fun hmem => (List.mem_cons.mp hmem).elim (fun heq => hc heq.symm) hfront
        · exact ih (by rw [hsegs]; exact List.mem_cons_of_mem front h)
      · rw [List.mem_singleton.mp h]
        exact fun hmem => hc (List.mem_singleton.mp hmem).symm

/-- A name that can stand between separators: it is not empty, it is no dots, and there is no
    separator in it. -/
structure Proper (s : String) : Prop where
  nonempty : s.toList ≠ []
  not_here : s.toList ≠ ['.']
  not_up : s.toList ≠ ['.', '.']
  whole : '/' ∉ s.toList

theorem proper_of_segment {seg : List Char} (hempty : seg ≠ []) (hdot : seg ≠ ['.'])
    (hdots : seg ≠ ['.', '.']) (hslash : '/' ∉ seg) : Proper (String.ofList seg) := by
  have htext : (String.ofList seg).toList = seg := String.toList_ofList
  exact ⟨by rwa [htext], by rwa [htext], by rwa [htext], by rwa [htext]⟩

theorem innerPart_of_proper {s : String} (h : Proper s) :
    innerPart s.toList = some (.name s) :=
  innerPart_eq_name_iff.mpr ⟨String.ofList_toList.symm, h.nonempty, h.not_here, h.not_up⟩

theorem filterMap_innerPart {names : List String} (h : ∀ s ∈ names, Proper s) :
    (names.map String.toList).filterMap innerPart = names.map .name := by
  induction names with
  | nil => rfl
  | cons s names ih =>
    rw [List.map_cons, List.filterMap_cons_some (innerPart_of_proper (h s List.mem_cons_self)),
      ih fun t ht => h t (.tail s ht), List.map_cons]

theorem stepsOf_proper {names : List String} (h : ∀ s ∈ names, Proper s) (named : Bool) :
    stepsOf named (names.map String.toList) = names.map .name := by
  induction names generalizing named with
  | nil => rfl
  | cons s names ih =>
    have hs := h s List.mem_cons_self
    have hrest := ih (fun t ht => h t (List.mem_cons_of_mem s ht)) true
    rw [List.map_cons, List.map_cons, stepsOf, hrest, String.ofList_toList]
    · exact hs.nonempty
    · exact hs.not_here
    · exact hs.not_up

/-- The steps of segments are names that can stand between separators, and other steps. -/
theorem proper_of_mem_stepsOf {named : Bool} {segs : List (List Char)}
    (hsegs : ∀ seg ∈ segs, '/' ∉ seg) {s : String} (h : Step.name s ∈ stepsOf named segs) :
    Proper s := by
  fun_induction stepsOf named segs with
  | case1 => cases h
  | case2 named rest hlast => cases List.mem_singleton.mp h
  | case3 named rest hlast ih => exact ih (fun seg hseg => hsegs seg (.tail _ hseg)) h
  | case4 named rest ih =>
    rcases List.mem_cons.mp h with heq | h
    · cases heq
    · exact ih (fun seg hseg => hsegs seg (.tail _ hseg)) h
  | case5 named rest ih =>
    rcases List.mem_cons.mp h with heq | h
    · cases heq
    · exact ih (fun seg hseg => hsegs seg (.tail _ hseg)) h
  | case6 named seg rest hempty hdot hdots ih =>
    rcases List.mem_cons.mp h with heq | h
    · cases heq
      exact proper_of_segment hempty hdot hdots (hsegs seg List.mem_cons_self)
    · exact ih (fun seg hseg => hsegs seg (.tail _ hseg)) h

theorem proper_of_mem_steps {p : Path} {s : String} (h : Step.name s ∈ p.steps) : Proper s := by
  have hsegs : ∀ seg ∈ segments p.text.toList, '/' ∉ seg := fun _ => not_slash_of_mem_segments
  rw [steps] at h
  split at h
  · rcases List.mem_cons.mp h with heq | h
    · cases heq
    · exact proper_of_mem_stepsOf hsegs h
  · exact proper_of_mem_stepsOf hsegs h

theorem proper_of_innerPart {seg : List Char} (hslash : '/' ∉ seg) {s : String}
    (h : innerPart seg = some (.name s)) : Proper s := by
  obtain ⟨rfl, hempty, hdot, hdots⟩ := innerPart_eq_name_iff.mp h
  exact proper_of_segment hempty hdot hdots hslash

theorem proper_of_mem_parts {p : Path} {s : String} (h : Part.name s ∈ p.parts) : Proper s := by
  obtain ⟨seg, hseg, hpart⟩ := name_mem_parts.mp h
  exact proper_of_innerPart (not_slash_of_mem_segments hseg) hpart

theorem isAbsolute_ofNames (names : List String) : (ofNames names).isAbsolute = true := by
  simp [ofNames, isAbsolute]

/-- What stands between the separators of a path that is spelled out of names. -/
theorem segments_ofNames {names : List String} (h : ∀ s ∈ names, Proper s) :
    segments (ofNames names).text.toList =
      [] :: if names = [] then [[]] else names.map String.toList := by
  have htext : (ofNames names).text.toList =
      '/' :: ['/'].intercalate (names.map String.toList) := by
    unfold ofNames
    rw [String.toList_append, String.toList_intercalate]
    rfl
  rw [htext, segments, if_pos rfl]
  split
  · rename_i hnil
    rw [hnil]
    rfl
  · rename_i hne
    rw [segments_intercalate (mt List.map_eq_nil_iff.mp hne)]
    intro seg hseg
    obtain ⟨s, hs, rfl⟩ := List.mem_map.mp hseg
    exact (h s hs).whole

theorem steps_ofNames {names : List String} (h : ∀ s ∈ names, Proper s) :
    (ofNames names).steps = .root :: names.map .name := by
  unfold steps
  rw [if_pos (isAbsolute_ofNames names), segments_ofNames h]
  cases names with
  | nil => rfl
  | cons s names => exact congrArg (Step.root :: ·) (stepsOf_proper h false)

theorem parts_ofNames {names : List String} (h : ∀ s ∈ names, Proper s) :
    (ofNames names).parts = .root :: names.map .name := by
  unfold parts
  simp only
  rw [if_pos (isAbsolute_ofNames names), segments_ofNames h]
  cases names with
  | nil => rfl
  | cons s names => exact congrArg (Part.root :: ·) (filterMap_innerPart h)

/-- Different names spell different paths. -/
theorem names_of_parts_ofNames {names names' : List String} (h : ∀ s ∈ names, Proper s)
    (h' : ∀ s ∈ names', Proper s) (heq : (ofNames names).parts = (ofNames names').parts) :
    names = names' := by
  rw [parts_ofNames h, parts_ofNames h', List.cons_inj_right] at heq
  exact (List.map_inj_right fun _ _ hname => Part.name.inj hname).mp heq

end Path

namespace FileSystem

open SymbolAtlas.Path (Step Proper)

variable {fs : FileSystem}

/-! ## Names that are left of a spelling -/

theorem cancelUps_proper {names : List String} {parts : List Part}
    (hnames : ∀ s ∈ names, Proper s) (hparts : ∀ s, Part.name s ∈ parts → Proper s) :
    ∀ s ∈ cancelUps names parts, Proper s := by
  induction parts generalizing names with
  | nil => exact hnames
  | cons part rest ih =>
    have hrest : ∀ s, Part.name s ∈ rest → Proper s := fun s hs => hparts s (.tail part hs)
    cases part with
    | root => exact ih (fun _ hs => absurd hs List.not_mem_nil) hrest
    | here => exact ih hnames hrest
    | up => exact ih (fun s hs => hnames s (List.mem_of_mem_tail hs)) hrest
    | name t =>
      refine ih (fun s hs => ?_) hrest
      rcases List.mem_cons.mp hs with rfl | hs
      · exact hparts s List.mem_cons_self
      · exact hnames s hs

theorem cancelUps_names (above names : List String) :
    cancelUps above (names.map .name) = names.reverse ++ above := by
  induction names generalizing above with
  | nil => rfl
  | cons s names ih =>
    rw [List.map_cons, cancelUps, ih, List.reverse_cons, List.append_assoc]
    rfl

/-- The names that are left of a spelling. -/
def spelled (fs : FileSystem) (p : Path) : List String :=
  (cancelUps fs.cwd.reverse p.parts).reverse

theorem spelled_proper (hcwd : ∀ s ∈ fs.cwd, Proper s) (p : Path) :
    ∀ s ∈ fs.spelled p, Proper s := by
  intro s hs
  refine cancelUps_proper (fun t ht => hcwd t (List.mem_reverse.mp ht)) ?_ s
    (List.mem_reverse.mp hs)
  exact fun t ht => Path.proper_of_mem_parts ht

theorem normalize_ofNames {names : List String} (h : ∀ s ∈ names, Proper s) :
    fs.normalize (.ofNames names) = .ofNames names := by
  unfold normalize
  rw [Path.parts_ofNames h, cancelUps, cancelUps_names, List.append_nil, List.reverse_reverse]

/-! ## Names without links -/

/-- No symbolic link lies on the way that the names lead. -/
def LinkFree (fs : FileSystem) (names : List String) : Prop :=
  ∀ above target, above <+: names → fs.find? above ≠ some (.link target)

/-- Names that can lead somewhere without a link. -/
structure Real (fs : FileSystem) (names : List String) : Prop where
  proper : ∀ s ∈ names, Proper s
  linkFree : fs.LinkFree names

theorem real_root (fs : FileSystem) : fs.Real [] where
  proper _ hs := absurd hs List.not_mem_nil
  linkFree above target h := by
    rw [List.prefix_nil.mp h]
    exact fun hroot => by cases hroot

theorem Real.above {names : List String} (h : fs.Real names) : fs.Real names.dropLast where
  proper s hs := h.proper s ((List.dropLast_prefix names).subset hs)
  linkFree above target habove := h.linkFree above target
    (habove.trans (List.dropLast_prefix names))

theorem Real.inside {names : List String} {s : String} (h : fs.Real names) (hs : Proper s)
    (hlink : ∀ target, fs.find? (names ++ [s]) ≠ some (.link target)) :
    fs.Real (names ++ [s]) where
  proper t ht := by
    rcases List.mem_append.mp ht with ht | ht
    · exact h.proper t ht
    · rw [List.mem_singleton.mp ht]
      exact hs
  linkFree above target habove := by
    rcases List.prefix_concat_iff.mp habove with rfl | habove
    · exact hlink target
    · exact h.linkFree above target habove

variable {names : List String}

/-- A lookup that starts at real names ends at real names. -/
theorem walk_real {follow : List String → List Step → Except FileError (List String)}
    (hfollow : ∀ dir steps, fs.Real dir → (∀ s, Step.name s ∈ steps → Proper s) →
      follow dir steps = .ok names → fs.Real names)
    (steps : List Step) (dir : List String) (hdir : fs.Real dir)
    (hsteps : ∀ s, Step.name s ∈ steps → Proper s)
    (h : fs.walk .existing follow dir steps = .ok names) : fs.Real names := by
  induction steps generalizing dir with
  | nil =>
    cases h
    exact hdir
  | cons step rest ih =>
    have hrest : ∀ s, Step.name s ∈ rest → Proper s := fun s hs => hsteps s (.tail step hs)
    cases step with
    | root => exact ih [] (real_root fs) hrest h
    | here => exact ih dir hdir hrest h
    | up => exact ih dir.dropLast hdir.above hrest h
    | slash => exact ih dir hdir hrest h
    | name s =>
      have hs : Proper s := hsteps s List.mem_cons_self
      rw [walk_name] at h
      split at h
      · cases h
      · cases hfound : fs.find? (dir ++ [s]) with
        | none =>
          rw [hfound] at h
          cases h
        | some found =>
          rw [hfound] at h
          cases found with
          | file bytes stamp =>
            simp only at h
            split at h
            · cases h
              exact hdir.inside hs fun target htarget => by rw [hfound] at htarget; cases htarget
            · cases h
          | directory =>
            refine ih _ (hdir.inside hs fun target htarget => ?_) hrest h
            rw [hfound] at htarget
            cases htarget
          | link path =>
            refine hfollow dir _ hdir (fun t ht => ?_) h
            rcases List.mem_append.mp ht with ht | ht
            · exact Path.proper_of_mem_steps ht
            · exact hrest t ht

theorem walkLinks_real (n : Nat) (steps : List Step) (dir : List String) (hdir : fs.Real dir)
    (hsteps : ∀ s, Step.name s ∈ steps → Proper s)
    (h : fs.walkLinks .existing n dir steps = .ok names) : fs.Real names := by
  induction n generalizing dir steps with
  | zero => exact walk_real (fun _ _ _ _ h => by cases h) steps dir hdir hsteps h
  | succ n ih =>
    exact walk_real (fun dir steps => ih steps dir) steps dir hdir hsteps h

/-- What a path leads to has real names. -/
theorem trace_real (hcwd : fs.Real fs.cwd) {p : Path} (h : fs.trace .existing p = .ok names) :
    fs.Real names := by
  unfold trace at h
  split at h
  · cases h
  · split at h
    · cases h
    · exact walkLinks_real maxLinks p.steps fs.cwd hcwd (fun _ => Path.proper_of_mem_steps) h

/-- Names on which there is no link lead to themselves, or nowhere. -/
theorem walk_linkFree {follow : List String → List Step → Except FileError (List String)}
    {dir rest : List String} (hfree : fs.LinkFree (dir ++ rest))
    (h : fs.walk .existing follow dir (rest.map .name) = .ok names) : names = dir ++ rest := by
  induction rest generalizing dir with
  | nil =>
    cases h
    exact (List.append_nil _).symm
  | cons s rest ih =>
    rw [List.append_cons] at hfree ⊢
    rw [List.map_cons, walk_name] at h
    split at h
    · cases h
    · cases hfound : fs.find? (dir ++ [s]) with
      | none =>
        rw [hfound] at h
        cases h
      | some found =>
        rw [hfound] at h
        cases found with
        | file bytes stamp =>
          cases rest with
          | nil =>
            cases h
            exact (List.append_nil _).symm
          | cons t rest => cases h
        | directory => exact ih hfree h
        | link path => exact absurd hfound (hfree _ path (List.prefix_append _ rest))

theorem trace_ofNames {way : List String} (hway : fs.Real way)
    (h : fs.trace .existing (.ofNames way) = .ok names) : names = way := by
  cases hnul : (Path.ofNames way).text.toList.contains '\x00' with
  | true =>
    rw [trace, if_pos hnul] at h
    cases h
  | false =>
    rw [trace_eq (Path.isAbsolute_ofNames way) hnul, Path.steps_ofNames hway.proper] at h
    -- The walk starts at the root, whatever the current directory.
    have hfree : fs.LinkFree ([] ++ way) := hway.linkFree
    exact walk_linkFree hfree h

/-- Real names spell their own canonical path. -/
theorem canonicalPath_ofNames {way : List String} (h : fs.Real way) :
    fs.canonicalPath (.ofNames way) = .ofNames way := by
  unfold canonicalPath
  cases htrace : fs.trace .existing (.ofNames way) with
  | ok names => rw [trace_ofNames h htrace]
  | error e => exact normalize_ofNames h.proper

/-! ## Canonical paths once more -/

/-- The path leads nowhere, and what is left of its spelling leads somewhere, through a link. -/
structure Detoured (fs : FileSystem) (p : Path) : Prop where
  nowhere : ∃ e, fs.trace .existing p = .error e
  somewhere : ∃ names, fs.trace .existing (fs.normalize p) = .ok names
  link : ∃ above target, above <+: fs.spelled p ∧ fs.find? above = some (.link target)

/-- What is left of a spelling is its own canonical path unless it leads elsewhere. -/
theorem canonicalPath_normalize (hcwd : fs.Real fs.cwd) (p : Path) :
    fs.canonicalPath (fs.normalize p) = fs.normalize p ↔
      ¬((∃ names, fs.trace .existing (fs.normalize p) = .ok names) ∧
        ∃ above target, above <+: fs.spelled p ∧ fs.find? above = some (.link target)) := by
  have hproper := spelled_proper hcwd.proper p
  have hnormal : fs.normalize p = .ofNames (fs.spelled p) := rfl
  cases htrace : fs.trace .existing (fs.normalize p) with
  | error e =>
    refine iff_of_true ?_ fun ⟨⟨_, h⟩, _⟩ => by cases h
    rw [canonicalPath, htrace, hnormal]
    exact normalize_ofNames hproper
  | ok names =>
    have hreal : fs.Real names := trace_real hcwd htrace
    constructor
    · rintro h ⟨-, above, target, habove, hlink⟩
      rw [canonicalPath, htrace, hnormal] at h
      have hnames := Path.names_of_parts_ofNames hreal.proper hproper (congrArg Path.parts h)
      exact hreal.linkFree above target (hnames ▸ habove) hlink
    · intro h
      rw [hnormal]
      refine canonicalPath_ofNames ⟨hproper, fun above target habove hlink => ?_⟩
      exact h ⟨⟨names, rfl⟩, above, target, habove, hlink⟩

/-- A canonical path is its own canonical path unless the path was detoured. -/
theorem canonicalPath_once (hcwd : fs.Real fs.cwd) (p : Path) :
    fs.canonicalPath (fs.canonicalPath p) = fs.canonicalPath p ↔ ¬fs.Detoured p := by
  cases htrace : fs.trace .existing p with
  | ok names =>
    have hcanonical : fs.canonicalPath p = .ofNames names := by rw [canonicalPath, htrace]
    refine iff_of_true ?_ fun h => ?_
    · rw [hcanonical]
      exact canonicalPath_ofNames (trace_real hcwd htrace)
    · obtain ⟨e, he⟩ := h.nowhere
      rw [htrace] at he
      cases he
  | error e =>
    have hcanonical : fs.canonicalPath p = fs.normalize p := by rw [canonicalPath, htrace]
    rw [hcanonical, canonicalPath_normalize hcwd]
    exact not_congr ⟨fun h => ⟨⟨e, htrace⟩, h.1, h.2⟩, fun h => ⟨h.somewhere, h.link⟩⟩

/-- A canonical path is spelled out of names. -/
theorem canonicalPath_isSpelled (hcwd : fs.Real fs.cwd) (p : Path) :
    ∃ names, (∀ s ∈ names, Proper s) ∧ fs.canonicalPath p = .ofNames names := by
  unfold canonicalPath
  cases htrace : fs.trace .existing p with
  | ok names => exact ⟨names, (trace_real hcwd htrace).proper, rfl⟩
  | error e => exact ⟨fs.spelled p, spelled_proper hcwd.proper p, rfl⟩

/-- A canonical path is not detoured: nothing is dropped from its spelling. -/
theorem not_detoured_canonicalPath (hcwd : fs.Real fs.cwd) (p : Path) :
    ¬fs.Detoured (fs.canonicalPath p) := by
  intro h
  obtain ⟨e, he⟩ := h.nowhere
  obtain ⟨names, hnames⟩ := h.somewhere
  obtain ⟨way, hproper, hspelled⟩ := canonicalPath_isSpelled hcwd p
  rw [hspelled] at he hnames
  rw [normalize_ofNames hproper, he] at hnames
  cases hnames

/-- **A canonical path is its own canonical path exactly unless the path was detoured**, and in any
    case when it was made canonical twice.  So a location lies in the file at its own path, unless
    it was made from a detoured one. -/
theorem canonicalPath_twice (hcwd : fs.Real fs.cwd) (p : Path) :
    (fs.canonicalPath (fs.canonicalPath p) = fs.canonicalPath p ↔ ¬fs.Detoured p) ∧
    fs.canonicalPath (fs.canonicalPath (fs.canonicalPath p)) =
      fs.canonicalPath (fs.canonicalPath p) ∧
    ∀ line column, (Location.canonical fs p line column).isIn fs
      (Location.canonical fs p line column).path = true ↔ ¬fs.Detoured p := by
  refine ⟨canonicalPath_once hcwd p,
    (canonicalPath_once hcwd _).mpr (not_detoured_canonicalPath hcwd p), fun line column => ?_⟩
  rw [← canonicalPath_once hcwd p, Location.isIn, Path.beq_iff_parts]
  obtain ⟨names, hnames, hspelled⟩ := canonicalPath_isSpelled hcwd p
  obtain ⟨names', hnames', hspelled'⟩ := canonicalPath_isSpelled hcwd (fs.canonicalPath p)
  show (fs.canonicalPath p).parts = (fs.canonicalPath (fs.canonicalPath p)).parts ↔ _
  refine ⟨fun h => ?_, fun h => congrArg Path.parts h.symm⟩
  rw [hspelled'] at h ⊢
  rw [hspelled] at h ⊢
  rw [Path.names_of_parts_ofNames hnames hnames' h]

/-- A header and a link to it. -/
def linkedHeader : FileSystem :=
  { cwd := ["w"],
    entries := [(["w"], .directory), (["w", "real.h"], .file .empty { seconds := 1000 }),
      (["w", "link.h"], .link ⟨"real.h"⟩)] }

theorem real_linkedHeader : linkedHeader.Real linkedHeader.cwd :=
  (real_root linkedHeader).inside ⟨by decide, by decide, by decide, by decide⟩
    fun _ h => by cases h

theorem canonicalPath_twice_linkedHeader :
    linkedHeader.Real linkedHeader.cwd ∧ ¬linkedHeader.Detoured ⟨"../w/./link.h"⟩ ∧
      linkedHeader.canonicalPath (linkedHeader.canonicalPath ⟨"../w/./link.h"⟩) =
        linkedHeader.canonicalPath ⟨"../w/./link.h"⟩ := by
  have hfound : (linkedHeader.trace .existing ⟨"../w/./link.h"⟩).toOption =
      some ["w", "real.h"] := by
    decide +kernel
  have hdirect : ¬linkedHeader.Detoured ⟨"../w/./link.h"⟩ := fun h => by
    obtain ⟨e, he⟩ := h.nowhere
    rw [he] at hfound
    cases hfound
  exact ⟨real_linkedHeader, hdirect, (canonicalPath_twice real_linkedHeader _).1.mpr hdirect⟩

/-- What is left of a way through a missing directory is a way through the link. -/
theorem canonicalPath_detoured :
    ¬∀ (fs : FileSystem) (p : Path), fs.Real fs.cwd →
      fs.canonicalPath (fs.canonicalPath p) = fs.canonicalPath p := by
  intro hidempotent
  have hsame := hidempotent linkedHeader ⟨"/w/missing/../link.h"⟩ real_linkedHeader
  have honce : (linkedHeader.canonicalPath ⟨"/w/missing/../link.h"⟩).text = "/w/link.h" := by
    decide +kernel
  have htwice : (linkedHeader.canonicalPath
      (linkedHeader.canonicalPath ⟨"/w/missing/../link.h"⟩)).text = "/w/real.h" := by
    decide +kernel
  rw [hsame, honce] at htwice
  exact absurd htwice (by decide)

end FileSystem

end SymbolAtlas
