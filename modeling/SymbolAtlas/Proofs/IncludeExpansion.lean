import Mathlib.Data.List.Perm.Subperm
import SymbolAtlas.Proofs.LoweredUses
import SymbolAtlas.Proofs.PathSpellings

/-!
# How headers are expanded

A header is opened where a directive leads to it for the first time, whatever it is called there.
Every such header is a file of the file system, under its canonical path, and what was met before is
not opened again.  So headers nest no deeper than there are files, and a lowering that may go deeper
than that does nothing else.

* `Headers.unmet` — the canonical paths of files that were not met yet, the measure of the recursion
  through files.
* `Lowering.fileFrom` — the lowering of a file with something else to do beyond the deepest level.
* `Lowering.Expands` — what the directives that a lowering meets have to do with the headers of the
  unit.

Principal results: `fileFrom_alike` — no lowering comes to its deepest level; `Expands.step` — every
step of a lowering keeps what is said of headers; `collect_expands_headers` — lowering ends, records
every header once, and lowers it where it is met first.
-/

set_option autoImplicit false

namespace SymbolAtlas

/-! ## Files that were not met -/

namespace Headers

variable {headers : Headers}

/-- Every header that is found is a file, under its canonical path. -/
theorem find?_eq_some {name : String} {quoted : Bool} {origin header : Path}
    (h : headers.find? name quoted origin = some header) :
    ∃ p, headers.files.isFile p = true ∧ header = headers.files.canonicalPath p := by
  obtain ⟨p, hp, rfl⟩ := Option.map_eq_some_iff.mp h
  exact ⟨p, List.find?_some hp, rfl⟩

/-- The canonical path of a file is the way to its entry. -/
theorem canonicalPath_of_isFile {fs : FileSystem} {p : Path} (h : fs.isFile p = true) :
    ∃ e ∈ fs.entries, fs.canonicalPath p = .ofNames e.1 := by
  unfold FileSystem.isFile at h
  cases hentry : fs.entryAt p with
  | error e =>
    rw [hentry] at h
    cases h
  | ok entry =>
    obtain ⟨names, hresolve, hfound⟩ := FileSystem.entryAt_eq_ok.mp hentry
    obtain ⟨htrace, -⟩ := FileSystem.trace_of_resolve hresolve
    unfold FileSystem.find? at hfound
    split at hfound
    · -- the root is a directory
      cases hfound
      rw [hentry] at h
      cases h
    · obtain ⟨e, he, -⟩ := Option.map_eq_some_iff.mp hfound
      refine ⟨e, List.mem_of_find?_eq_some he, ?_⟩
      have hnames : e.1 = names := by simpa using List.find?_some he
      rw [FileSystem.canonicalPath, htrace, hnames]

/-- The canonical paths of all files that are not among the ones met. -/
def unmet (headers : Headers) (included : List Path) : List Path :=
  (headers.files.entries.map fun e => Path.ofNames e.1).filter fun p => !included.contains p

theorem length_unmet_le (headers : Headers) (included : List Path) :
    (headers.unmet included).length ≤ headers.files.entries.length := by
  have h := List.length_filter_le (fun p => !included.contains p)
    (headers.files.entries.map fun e => Path.ofNames e.1)
  rwa [List.length_map] at h

/-- What is met once more leaves no more files unmet, and one less if it is a file that was not met
    before. -/
theorem unmet_cons (header : Path) (included : List Path) :
    headers.unmet (header :: included) =
      (headers.unmet included).filter fun p => !(p == header) := by
  rw [unmet, unmet, List.filter_filter]
  refine List.filter_congr fun p _ => ?_
  rw [List.contains_cons, Bool.not_or]

theorem length_unmet_cons_le (header : Path) (included : List Path) :
    (headers.unmet (header :: included)).length ≤ (headers.unmet included).length := by
  rw [unmet_cons]
  exact List.length_filter_le _ _

theorem length_unmet_cons_lt {name : String} {quoted : Bool} {origin header : Path}
    (hfound : headers.find? name quoted origin = some header) {included : List Path}
    (hnew : included.contains header = false) :
    (headers.unmet (header :: included)).length < (headers.unmet included).length := by
  obtain ⟨p, hfile, rfl⟩ := find?_eq_some hfound
  obtain ⟨e, he, hpath⟩ := canonicalPath_of_isFile hfile
  rw [unmet_cons, List.length_filter_lt_length_iff_exists]
  refine ⟨headers.files.canonicalPath p, List.mem_filter.mpr ⟨?_, ?_⟩, ?_⟩
  · exact List.mem_map.mpr ⟨e, he, hpath.symm⟩
  · rw [hnew]
    rfl
  · simp

end Headers

namespace Lowering

open Lower (Same Keeps)

/-! ## The deepest level -/

/-- Fewer than so many files are not met yet. -/
def FewUnmet (headers : Headers) (n : Nat) (s : Lowering) : Prop :=
  (headers.unmet s.included).length < n

/-- What depends on the headers met alone is steady, if meeting one more keeps it. -/
theorem steady_included {P : List Path → Prop}
    (h : ∀ header included, P included → P (header :: included)) :
    Steady fun s => P s.included where
  push _ _ _ _ _ _ := .modifyGet fun _ hs => hs
  openScope _ _ := .modifyGet fun _ hs => hs
  setMembers _ _ := .modify fun _ hs => hs
  declare scope name cursor := .modify fun s hs => by
    have hbind : ∀ free : Bool, P (if free then
        { s with scopes := s.scopes.bind scope name cursor } else s).included := fun free => by
      cases free with
      | true => exact hs
      | false => exact hs
    split
    · exact hs
    · exact hbind _
  addSite _ _ _ _ := .modify fun _ hs => hs
  addForward _ _ _ := .modify fun _ hs => hs
  setType _ hint := by
    cases hint with
    | none => exact .pure _
    | some hint => exact .modify fun _ hs => hs
  expandIfMacro _ _ _ := .modifyGet fun s hs => by
    split
    · exact hs
    · exact hs
  flushExpansions := .modify fun _ hs => hs
  enter header depth := .modifyGet fun s hs => by
    split
    · exact hs
    · exact h header s.included hs
  own _ _ _ hs := hs
  setMacros _ _ hs := hs

theorem steady_fewUnmet (headers : Headers) (n : Nat) : Steady (FewUnmet headers n) :=
  steady_included fun header included h =>
    Nat.lt_of_le_of_lt (Headers.length_unmet_cons_le header included) h

/-- Lowers the items of a file with headers nested at most this deeply, and with some levels more
    than the tree is high; `base` is what is done beyond that. -/
def fileFrom (base : Descent) (extra : Nat) (headers : Headers) : Nat → Here → Lower Unit
  | 0, here => base.file here
  | n + 1, here =>
    let tree := here.source.tree
    (base.belowFrom headers (fileFrom base extra headers n) (tree.height + extra)).items tree here

/-- The state after all items of a unit, with headers nested at most this deeply. -/
def collectFrom (base : Descent) (extra : Nat) (headers : Headers) (n : Nat) (main : Source) :
    Lowering :=
  let lowered := do
    fileFrom base extra headers n ⟨main, 0, 0, Scopes.global⟩
    flushExpansions
  (lowered.run (start headers main)).2

theorem fileFrom_idle (headers : Headers) (n : Nat) :
    fileFrom .idle 0 headers n = file headers n := by
  induction n with
  | zero => rfl
  | succ n ih =>
    funext here
    rw [fileFrom, file, ih, Descent.belowFrom_idle]
    rfl

/-- **No lowering comes to its deepest level**, if that is deeper than there are files to meet. -/
theorem fileFrom_alike (headers : Headers) (base base' : Descent) (extra extra' n : Nat)
    {m m' : Nat} (hm : n ≤ m) (hm' : n ≤ m') {file : OpenFile} {K : Fact} {here : Here} {q : Path}
    (h : ((steady_fewUnmet headers n).lockstep headers headers).Stands file K here q) :
    ((steady_fewUnmet headers n).lockstep headers headers).Alike file K
      (fileFrom base extra headers m here)
      (fileFrom base' extra' headers m' (here.respelled q)) := by
  induction n generalizing m m' file K here q with
  | zero =>
    intro s s' hs
    exact absurd hs.2 (Nat.not_lt_zero _)
  | succ n ih =>
    obtain ⟨j, rfl⟩ := Nat.exists_eq_add_of_lt hm
    obtain ⟨j', rfl⟩ := Nat.exists_eq_add_of_lt hm'
    let W := (steady_fewUnmet headers (n + 1)).lockstep headers headers
    -- behind a directive that leads to a new header, there is one file less to meet
    have hmeets : W.MeetsBy (Same (FewUnmet headers n)) := by
      intro e header s s' depth hheader hnew hs
      obtain ⟨rfl, hfew⟩ := hs
      refine ⟨⟨rfl, ?_⟩, (Headers.Alike.refl headers).load hheader⟩
      rw [Headers.enter_run_of_new hnew]
      exact Nat.lt_of_lt_of_le (Headers.length_unmet_cons_lt hheader hnew)
        (Nat.le_of_lt_succ hfew)
    have hincludes : W.IncludesAlike (fileFrom base extra headers (n + j))
        (fileFrom base' extra' headers (n + j')) :=
      Lockstep.includesAlike (W := W) (steady_fewUnmet headers n).paired
        (Headers.Alike.refl headers).find hmeets (fun s s' hs => ⟨hs.1, Nat.lt_succ_of_lt hs.2⟩)
        fun h => ih (Nat.le_add_right n j) (Nat.le_add_right n j')
          ⟨h.path, h.source, h.depth, h.receives⟩
    exact (Lockstep.belowFrom hincludes base base' here.source.tree.height
      (Nat.le_add_right _ extra) (Nat.le_add_right _ extra')).items (Nat.le_succ _) h

/-- A lowering that may go deeper than there are files to meet ends as one that may not. -/
theorem collectFrom_eq_collect (headers : Headers) (main : Source) (base : Descent) (extra : Nat)
    {n : Nat} (hn : maxNesting headers ≤ n) :
    collectFrom base extra headers n main = collect headers main := by
  let W := (steady_fewUnmet headers (maxNesting headers)).lockstep headers headers
  have hfew : FewUnmet headers (maxNesting headers) (start headers main) :=
    Nat.lt_succ_of_le (Headers.length_unmet_le headers _)
  have hstart : W.R (start headers main) (start headers main) := ⟨rfl, hfew⟩
  have hends := W.main_ends main (q := main.path) rfl hstart fun h =>
    fileFrom_alike headers base .idle extra 0 (maxNesting headers) hn (Nat.le_refl _) h
  rw [fileFrom_idle] at hends
  exact hends.states.1.symm

end Lowering

/-! ## Include directives of a unit -/

namespace TranslationUnit

variable {u v : TranslationUnit}

/-- The include directives of a unit in order: what they name, and where they stand. -/
def directives (u : TranslationUnit) : List (String × Position) :=
  (List.range u.size).filterMap fun i =>
    if u.kind i = .inclusionDirective then some (u.spelling i, u.position i) else none

theorem directives_congr (hsize : v.size = u.size)
    (hkind : ∀ i < u.size, v.kind i = .inclusionDirective ↔ u.kind i = .inclusionDirective)
    (hspelling : ∀ i < u.size, v.spelling i = u.spelling i)
    (hposition : ∀ i < u.size, v.position i = u.position i) : v.directives = u.directives := by
  rw [directives, directives, hsize]
  refine List.filterMap_congr fun i hi => ?_
  have hi := List.mem_range.mp hi
  simp only [hkind i hi, hspelling i hi, hposition i hi]

theorem Grows.directives (h : u.Grows v) (hsize : v.size = u.size) : v.directives = u.directives :=
  directives_congr hsize (fun _ hi => by rw [h.kind hi]) (fun _ hi => h.spelling hi)
    fun _ hi => h.position hi

theorem Rebinds.directives (h : u.Rebinds v) : v.directives = u.directives := by
  refine directives_congr h.size (fun i _ => ⟨fun hv => ?_, fun hu => ?_⟩)
    (fun i _ => h.spelling i) fun i _ => h.position i
  · have hbinds := h.binds i
    rw [hv] at hbinds
    exact (hbinds.eq_of_exposed rfl CursorKind.noConfusion).symm
  · rw [h.kind (by rw [hu]; rfl), hu]

theorem directives_push (u : TranslationUnit) (p : Nat) (c : Cursor) :
    (u.push p c).directives = u.directives ++
      if c.kind = .inclusionDirective then [(c.spelling, c.position)] else [] := by
  have hold : (List.range u.size).filterMap (fun i =>
      if (u.push p c).kind i = .inclusionDirective then
        some ((u.push p c).spelling i, (u.push p c).position i) else none) = u.directives :=
    List.filterMap_congr fun i hi => by
      have hi := List.mem_range.mp hi
      have hg := Grows.push u p c
      rw [hg.kind hi, hg.spelling hi, hg.position hi]
  rw [directives, size_push, List.range_succ, List.filterMap_append, hold]
  congr 1
  have hnew := cursor_push u p c
  by_cases hkind : c.kind = .inclusionDirective
  · simp [kind, spelling, position, hnew, hkind]
  · simp [kind, hnew, hkind]

theorem directives_push_of_ne {c : Cursor} (h : c.kind ≠ .inclusionDirective) (p : Nat) :
    (u.push p c).directives = u.directives := by
  rw [directives_push, if_neg h, List.append_nil]

end TranslationUnit

namespace Lowering

variable {headers : Headers} {file : OpenFile} {s t : Lowering}

/-- What the cursor of a directive adds. -/
theorem Directive.directives_push (u : TranslationUnit) (parent : Nat) (e : Directive) :
    (u.push parent e.cursor).directives =
      u.directives ++ [(e.name, e.holder.source.position e.node)] :=
  (u.directives_push parent e.cursor).trans (congrArg _ (if_pos rfl))

/-- The changes within a file make no include directives. -/
theorem Change.directives (h : Change file s t) : t.unit.directives = s.unit.directives := by
  have hg := h.grows
  cases h with
  | push _ _ _ _ hkind =>
    refine TranslationUnit.directives_push_of_ne (fun h => ?_) _
    dsimp only at h
    rw [h] at hkind
    cases hkind
  | use _ _ _ _ hkind =>
    refine TranslationUnit.directives_push_of_ne (fun h => ?_) _
    dsimp only at h
    rw [h] at hkind
    cases hkind
  | forward _ _ _ hkind =>
    refine TranslationUnit.directives_push_of_ne (fun h => ?_) _
    dsimp only at h
    rw [h] at hkind
    cases hkind
  | own => exact hg.unit.directives (TranslationUnit.size_modify _ _ _)
  | flush =>
    refine Array.foldl_induction
      (fun _ (v : TranslationUnit) => v.directives = s.unit.directives) rfl fun _ v hv => ?_
    rw [addExpansion, TranslationUnit.directives_push_of_ne CursorKind.noConfusion, hv]
  | bind | define | undefine | expand | openScope | note => rfl

/-- The changes within a file meet no headers. -/
theorem Change.meets_nothing (h : Change file s t) :
    t.included = s.included ∧ t.unit.inclusions = s.unit.inclusions := by
  cases h with
  | flush =>
    refine ⟨rfl, Array.foldl_induction
      (fun _ (v : TranslationUnit) => v.inclusions = s.unit.inclusions) rfl fun _ v hv => ?_⟩
    exact hv
  | push | use | forward | own | bind | define | undefine | expand | openScope | note =>
    exact ⟨rfl, rfl⟩

/-! ## What becomes of headers -/

/-- The files that a lowering has opened, in order. -/
def openedIn (log : List Met) : List OpenFile := log.filterMap (·.opened)

theorem openedIn_snoc (log : List Met) (m : Met) :
    openedIn (log ++ [m]) = openedIn log ++ m.opened.toList := by
  rw [openedIn, openedIn, List.filterMap_append]
  cases hopened : m.opened <;> simp [hopened]

/-- The headers that can be read, as files to be lowered. -/
def readable (headers : Headers) (inclusions : List Inclusion) : List OpenFile :=
  inclusions.filterMap fun i => (headers.load i.path).map fun source =>
    { path := i.path, source, depth := i.depth }

/-- What the directives that a lowering has met say of the headers of a unit. -/
structure Expands (headers : Headers) (main : OpenFile) (u : TranslationUnit) (log : List Met) :
    Prop where
  /-- The unit has a cursor for each directive, in the order in which they were met. -/
  directives : u.directives =
    log.map fun m => (m.directive.name, m.directive.holder.source.position m.directive.node)
  /-- No two headers are the same file, and none is the main file. -/
  apart : (main.path :: u.inclusions.map (·.path)).Pairwise fun p q => (p == q) = false
  canonical : ∀ i ∈ u.inclusions, ∃ p, headers.files.isFile p = true ∧
    i.path = headers.files.canonicalPath p
  /-- Every header is opened once, when it is recorded, unless it cannot be read. -/
  opened : openedIn log = readable headers u.inclusions
  /-- A directive stands in the main file, or in one that was opened before. -/
  holders : ∀ before m after, log = before ++ m :: after →
    m.directive.holder = main ∨ m.directive.holder ∈ openedIn before
  /-- A header is recorded one level below the first directive that leads to it. -/
  first : ∀ i ∈ u.inclusions, ∃ before m after, log = before ++ m :: after ∧
    m.directive.header? headers = some i.path ∧ i.depth = m.directive.holder.depth + 1 ∧
    ∀ earlier ∈ before, ∀ header, earlier.directive.header? headers = some header →
      (header == i.path) = false
  /-- All that directives lead to is recorded, unless it is the main file. -/
  recorded : ∀ m ∈ log, ∀ header, m.directive.header? headers = some header →
    (header == main.path) = true ∨ ∃ i ∈ u.inclusions, (header == i.path) = true

/-- What a lowering keeps about headers, with the files that are open. -/
structure Expanding (headers : Headers) (main : OpenFile) (log : List Met) (c : Config) : Prop where
  expands : Expands headers main c.2.unit log
  included : c.2.included = (c.2.unit.inclusions.map (·.path)).reverse ++ [main.path]
  open_ : ∀ file ∈ c.1, file = main ∨ file ∈ openedIn log

namespace Expands

variable {main : OpenFile} {u v : TranslationUnit} {log : List Met}

theorem congr (h : Expands headers main u log) (hdirectives : v.directives = u.directives)
    (hinclusions : v.inclusions = u.inclusions) : Expands headers main v log where
  directives := hdirectives.trans h.directives
  apart := hinclusions ▸ h.apart
  canonical := hinclusions ▸ h.canonical
  opened := hinclusions ▸ h.opened
  holders := h.holders
  first := hinclusions ▸ h.first
  recorded := hinclusions ▸ h.recorded

end Expands

namespace Expanding

variable {main : OpenFile} {log : List Met} {files : List OpenFile}

/-- What was met is the main file or recorded. -/
theorem contains_iff (h : Expanding headers main log (files, s)) {header : Path} :
    s.included.contains header = true ↔
      (header == main.path) = true ∨ ∃ i ∈ s.unit.inclusions, (header == i.path) = true := by
  have hincluded : s.included = (s.unit.inclusions.map (·.path)).reverse ++ [main.path] :=
    h.included
  rw [hincluded, List.contains_eq_any_beq, List.any_append, List.any_reverse, List.any_map,
    Bool.or_eq_true, List.any_eq_true, or_comm]
  simp

/-- A change within a file keeps what is said of headers. -/
theorem change (hchange : Change file s t) (h : Expanding headers main log (file :: files, s)) :
    Expanding headers main log (file :: files, t) where
  expands := h.expands.congr hchange.directives hchange.meets_nothing.2
  included := by
    obtain ⟨hincluded, hinclusions⟩ := hchange.meets_nothing
    show t.included = _
    rw [hincluded, hinclusions]
    exact h.included
  open_ := h.open_

/-- A directive stands in the file that is open when it is met. -/
theorem holders_snoc (h : Expanding headers main log (files, s)) {m : Met}
    (hholder : m.directive.holder ∈ files) (before : List Met) (x : Met) (after : List Met)
    (hsplit : log ++ [m] = before ++ x :: after) :
    x.directive.holder = main ∨ x.directive.holder ∈ openedIn before := by
  rcases List.eq_nil_or_concat after with rfl | ⟨rest, y, rfl⟩
  · obtain ⟨rfl, hx⟩ := List.append_inj' hsplit rfl
    cases hx
    exact h.open_ _ hholder
  · rw [List.concat_eq_append, ← List.cons_append, ← List.append_assoc] at hsplit
    obtain ⟨hlog, -⟩ := List.append_inj' hsplit rfl
    exact h.expands.holders before x rest hlog

/-- The first directive to a header stays the first one. -/
theorem first_snoc (h : Expanding headers main log (files, s)) (m : Met) {i : Inclusion}
    (hi : i ∈ s.unit.inclusions) :
    ∃ before x after, log ++ [m] = before ++ x :: after ∧
      x.directive.header? headers = some i.path ∧ i.depth = x.directive.holder.depth + 1 ∧
      ∀ earlier ∈ before, ∀ header, earlier.directive.header? headers = some header →
        (header == i.path) = false := by
  obtain ⟨before, x, after, hlog, hx⟩ := h.expands.first i hi
  exact ⟨before, x, after ++ [m], by rw [hlog, List.append_assoc, List.cons_append], hx⟩

/-- A directive leaves a cursor, whatever it leads to. -/
theorem directives_snoc (h : Expanding headers main log (files, s)) (parent : Nat) (e : Directive)
    (inner : Option OpenFile) :
    (s.unit.push parent e.cursor).directives = (log ++ [(⟨e, inner⟩ : Met)]).map fun m =>
      (m.directive.name, m.directive.holder.source.position m.directive.node) := by
  have hpush := Directive.directives_push s.unit parent e
  rw [h.expands.directives] at hpush
  rw [List.map_append]
  exact hpush

/-- A header that is met for the first time is none of the files that were met. -/
theorem ne_of_new (h : Expanding headers main log (files, s)) {e : Directive} {header : Path}
    (hnew : e.new? headers s = some header) {p : Path}
    (hp : p = main.path ∨ ∃ i ∈ s.unit.inclusions, p = i.path) : (header == p) = false := by
  obtain ⟨-, hknown⟩ := Directive.new?_eq_some_iff.mp hnew
  refine Bool.eq_false_iff.mpr fun heq => ?_
  rw [h.contains_iff.mpr] at hknown
  · cases hknown
  · rcases hp with rfl | ⟨i, hi, rfl⟩
    · exact .inl heq
    · exact .inr ⟨i, hi, heq⟩

/-- No directive led to it before. -/
theorem not_led_to (h : Expanding headers main log (files, s)) {e : Directive} {header : Path}
    (hnew : e.new? headers s = some header) {m : Met} (hm : m ∈ log) {p : Path}
    (hp : m.directive.header? headers = some p) : (p == header) = false := by
  rw [BEq.comm]
  rcases h.expands.recorded m hm p hp with hmain | ⟨i, hi, hpath⟩
  · rw [BEq.congr_right hmain]
    exact h.ne_of_new hnew (.inl rfl)
  · rw [BEq.congr_right hpath]
    exact h.ne_of_new hnew (.inr ⟨i, hi, rfl⟩)

/-- A directive to a header that was met before, or to none. -/
theorem pass {e : Directive} {parent : Nat} (hnew : e.new? headers s = none)
    (h : Expanding headers main log (e.holder :: files, s)) :
    Expanding headers main (log ++ [⟨e, none⟩]) (e.holder :: files, meet headers s parent e) := by
  have hopened : openedIn (log ++ [⟨e, none⟩]) = openedIn log :=
    (openedIn_snoc log ⟨e, none⟩).trans (List.append_nil _)
  rw [meet_of_old hnew]
  refine ⟨⟨h.directives_snoc parent e none, h.expands.apart, h.expands.canonical,
    hopened.trans h.expands.opened, h.holders_snoc List.mem_cons_self,
    fun i hi => h.first_snoc _ hi, ?_⟩, h.included, ?_⟩
  · intro m hm header hheader
    rcases List.mem_append.mp hm with hm | hm
    · exact h.expands.recorded m hm header hheader
    · rw [List.mem_singleton.mp hm] at hheader
      refine h.contains_iff.mp (Bool.not_eq_false _ ▸ fun hknown => ?_)
      rw [Directive.new?_eq_some_iff.mpr ⟨hheader, hknown⟩] at hnew
      cases hnew
  · rw [hopened]
    exact h.open_

/-- A directive to a header that is met for the first time. -/
theorem meets {e : Directive} {header : Path} {parent : Nat} (hnew : e.new? headers s = some header)
    (h : Expanding headers main log (e.holder :: files, s)) :
    Expanding headers main (log ++ [⟨e, e.opens? headers s⟩])
      ((e.opens? headers s).toList ++ e.holder :: files, meet headers s parent e) := by
  obtain ⟨hheader, -⟩ := Directive.new?_eq_some_iff.mp hnew
  have hopens := Directive.opens?_of_new hnew
  rw [meet_of_new hnew]
  refine ⟨⟨h.directives_snoc parent e _, ?_, ?_, ?_, h.holders_snoc List.mem_cons_self, ?_, ?_⟩,
    ?_, ?_⟩
  · show (main.path :: (s.unit.inclusions ++
      [(⟨header, e.holder.depth + 1⟩ : Inclusion)]).map (·.path)).Pairwise _
    rw [List.map_append, ← List.cons_append, List.pairwise_append]
    refine ⟨h.expands.apart, List.pairwise_singleton _ _, fun p hp q hq => ?_⟩
    rw [List.mem_singleton.mp hq, BEq.comm]
    refine h.ne_of_new hnew ((List.mem_cons.mp hp).imp_right fun hp => ?_)
    obtain ⟨i, hi, rfl⟩ := List.mem_map.mp hp
    exact ⟨i, hi, rfl⟩
  · intro i hi
    rcases List.mem_append.mp hi with hi | hi
    · exact h.expands.canonical i hi
    · rw [List.mem_singleton.mp hi]
      exact Headers.find?_eq_some hheader
  · rw [openedIn_snoc, h.expands.opened]
    show _ = readable headers (s.unit.inclusions ++ [(⟨header, e.holder.depth + 1⟩ : Inclusion)])
    rw [readable, readable, List.filterMap_append, hopens]
    cases hload : headers.load header <;> simp [hload]
  · intro i hi
    rcases List.mem_append.mp hi with hi | hi
    · exact h.first_snoc _ hi
    · rw [List.mem_singleton.mp hi]
      exact ⟨log, _, [], rfl, hheader, rfl, fun m hm p hp => h.not_led_to hnew hm hp⟩
  · intro m hm p hp
    rcases List.mem_append.mp hm with hm | hm
    · refine (h.expands.recorded m hm p hp).imp_right fun ⟨i, hi, hpath⟩ => ?_
      exact ⟨i, List.mem_append_left _ hi, hpath⟩
    · rw [List.mem_singleton.mp hm] at hp
      cases hheader.symm.trans hp
      exact .inr ⟨_, List.mem_append_right _ List.mem_cons_self, BEq.refl header⟩
  · show header :: s.included = _
    have hincluded : s.included = _ := h.included
    rw [hincluded]
    show _ = ((s.unit.inclusions ++
      [(⟨header, e.holder.depth + 1⟩ : Inclusion)]).map (·.path)).reverse ++ _
    rw [List.map_append, List.reverse_append]
    rfl
  · intro f hf
    rw [openedIn_snoc, List.mem_append]
    rcases List.mem_append.mp hf with hf | hf
    · exact .inr (.inr hf)
    · exact (h.open_ f hf).imp_right .inl

/-- **Every step of a lowering keeps what is said of headers.** -/
theorem step {c d : Config} {met : List Met} (hstep : Step headers c met d)
    (h : Expanding headers main log c) : Expanding headers main (log ++ met) d := by
  cases hstep with
  | change hchange =>
    rw [List.append_nil]
    exact h.change hchange
  | directive e =>
    cases hnew : e.new? headers _ with
    | none =>
      rw [Directive.opens?_of_old hnew]
      exact h.pass hnew
    | some header => exact h.meets hnew
  | leave =>
    rw [List.append_nil]
    exact ⟨h.expands, h.included, fun f hf => h.open_ f (List.mem_cons_of_mem _ hf)⟩

end Expanding

/-- Nothing has been met before a main file is lowered. -/
theorem expanding_start (headers : Headers) (main : Source) :
    Expanding headers (.main headers main) [] ([.main headers main], start headers main) where
  expands :=
    { directives := rfl
      apart := List.pairwise_singleton _ _
      canonical := List.forall_mem_nil _
      opened := rfl
      holders := fun before m after h => by cases before <;> cases h
      first := List.forall_mem_nil _
      recorded := List.forall_mem_nil _ }
  included := rfl
  open_ file hfile := .inl (List.mem_singleton.mp hfile)

/-- There are no more headers than files. -/
theorem Expands.length_le {main : OpenFile} {u : TranslationUnit} {log : List Met}
    (h : Expands headers main u log) : u.inclusions.length ≤ headers.files.entries.length := by
  have hnodup : (u.inclusions.map (·.path)).Nodup :=
    (List.pairwise_cons.mp h.apart).2.imp fun {p q} hne heq => by
      rw [heq, BEq.refl q] at hne
      cases hne
  have hsubset : u.inclusions.map (·.path) ⊆ headers.files.entries.map fun e => .ofNames e.1 := by
    intro p hp
    obtain ⟨i, hi, rfl⟩ := List.mem_map.mp hp
    obtain ⟨file, hfile, hpath⟩ := h.canonical i hi
    obtain ⟨e, he, hcanonical⟩ := Headers.canonicalPath_of_isFile hfile
    exact List.mem_map.mpr ⟨e, he, (hpath.trans hcanonical).symm⟩
  have hle := (List.subperm_of_subset hnodup hsubset).length_le
  rwa [List.length_map, List.length_map] at hle

/-- **Headers are expanded once, and lowering ends.**  However deeply headers may nest beyond the
    number of files, and whatever would be done below the deepest level, the lowering of a unit is
    the same.  It is a run that meets directives one by one; and every such run opens each header
    that can be read once, where the first directive leads to it, one level below the file that
    holds that directive. -/
theorem collect_expands_headers (headers : Headers) (main : Source) :
    (∀ (base : Descent) (extra n : Nat), maxNesting headers ≤ n →
      collectFrom base extra headers n main = collect headers main) ∧
    (TranslationUnit.ofSource headers main).inclusions.length ≤ headers.files.entries.length ∧
    (∃ log, Runs headers ([.main headers main], start headers main) log
      ([.main headers main], collect headers main)) ∧
    ∀ log files, Runs headers ([.main headers main], start headers main) log
        (files, collect headers main) →
      Expands headers (.main headers main) (.ofSource headers main) log := by
  have hrebinds := TranslationUnit.rebinds_ofSource headers main
  have hexpands : ∀ log files, Runs headers ([.main headers main], start headers main) log
      (files, collect headers main) →
        Expands headers (.main headers main) (.ofSource headers main) log := fun log files hruns =>
    (hruns.keeps (I := Expanding headers (.main headers main)) (fun _ _ _ _ hstep h => h.step hstep)
      (expanding_start headers main)).expands.congr hrebinds.directives hrebinds.inclusions
  obtain ⟨log, hruns⟩ := (reaches_collect headers main).2 []
  exact ⟨fun base extra n hn => collectFrom_eq_collect headers main base extra hn,
    (hexpands log _ hruns).length_le, ⟨log, hruns⟩, hexpands⟩

/-- A header that includes itself and defines a macro. -/
def selfIncluding : Source where
  path := ⟨"/a.h"⟩
  text := "#include \"a.h\"\n#define A 1\n"
  tree :=
    .node "translation_unit" true 0 27 [] [] [
      .node "preproc_include" true 0 15 [(.path, [0])] [] [
        .node "string_literal" true 9 14 [] [] []],
      .node "preproc_def" true 15 27 [(.name, [0])] [] [
        .node "identifier" true 23 24 [] [] []]]

/-- That header, and a link to it. -/
def linkedHeaders : Headers where
  files := {
    entries := [(["a.h"], .file selfIncluding.text.toUTF8 ⟨0, 0⟩), (["b.h"], .link ⟨"a.h"⟩)] }
  includePaths := []
  load _ := some selfIncluding

/-- A file that includes the header under both names and uses the macro. -/
def macroUser : Source where
  path := ⟨"/a.cpp"⟩
  text := "#include \"a.h\"\n#include \"b.h\"\nint x = A;\n"
  tree :=
    .node "translation_unit" true 0 41 [] [] [
      .node "preproc_include" true 0 15 [(.path, [0])] [] [
        .node "string_literal" true 9 14 [] [] []],
      .node "preproc_include" true 15 30 [(.path, [0])] [] [
        .node "string_literal" true 24 29 [] [] []],
      .node "declaration" true 30 40 [(.type, [0]), (.declarator, [1])] [] [
        .node "primitive_type" true 30 33 [] [] [],
        .node "init_declarator" true 34 39 [(.declarator, [0]), (.value, [1])] [] [
          .node "identifier" true 34 35 [] [] [],
          .node "identifier" true 38 39 [] [] []]]]

/-- The unit of that file. -/
def macroUserUnit : TranslationUnit := .ofSource linkedHeaders macroUser

theorem collect_expands_linkedHeaders :
    maxNesting linkedHeaders ≤ 5 ∧
      collectFrom .idle 7 linkedHeaders 5 macroUser = collect linkedHeaders macroUser ∧
      macroUserUnit.inclusions.map (fun i => (i.path.text, i.depth)) = [("/a.h", 1)] ∧
      ∃ log, Expands linkedHeaders (.main linkedHeaders macroUser) macroUserUnit log := by
  obtain ⟨hdeep, -, ⟨log, hruns⟩, hexpands⟩ := collect_expands_headers linkedHeaders macroUser
  have hnesting : maxNesting linkedHeaders ≤ 5 := by decide
  exact ⟨hnesting, hdeep .idle 7 5 hnesting, by decide +kernel, log, hexpands log _ hruns⟩

end Lowering

end SymbolAtlas
