import SymbolAtlas.Frontend.Syntax
import SymbolAtlas.Proofs.RespelledUnits

/-!
# Headers from the cache

A parse that starts from a preamble takes its headers from a cache that outlives edits, deletions,
other preambles and other languages.  What is in the cache was read once, and the modification time
tells whether it still holds; so as long as a path never has two contents under one modification
time, the headers are what reading them afresh would give.  The cache tells files apart by the
components of their paths, so a header may come under another spelling.

* `FileSystem.Stamped` — what modification times have to be good for.
* `SyntaxFrontend.Step`, `SyntaxFrontend.run` — what happens to a frontend and to its files.
* `SyntaxFrontend.State.ReadAt` — all that is cached was read at some moment.

Principal result: `SyntaxFrontend.parse_withPreamble` — after every history, a parse with a preamble
fails for the preamble's sake, or gives what a parse without it gives.
-/

set_option autoImplicit false

namespace SymbolAtlas

/-! ## What options say -/

namespace ParseOptions

/-- No language or include path is asked for and then not given. -/
def Complete : List String → Bool
  | [] => true
  | [opt] => opt ≠ "-x" && opt ≠ "-I"
  | opt :: value :: rest =>
    if opt = "-x" ∨ opt = "-I" then Complete rest else Complete (value :: rest)

/-- Options that do not end in such a flag are complete. -/
theorem complete_of_getLast? (args : List String)
    (h : ∀ opt ∈ args.getLast?, opt ≠ "-x" ∧ opt ≠ "-I") : Complete args = true := by
  fun_induction Complete args with
  | case1 => rfl
  | case2 opt => simpa using h opt rfl
  | case3 opt value rest _ ih =>
    refine ih fun last hlast => h last ?_
    cases rest with
    | nil => cases hlast
    | cons => exact hlast
  | case4 opt value rest _ ih => exact ih fun last hlast => h last hlast

theorem preamble_readJoined (o : ParseOptions) (opt : String) :
    (o.readJoined opt).preamble = o.preamble := by
  unfold readJoined
  split
  · rfl
  · rfl

/-- Without the flag no preamble is asked for. -/
theorem preamble_readFrom (o : ParseOptions) (args : List String) (h : preambleFlag ∉ args) :
    (o.readFrom args).preamble = o.preamble := by
  fun_induction readFrom o args with
  | case1 => rfl
  | case2 => rfl
  | case3 => rfl
  | case4 => exact absurd List.mem_cons_self h
  | case5 o opt => exact preamble_readJoined o opt
  | case6 o value rest ih => exact ih fun hmem => h (.tail _ (.tail _ hmem))
  | case7 o value rest _ ih => exact ih fun hmem => h (.tail _ (.tail _ hmem))
  | case8 => exact absurd List.mem_cons_self h
  | case9 o opt value rest _ _ _ ih =>
    exact (ih fun hmem => h (.tail _ hmem)).trans (preamble_readJoined o opt)

/-- The flag and its value behind complete options ask for the preamble, and for nothing else. -/
theorem readFrom_append (o : ParseOptions) (args : List String) (p : Path)
    (hflag : preambleFlag ∉ args) (hcomplete : Complete args = true) :
    o.readFrom (args ++ [preambleFlag, p.text]) = { o.readFrom args with preamble := some p } := by
  fun_induction readFrom o args with
  | case1 o => rfl
  | case2 => cases hcomplete
  | case3 => cases hcomplete
  | case4 => exact absurd List.mem_cons_self hflag
  | case5 o opt hx hI hp =>
    show o.readFrom (opt :: preambleFlag :: [p.text]) = _
    rw [readFrom, if_neg hx, if_neg hI, if_neg hp]
    rfl
  | case6 o value rest ih =>
    exact ih (fun hmem => hflag (.tail _ (.tail _ hmem))) hcomplete
  | case7 o value rest hx ih =>
    exact ih (fun hmem => hflag (.tail _ (.tail _ hmem))) hcomplete
  | case8 => exact absurd List.mem_cons_self hflag
  | case9 o opt value rest hx hI hp ih =>
    show o.readFrom (opt :: value :: (rest ++ [preambleFlag, p.text])) = _
    rw [readFrom, if_neg hx, if_neg hI, if_neg hp]
    rw [Complete, if_neg (not_or.mpr ⟨hx, hI⟩)] at hcomplete
    exact ih (fun hmem => hflag (.tail _ hmem)) hcomplete

end ParseOptions

/-! ## Files under modification times -/

namespace FileSystem

/-- At these moments no path has two contents under one modification time: whenever it tells the
    same time, reading it gives the same. -/
def Stamped (moments : FileSystem → Prop) : Prop :=
  ∀ fs fs', moments fs → moments fs' → ∀ p stamp,
    fs.modified p = .ok stamp → fs'.modified p = .ok stamp → fs.readBytes p = fs'.readBytes p

variable {fs : FileSystem} {p : Path}

theorem entryAt_of_modified {stamp : Stamp} (h : fs.modified p = .ok stamp) :
    ∃ entry, fs.entryAt p = .ok entry := by
  cases hentry : fs.entryAt p with
  | ok entry => exact ⟨entry, rfl⟩
  | error e =>
    rw [modified, hentry] at h
    cases h

theorem entryAt_of_readBytes {bytes : ByteArray} (h : fs.readBytes p = .ok bytes) :
    ∃ stamp, fs.entryAt p = .ok (.file bytes stamp) := by
  rw [readBytes] at h
  cases hentry : fs.entryAt p with
  | error e =>
    rw [hentry] at h
    cases h
  | ok entry =>
    rw [hentry] at h
    cases entry with
    | file bytes' stamp =>
      cases h
      exact ⟨stamp, rfl⟩
    | directory => cases h
    | link => cases h

theorem readText_eq_ok {text : String} :
    fs.readText p = .ok text ↔
      ∃ bytes, fs.readBytes p = .ok bytes ∧ String.fromUTF8? bytes = some text := by
  unfold readText
  cases fs.readBytes p with
  | error e =>
    constructor
    · intro h
      cases h
    · rintro ⟨_, h, -⟩
      cases h
  | ok bytes =>
    simp only [bind, Except.bind]
    constructor
    · intro h
      refine ⟨bytes, rfl, ?_⟩
      cases htext : String.fromUTF8? bytes with
      | none =>
        rw [htext] at h
        cases h
      | some text =>
        rw [htext] at h
        cases h
        rfl
    · rintro ⟨_, h, htext⟩
      cases h
      rw [htext]
      rfl

end FileSystem

namespace SyntaxFrontend

variable {grammar : Grammar} {fs : FileSystem} {moments : FileSystem → Prop}

theorem readSource_eq_ok {p : Path} {language : Language} {source : Source} {stamp : Stamp} :
    readSource grammar fs p language = .ok (source, stamp) ↔
      ∃ bytes text, fs.readBytes p = .ok bytes ∧ String.fromUTF8? bytes = some text ∧
        text.utf8ByteSize ≤ Text.maxWord32 ∧ fs.modified p = .ok stamp ∧
        source = { path := p, text, tree := grammar language text } := by
  unfold readSource
  constructor
  · intro h
    split at h
    · cases h
    · rename_i text htext
      split at h
      · cases h
      · rename_i hsize
        split at h
        · cases h
        · rename_i stamp hstamp
          cases h
          obtain ⟨bytes, hbytes, htext⟩ := FileSystem.readText_eq_ok.mp htext
          exact ⟨bytes, text, hbytes, htext, Nat.le_of_not_lt hsize, hstamp, rfl⟩
  · rintro ⟨bytes, text, hbytes, htext, hsize, hstamp, rfl⟩
    simp only [FileSystem.readText_eq_ok.mpr ⟨bytes, hbytes, htext⟩, hstamp,
      if_neg (Nat.not_lt_of_le hsize)]

/-! ## What is in the cache -/

/-- Every cached header was read at one of these moments. -/
def State.ReadAt (grammar : Grammar) (moments : FileSystem → Prop) (s : State) : Prop :=
  ∀ h ∈ s.headers, ∃ fs, moments fs ∧
    readSource grammar fs h.path h.language = .ok (h.source, h.modified)

theorem readAt_header (hfs : moments fs) {s : State} (h : s.ReadAt grammar moments) (p : Path)
    (language : Language) : (header grammar fs s p language).2.ReadAt grammar moments := by
  unfold header
  split
  · exact h
  · split
    · exact h
    · split
      · exact h
      · rename_i source modified hread
        intro c hc
        rcases List.mem_append.mp hc with hc | hc
        · exact h c (List.mem_filter.mp hc).1
        · cases List.mem_singleton.mp hc
          exact ⟨fs, hfs, hread⟩

theorem readAt_refresh (hfs : moments fs) (language : Language) (paths : List Path) {s : State}
    (h : s.ReadAt grammar moments) :
    (refresh grammar fs language s paths).ReadAt grammar moments := by
  unfold refresh
  induction paths generalizing s with
  | nil => exact h
  | cons p paths ih => exact ih (readAt_header hfs h p language)

theorem readAt_loadPreamble (hfs : moments fs) {s s' : State} (h : s.ReadAt grammar moments)
    {p : Path} {language : Language} (hload : loadPreamble grammar fs s p language = .ok s') :
    s'.ReadAt grammar moments := by
  unfold loadPreamble at hload
  split at hload
  · cases hload
  · split at hload
    · cases hload
    · split at hload
      · cases hload
        exact readAt_refresh hfs _ _ h
      · cases hload

theorem readAt_parseIn (hfs : moments fs) {s : State} (h : s.ReadAt grammar moments) (file : Path)
    (o : ParseOptions) (language : Language) :
    (parseIn grammar fs s file o language).2.ReadAt grammar moments := by
  unfold parseIn
  simp only
  split
  · exact h
  · rename_i s' hready
    have hs' : s'.ReadAt grammar moments := by
      split at hready
      · exact readAt_loadPreamble hfs h hready
      · cases hready
        exact h
    split
    · exact hs'
    · simp only
      split
      · exact readAt_refresh hfs _ _ hs'
      · exact hs'

theorem readAt_parse {w : World State} (hw : moments w.files) (h : w.state.ReadAt grammar moments)
    (file : Path) (options : List String) :
    (parse grammar file options w).2.state.ReadAt grammar moments := by
  unfold parse
  simp only
  split
  · exact h
  · exact readAt_parseIn hw h _ _ _

theorem files_parse (grammar : Grammar) (file : Path) (options : List String) (w : World State) :
    (parse grammar file options w).2.files = w.files := by
  unfold parse
  simp only
  split
  · rfl
  · rfl

theorem readAt_collectHeaders {w : World State} (hw : moments w.files)
    (h : w.state.ReadAt grammar moments) (language : Language) (paths : List Path) :
    (collectHeaders grammar language paths w).2.state.ReadAt grammar moments := by
  unfold collectHeaders
  refine (List.foldlRecOn (motive := fun done : List Path × World State =>
    moments done.2.files ∧ done.2.state.ReadAt grammar moments) paths _ ⟨hw, h⟩ ?_).2
  rintro ⟨found, w⟩ ⟨hw, h⟩ p -
  have hread := readAt_header hw h p language
  simp only
  split
  · rename_i heq
    rw [heq] at hread
    exact ⟨hw, hread⟩
  · rename_i heq
    rw [heq] at hread
    exact ⟨hw, hread⟩

theorem readAt_buildPreamble {w : World State} (hw : moments w.files)
    (h : w.state.ReadAt grammar moments) (inputs : PreambleInputs) (options : List String)
    (output : Path) :
    (buildPreamble grammar inputs options output w).2.state.ReadAt grammar moments := by
  have hcollected := readAt_collectHeaders hw h
    (((ParseOptions.ofList options).language).getD .cxx) inputs.all
  unfold buildPreamble
  simp only
  split
  · exact hcollected
  · exact hcollected

/-! ## Histories -/

/-- One thing that happens to a frontend, or to the files that it reads. -/
inductive Step where
  | files (change : FileSystem → FileSystem)
  | parse (file : Path) (options : List String)
  | build (inputs : PreambleInputs) (options : List String) (output : Path)

/-- The world after a step. -/
def Step.apply (grammar : Grammar) (w : World State) : Step → World State
  | .files change => { w with files := change w.files }
  | .parse file options => (SyntaxFrontend.parse grammar file options w).2
  | .build inputs options output => (buildPreamble grammar inputs options output w).2

/-- The world after some steps, where nothing is cached at first. -/
def run (grammar : Grammar) (files : FileSystem) (steps : List Step) : World State :=
  steps.foldl (Step.apply grammar) { files, state := {} }

/-- The files before each step and at the end. -/
def met (grammar : Grammar) : World State → List Step → List FileSystem
  | w, [] => [w.files]
  | w, s :: steps => w.files :: met grammar (s.apply grammar w) steps

theorem readAt_apply {w : World State} (hw : moments w.files)
    (h : w.state.ReadAt grammar moments) (s : Step) :
    (s.apply grammar w).state.ReadAt grammar moments := by
  cases s with
  | files change => exact h
  | parse file options => exact readAt_parse hw h file options
  | build inputs options output => exact readAt_buildPreamble hw h inputs options output

theorem readAt_foldl {w : World State} {steps : List Step}
    (hmet : ∀ fs ∈ met grammar w steps, moments fs) (h : w.state.ReadAt grammar moments) :
    (steps.foldl (Step.apply grammar) w).state.ReadAt grammar moments ∧
      moments (steps.foldl (Step.apply grammar) w).files := by
  induction steps generalizing w with
  | nil => exact ⟨h, hmet _ (List.mem_singleton.mpr rfl)⟩
  | cons s steps ih =>
    exact ih (fun fs hfs => hmet fs (.tail _ hfs)) (readAt_apply (hmet _ (.head _)) h s)

/-- After every history, what is cached was read during it. -/
theorem readAt_run (grammar : Grammar) (files : FileSystem) (steps : List Step) :
    (run grammar files steps).state.ReadAt grammar
        (· ∈ met grammar { files, state := {} } steps) ∧
      (run grammar files steps).files ∈ met grammar { files, state := {} } steps :=
  readAt_foldl (fun _ hfs => hfs) fun _ hh => nomatch hh

/-! ## With a preamble and without -/

/-- What was read once, under the modification time that a path tells now, is what reading the path
    gives now; and the two paths are spellings of one. -/
theorem readSource_respelled (hstamped : FileSystem.Stamped moments) (hfs : moments fs)
    {past : FileSystem} (hpast : moments past) {p q : Path} (hp : p.isAbsolute = true)
    (hparts : p.parts = q.parts) {language : Language} {source : Source} {stamp : Stamp}
    (hread : readSource grammar past q language = .ok (source, stamp))
    (hmodified : fs.modified p = .ok stamp) :
    readSource grammar fs p language = .ok ({ source with path := p }, stamp) ∧ p.Respells q := by
  obtain ⟨bytes, text, hbytes, htext, hsize, hpastModified, rfl⟩ := readSource_eq_ok.mp hread
  -- The path led to a file once, so now it leads where the other spelling leads.
  obtain ⟨_, hpastFile⟩ := FileSystem.entryAt_of_readBytes hbytes
  have hq : q.Direct := FileSystem.direct_of_file (Path.isAbsolute_of_parts hparts hp) hpastFile
  obtain ⟨entry, hentry⟩ := FileSystem.entryAt_of_modified hmodified
  have hentry' : fs.entryAt q = .ok entry := FileSystem.entryAt_respelled hq hp hparts hentry
  have hmodified' : fs.modified q = fs.modified p := by
    rw [FileSystem.modified, FileSystem.modified, hentry, hentry']
  have hbytes' : fs.readBytes q = fs.readBytes p := by
    rw [FileSystem.readBytes, FileSystem.readBytes, hentry, hentry']
  have hnow : fs.readBytes p = .ok bytes := by
    rw [← hbytes', hstamped fs past hfs hpast q stamp (hmodified'.trans hmodified) hpastModified,
      hbytes]
  obtain ⟨_, hfile⟩ := FileSystem.entryAt_of_readBytes hnow
  exact ⟨readSource_eq_ok.mpr ⟨bytes, text, hnow, htext, hsize, hmodified, rfl⟩,
    (FileSystem.direct_of_file hp hfile).respells hq hparts⟩

/-- A header from the cache is what reading it gives, except that it may be spelled otherwise. -/
theorem header_agrees (hstamped : FileSystem.Stamped moments) (hfs : moments fs) {s : State}
    (h : s.ReadAt grammar moments) {p : Path} (hp : p.isAbsolute = true) (language : Language) :
    ((readSource grammar fs p language).toOption = none ∧
        (header grammar fs s p language).1.toOption = none) ∨
      ∃ source stamp q, readSource grammar fs p language = .ok (source, stamp) ∧
        (header grammar fs s p language).1 = .ok { source with path := q } ∧
        source.path.Respells q := by
  unfold header
  cases hmodified : fs.modified p with
  | error e =>
    refine .inl ⟨?_, rfl⟩
    cases hread : readSource grammar fs p language with
    | error e => rfl
    | ok read =>
      obtain ⟨_, _, _, _, _, hstamp, _⟩ := readSource_eq_ok.mp hread
      rw [hmodified] at hstamp
      cases hstamp
  | ok stamp =>
    simp only
    cases hcached : (s.find? p language).filter (·.modified = stamp) with
    | none =>
      cases hread : readSource grammar fs p language with
      | error e => exact .inl ⟨rfl, rfl⟩
      | ok read => exact .inr ⟨read.1, read.2, read.1.path, rfl, rfl, .refl _⟩
    | some cached =>
      obtain ⟨hfound, hstamp⟩ := Option.filter_eq_some_iff.mp hcached
      have hsame := List.find?_some hfound
      simp only [Bool.and_eq_true, decide_eq_true_eq, Path.beq_iff_parts] at hsame hstamp
      obtain ⟨hparts, rfl⟩ := hsame
      obtain ⟨past, hpast, hread⟩ := h cached (List.mem_of_find?_eq_some hfound)
      obtain ⟨_, _, _, _, _, _, hsource⟩ := readSource_eq_ok.mp hread
      obtain ⟨hnow, hrespells⟩ := readSource_respelled hstamped hfs hpast hp hparts.symm hread
        (hmodified.trans (congrArg Except.ok hstamp.symm))
      exact .inr ⟨_, _, cached.path, hnow, congrArg Except.ok (by rw [hsource]), hrespells⟩

/-- An artifact can be read, and is for a language. -/
def Serves (fs : FileSystem) (p : Path) (language : Language) : Prop :=
  ∃ bytes m, fs.readBytes p = .ok bytes ∧ PreambleManifest.ofBytes bytes = .ok m ∧
    m.language = language

theorem loadPreamble_cases (grammar : Grammar) (fs : FileSystem) (s : State) (p : Path)
    (language : Language) :
    (Serves fs p language ∧ ∃ s', loadPreamble grammar fs s p language = .ok s') ∨
      (¬ Serves fs p language ∧
        ∃ text, loadPreamble grammar fs s p language = .error (.preamble p text)) := by
  unfold loadPreamble
  cases hbytes : fs.readBytes p with
  | error e =>
    refine .inr ⟨?_, _, rfl⟩
    rintro ⟨bytes, _, h, _⟩
    rw [hbytes] at h
    cases h
  | ok bytes =>
    simp only
    cases hm : PreambleManifest.ofBytes bytes with
    | error e =>
      refine .inr ⟨?_, _, rfl⟩
      rintro ⟨bytes', m, h, hm', _⟩
      rw [hbytes] at h
      cases h
      rw [hm] at hm'
      cases hm'
    | ok m =>
      simp only
      split
      · rename_i hlanguage
        exact .inl ⟨⟨bytes, m, hbytes, hm, hlanguage⟩, _, rfl⟩
      · rename_i hlanguage
        refine .inr ⟨?_, _, rfl⟩
        rintro ⟨bytes', m', h, hm', hlanguage'⟩
        rw [hbytes] at h
        cases h
        rw [hm] at hm'
        cases hm'
        exact hlanguage hlanguage'

/-- The same error, or units that are the same but for the spelling of files. -/
inductive SameAnswer :
    Except FrontendError TranslationUnit → Except FrontendError TranslationUnit → Prop where
  | error (e : FrontendError) : SameAnswer (.error e) (.error e)
  | unit {u v : TranslationUnit} (h : u.Respells v) : SameAnswer (.ok u) (.ok v)

theorem find?_respelled {headers headers' : Headers} (hfiles : headers'.files = headers.files)
    (hpaths : headers'.includePaths = headers.includePaths) (name : String) (quoted : Bool)
    {p q : Path} (h : p.Respells q) :
    headers'.find? name quoted q = headers.find? name quoted p := by
  have hparent : q.parent? = p.parent? := by rw [Path.parent?, Path.parent?, h.parts]
  unfold Headers.find?
  rw [hfiles, hpaths, hparent]

theorem isAbsolute_of_find? {headers : Headers} {name : String} {quoted : Bool} {origin p : Path}
    (h : headers.find? name quoted origin = some p) : p.isAbsolute = true := by
  have hnames : ∀ names, (Path.ofNames names).isAbsolute = true := fun names => by
    simp [Path.ofNames, Path.isAbsolute]
  obtain ⟨found, -, rfl⟩ := Option.map_eq_some_iff.mp h
  unfold FileSystem.canonicalPath
  split
  · exact hnames _
  · exact hnames _

/-- The headers that come through the cache are those that are read afresh. -/
theorem headers_alike (hstamped : FileSystem.Stamped moments) (hfs : moments fs) {s : State}
    (h : s.ReadAt grammar moments) (includePaths : List Path) (language : Language) :
    Headers.Alike Path.Respells
      { files := fs, includePaths,
        load := fun path => (readSource grammar fs path language).toOption.map (·.1) }
      { files := fs, includePaths,
        load := fun path => (header grammar fs s path language).1.toOption } where
  files := rfl
  find name quoted _ _ hpq := find?_respelled rfl rfl name quoted hpq
  load {_ _ _ p} hfound := by
    obtain ⟨hread, hheader⟩ | ⟨source, stamp, q, hread, hheader, hq⟩ :=
      header_agrees hstamped hfs h (isAbsolute_of_find? hfound) language
    · exact .inl ⟨congrArg (Option.map Prod.fst) hread, hheader⟩
    · exact .inr ⟨source, q, congrArg (fun r => r.toOption.map Prod.fst) hread,
        congrArg Except.toOption hheader, hq⟩

/-- A parse with a preamble fails for the preamble's sake, or gives what a parse without it
    gives. -/
theorem parseIn_agrees (hstamped : FileSystem.Stamped moments) (hfs : moments fs) {s : State}
    (h : s.ReadAt grammar moments) (file : Path) {o : ParseOptions} (ho : o.preamble = none)
    (p : Path) (language : Language) :
    (¬ Serves fs p language ∧ ∃ text,
      (parseIn grammar fs s file { o with preamble := some p } language).1
        = .error (.preamble p text)) ∨
    (Serves fs p language ∧
      SameAnswer (parseIn grammar fs s file o language).1
        (parseIn grammar fs s file { o with preamble := some p } language).1) := by
  unfold parseIn
  simp only [ho]
  obtain ⟨hserves, s', hload⟩ | ⟨hserves, text, hload⟩ :=
    loadPreamble_cases grammar fs s p language
  · refine .inr ⟨hserves, ?_⟩
    rw [hload]
    simp only
    cases readSource grammar fs (fs.canonicalPath file) language with
    | error e => exact .error e
    | ok read =>
      exact .unit (TranslationUnit.respells_ofSource
        (headers_alike hstamped hfs (readAt_loadPreamble hfs h hload) _ _) _)
  · refine .inl ⟨hserves, text, ?_⟩
    rw [hload]

theorem parseIn_plain_ne_preamble (s : State) (file : Path) {o : ParseOptions}
    (ho : o.preamble = none) (language : Language) (p : Path) (text : String) :
    (parseIn grammar fs s file o language).1 ≠ .error (.preamble p text) := by
  unfold parseIn
  simp only [ho]
  cases hread : readSource grammar fs (fs.canonicalPath file) language with
  | ok read => exact fun h => nomatch h
  | error e =>
    intro h
    cases h
    unfold readSource at hread
    split at hread
    · cases hread
    · split at hread
      · cases hread
      · split at hread
        · cases hread
        · cases hread

theorem result_parse (grammar : Grammar) (file : Path) (options : List String) (w : World State) :
    (parse grammar file options w).1 =
      match (ParseOptions.ofList options).language <|> Language.ofPath? file with
      | none => .error (.unsupported file)
      | some language =>
        (parseIn grammar w.files w.state file (ParseOptions.ofList options) language).1 := by
  unfold parse
  simp only
  cases (ParseOptions.ofList options).language <|> Language.ofPath? file with
  | none => rfl
  | some language => rfl

/-- A parse with a preamble agrees with the parse without it, if what is cached was read at moments
    that modification times tell apart. -/
theorem parse_agrees (hstamped : FileSystem.Stamped moments) {w : World State}
    (hw : moments w.files) (hread : w.state.ReadAt grammar moments) (file : Path)
    {args : List String} (hflag : preambleFlag ∉ args)
    (hcomplete : ParseOptions.Complete args = true) (p : Path) :
    let plain := (parse grammar file args w).1
    let cached := (parse grammar file (args ++ [preambleFlag, p.text]) w).1
    ((∃ q text, cached = .error (.preamble q text)) ↔
      ∃ language, ((ParseOptions.ofList args).language <|> Language.ofPath? file) = some language ∧
        ¬ Serves w.files p language) ∧
    ((∃ text, cached = .error (.preamble p text)) ∨ SameAnswer plain cached) := by
  intro plain cached
  have ho : (ParseOptions.ofList args).preamble = none :=
    ParseOptions.preamble_readFrom {} args hflag
  have hoptions : ParseOptions.ofList (args ++ [preambleFlag, p.text])
      = { ParseOptions.ofList args with preamble := some p } :=
    ParseOptions.readFrom_append {} args p hflag hcomplete
  have hplain : plain = _ := result_parse grammar file args w
  have hcached : cached = _ := result_parse grammar file (args ++ [preambleFlag, p.text]) w
  rw [hplain, hcached, hoptions]
  cases (ParseOptions.ofList args).language <|> Language.ofPath? file with
  | none =>
    refine ⟨⟨?_, ?_⟩, .inr (.error _)⟩
    · rintro ⟨_, _, h⟩
      cases h
    · rintro ⟨_, h, _⟩
      cases h
  | some language =>
    simp only
    obtain ⟨hserves, text, herror⟩ | ⟨hserves, hsame⟩ :=
      parseIn_agrees hstamped hw hread file ho p language
    · exact ⟨⟨fun _ => ⟨language, rfl, hserves⟩, fun _ => ⟨p, text, herror⟩⟩, .inl ⟨text, herror⟩⟩
    · refine ⟨⟨?_, ?_⟩, .inr hsame⟩
      · rintro ⟨q, text, h⟩
        rw [h] at hsame
        generalize hp : (parseIn grammar w.files w.state file (ParseOptions.ofList args)
          language).1 = answer at hsame
        cases hsame
        exact absurd hp (parseIn_plain_ne_preamble _ file ho language q text)
      · rintro ⟨language', h, hnot⟩
        cases h
        exact absurd hserves hnot

/-- **After every history, a parse with a preamble agrees with the parse without it.**  It fails for
    the preamble's sake exactly if the language is known and the artifact does not serve it, and
    otherwise it gives the same error, or the same unit but for the spelling of files. -/
theorem parse_withPreamble (grammar : Grammar) (files : FileSystem) (steps : List Step)
    (hstamped : FileSystem.Stamped (· ∈ met grammar { files, state := {} } steps)) (file : Path)
    (args : List String) (hflag : preambleFlag ∉ args)
    (hcomplete : ParseOptions.Complete args = true) (p : Path) :
    let w := run grammar files steps
    let plain := (parse grammar file args w).1
    let cached := (parse grammar file (args ++ [preambleFlag, p.text]) w).1
    ((∃ q text, cached = .error (.preamble q text)) ↔
      ∃ language, ((ParseOptions.ofList args).language <|> Language.ofPath? file) = some language ∧
        ¬ Serves w.files p language) ∧
    ((∃ text, cached = .error (.preamble p text)) ∨ SameAnswer plain cached) :=
  have hrun := readAt_run grammar files steps
  parse_agrees hstamped hrun.2 hrun.1 file hflag hcomplete p

/-! ### A header under two spellings -/

/-- Trees of files that declare one variable of type int, and of files that include one header by
    its quoted name. -/
def lineGrammar : Grammar := fun _ text =>
  let width := text.utf8ByteSize
  if text.toList.take 4 = ['i', 'n', 't', ' '] then
    .node "translation_unit" true 0 width [] [] [
      .node "declaration" true 0 (width - 1) [(.type, [0]), (.declarator, [1])] [] [
        .node "primitive_type" true 0 3 [] [] [],
        .node "identifier" true 4 (width - 2) [] [] []]]
  else
    .node "translation_unit" true 0 width [] [] [
      .node "preproc_include" true 0 (width - 1) [(.path, [0])] [] [
        .node "string_literal" true 9 (width - 1) [] [] []]]

/-- A file, a header beside it, and a preamble that lists the header with a doubled separator. -/
def doubledFiles : FileSystem where
  entries := [
    (["w"], .directory),
    (["w", "h.h"], .file "int h;\n".toUTF8 ⟨1, 0⟩),
    (["w", "a.cpp"], .file "#include \"h.h\"\n".toUTF8 ⟨1, 0⟩),
    (["w", "p.pch"], .file doubledManifest.toJson.pretty.toUTF8 ⟨1, 0⟩)]
where
  /-- What the preamble says. -/
  doubledManifest : PreambleManifest :=
    { language := .cxx, options := ["-x", "c++"], headers := [⟨"/w//h.h"⟩] }

/-- How the file of the third cursor is spelled, which is the variable. -/
def variableFile (answer : Except FrontendError TranslationUnit) : Option String :=
  match answer with
  | .ok u => (u.position 2).file.map (·.text)
  | .error _ => none

/-- The file is parsed with the preamble, and that leaves the files as they are. -/
theorem stamped_doubledFiles : FileSystem.Stamped (· ∈ met lineGrammar
    { files := doubledFiles, state := {} }
    [.parse ⟨"/w/a.cpp"⟩ ["-x", "c++", preambleFlag, "/w/p.pch"]]) := by
  have hmet : ∀ fs ∈ met lineGrammar { files := doubledFiles, state := {} }
      [.parse ⟨"/w/a.cpp"⟩ ["-x", "c++", preambleFlag, "/w/p.pch"]], fs = doubledFiles := by
    intro fs hfs
    rcases List.mem_cons.mp hfs with rfl | hfs
    · rfl
    · rw [List.mem_singleton.mp hfs]
      exact files_parse _ _ _ _
  intro fs fs' hfs hfs' p stamp _ _
  rw [hmet fs hfs, hmet fs' hfs']

theorem variableFile_doubledFiles :
    variableFile (parse lineGrammar ⟨"/w/a.cpp"⟩ ["-x", "c++", preambleFlag, "/w/p.pch"]
      (run lineGrammar doubledFiles
        [.parse ⟨"/w/a.cpp"⟩ ["-x", "c++", preambleFlag, "/w/p.pch"]])).1 = some "/w//h.h" := by
  decide +kernel

/-- Not everything is the same: a position tells how the preamble spells the header. -/
theorem parse_withPreamble_spelling :
    ¬ ∀ (grammar : Grammar) (files : FileSystem) (steps : List Step),
      FileSystem.Stamped (· ∈ met grammar { files, state := {} } steps) →
      ∀ (file : Path) (args : List String), preambleFlag ∉ args →
        (∀ opt ∈ args.getLast?, opt ≠ "-x" ∧ opt ≠ "-I") → ∀ p : Path,
        let w := run grammar files steps
        let plain := (parse grammar file args w).1
        let cached := (parse grammar file (args ++ [preambleFlag, p.text]) w).1
        (∃ q text, cached = .error (.preamble q text)) ∨ cached = plain := by
  intro h
  obtain ⟨q, text, herror⟩ | hsame := h lineGrammar doubledFiles _ stamped_doubledFiles
    ⟨"/w/a.cpp"⟩ ["-x", "c++"] (by decide) (by decide) ⟨"/w/p.pch"⟩
  · cases variableFile_doubledFiles.symm.trans (congrArg variableFile herror)
  · have hspelled := variableFile_doubledFiles.symm.trans (congrArg variableFile hsame)
    revert hspelled
    decide +kernel

/-- Parsed again, the file has its variable in the header under the spelling of the preamble; the
    preamble serves. -/
theorem parse_withPreamble_doubled :
    let w := run lineGrammar doubledFiles
      [.parse ⟨"/w/a.cpp"⟩ ["-x", "c++", preambleFlag, "/w/p.pch"]]
    SameAnswer (parse lineGrammar ⟨"/w/a.cpp"⟩ ["-x", "c++"] w).1
      (parse lineGrammar ⟨"/w/a.cpp"⟩ ["-x", "c++", preambleFlag, "/w/p.pch"] w).1 := by
  intro w
  have hagrees := (parse_withPreamble lineGrammar doubledFiles _ stamped_doubledFiles
    ⟨"/w/a.cpp"⟩ ["-x", "c++"] (by decide) (by decide) ⟨"/w/p.pch"⟩).2
  refine hagrees.resolve_left ?_
  rintro ⟨text, herror⟩
  cases variableFile_doubledFiles.symm.trans (congrArg variableFile herror)

end SyntaxFrontend

end SymbolAtlas
