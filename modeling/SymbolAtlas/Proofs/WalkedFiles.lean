import SymbolAtlas.Discovery.Sources
import SymbolAtlas.Proofs.RememberedPaths

/-!
# Files that a walk finds

A walk spells what it finds as the directory it began at, followed by the names of the way down.
No link is among those names, so the file lies where the directory leads to, followed by the same
names; this is also its canonical path.

* `FileSystem.WellFormed` — a file system as a machine has one.
* `FileSystem.LeadsBelow` — a file that lies below a directory as it is spelled.

Principal results: `Path.parts_join` — a name behind a path is one more component of it;
`FileSystem.trace_join` — it leads to what the directory holds under the name;
`DiscoveryConfig.below_of_mem_sources` — every source lies below its input as it is spelled.
-/

set_option autoImplicit false

namespace SymbolAtlas

/-! ## A name behind a path -/

namespace Path

theorem segments_ne_nil (cs : List Char) : segments cs ≠ [] := by
  cases cs with
  | nil => exact List.cons_ne_nil _ _
  | cons c rest =>
    by_cases hc : c = '/'
    · rw [segments, if_pos hc]
      exact List.cons_ne_nil _ _
    · obtain ⟨front, more, -, hsegs⟩ := segments_cons hc rest
      rw [hsegs]
      exact List.cons_ne_nil _ _

theorem segments_append_separator (cs rest : List Char) :
    segments (cs ++ '/' :: rest) = segments cs ++ segments rest := by
  induction cs with
  | nil => exact if_pos rfl
  | cons c cs ih =>
    by_cases hc : c = '/'
    · rw [List.cons_append, segments, if_pos hc, ih, segments, if_pos hc, List.cons_append]
    · obtain ⟨front, more, hrest, hsegs⟩ := segments_cons hc cs
      rw [List.cons_append, segments, if_neg hc, ih, hsegs, hrest, List.cons_append,
        List.cons_append]

/-- The components that segments spell, the first of them at the start of a path. -/
def partsFrom (absolute : Bool) (segs : List (List Char)) : List Part :=
  if absolute then .root :: segs.filterMap innerPart
  else match segs with
    | ['.'] :: rest => .here :: rest.filterMap innerPart
    | _ => segs.filterMap innerPart

theorem parts_eq_partsFrom (p : Path) :
    p.parts = partsFrom p.isAbsolute (segments p.text.toList) := rfl

/-- Only the first segment is read in a way of its own. -/
theorem partsFrom_append {segs : List (List Char)} (hne : segs ≠ []) (absolute : Bool)
    (more : List (List Char)) :
    partsFrom absolute (segs ++ more) = partsFrom absolute segs ++ more.filterMap innerPart := by
  obtain ⟨seg, rest, rfl⟩ := List.exists_cons_of_ne_nil hne
  have happend : (seg :: rest ++ more).filterMap innerPart =
      (seg :: rest).filterMap innerPart ++ more.filterMap innerPart := List.filterMap_append
  unfold partsFrom
  cases absolute with
  | true => exact congrArg (Part.root :: ·) happend
  | false =>
    by_cases hdot : seg = ['.']
    · subst hdot
      exact congrArg (Part.here :: ·) List.filterMap_append
    · simpa [hdot] using happend

variable {p : Path} {s : String}

/-- The name is a segment of its own; a separator at the end of the path is the one before it. -/
theorem segments_join (hp : p.text ≠ "") (hs : Proper s) :
    (p.join ⟨s⟩).isAbsolute = p.isAbsolute ∧
      ∃ front, front ≠ [] ∧ segments (p.join ⟨s⟩).text.toList = front ++ [s.toList] ∧
        (segments p.text.toList = front ∨ segments p.text.toList = front ++ [[]]) := by
  have hrelative : (⟨s⟩ : Path).isAbsolute = false := by
    rw [isAbsolute]
    cases hhead : s.toList.head? with
    | none => rfl
    | some c =>
      have hc : c ≠ '/' := fun heq => hs.whole (heq ▸ List.mem_of_head? hhead)
      simpa using hc
  obtain ⟨c, rest, htext⟩ : ∃ c rest, p.text.toList = c :: rest :=
    List.exists_cons_of_ne_nil (mt String.toList_eq_nil_iff.mp hp)
  have hlast : segments s.toList = [s.toList] := segments_of_not_slash hs.whole
  have hempty : p.text.isEmpty = false := by simpa using hp
  unfold join
  rw [if_neg (by rw [hrelative]; exact Bool.false_ne_true), hempty, Bool.false_or]
  split
  · rename_i hslash
    obtain ⟨front, hfront⟩ := List.getLast?_eq_some_iff.mp (eq_of_beq hslash)
    refine ⟨?_, segments front, segments_ne_nil front, ?_, .inr ?_⟩
    · simp [isAbsolute, htext]
    · rw [String.toList_append, hfront, List.append_assoc, List.singleton_append,
        segments_append_separator, hlast]
    · rw [hfront, segments_append_separator]
      rfl
  · refine ⟨?_, segments p.text.toList, segments_ne_nil _, ?_, .inl rfl⟩
    · simp [isAbsolute, htext]
    · rw [String.toList_append, String.toList_append, List.append_assoc,
        show "/".toList = ['/'] from rfl, List.singleton_append, segments_append_separator, hlast]

/-- A name behind a path is one more component of it. -/
theorem parts_join (hp : p.text ≠ "") (hs : Proper s) :
    (p.join ⟨s⟩).parts = p.parts ++ [.name s] := by
  obtain ⟨habsolute, front, hne, hjoin, hfront⟩ := segments_join hp hs
  have hname : [s.toList].filterMap innerPart = [.name s] := by
    rw [List.filterMap_cons_some (innerPart_of_proper hs), List.filterMap_nil]
  have hparts : p.parts = partsFrom p.isAbsolute front := by
    rw [parts_eq_partsFrom]
    rcases hfront with hfront | hfront
    · rw [hfront]
    · rw [hfront, partsFrom_append hne]
      exact List.append_nil _
  rw [parts_eq_partsFrom, habsolute, hjoin, partsFrom_append hne, hname, hparts]

theorem stepsOf_concat (hs : Proper s) (segs : List (List Char)) (named : Bool) :
    ∃ front, stepsOf named (segs ++ [s.toList]) = front ++ [.name s] := by
  induction segs generalizing named with
  | nil => exact ⟨[], stepsOf_proper (fun _ ht => List.mem_singleton.mp ht ▸ hs) named⟩
  | cons seg segs ih =>
    rw [List.cons_append]
    have hne : (segs ++ [s.toList]).isEmpty = false := by simp
    unfold stepsOf
    split
    · cases ‹_ :: _ = []›
    · rename_i heq
      obtain ⟨rfl, rfl⟩ := List.cons.inj heq
      rw [hne, Bool.false_and, if_neg Bool.false_ne_true]
      exact ih _
    · rename_i heq
      obtain ⟨rfl, rfl⟩ := List.cons.inj heq
      obtain ⟨front, hfront⟩ := ih false
      exact ⟨.here :: front, congrArg (Step.here :: ·) hfront⟩
    · rename_i heq
      obtain ⟨rfl, rfl⟩ := List.cons.inj heq
      obtain ⟨front, hfront⟩ := ih false
      exact ⟨.up :: front, congrArg (Step.up :: ·) hfront⟩
    · rename_i heq
      obtain ⟨rfl, rfl⟩ := List.cons.inj heq
      obtain ⟨front, hfront⟩ := ih true
      exact ⟨.name (String.ofList _) :: front, congrArg (Step.name _ :: ·) hfront⟩

/-- The last step of a path with a name behind it is the name. -/
theorem arrives_join (hp : p.text ≠ "") (hs : Proper s) : Arrives (p.join ⟨s⟩).steps := by
  obtain ⟨-, segs, -, hsegs, -⟩ := segments_join hp hs
  obtain ⟨front, hfront⟩ := stepsOf_concat hs segs false
  have hlast : ∃ front, (p.join ⟨s⟩).steps = front ++ [.name s] := by
    unfold steps
    rw [hsegs, hfront]
    split
    · exact ⟨.root :: front, rfl⟩
    · exact ⟨front, rfl⟩
  obtain ⟨front, hfront⟩ := hlast
  intro step hstep
  rw [hfront, List.getLast?_concat] at hstep
  cases hstep
  rfl

theorem moves_join (hp : p.text ≠ "") (hs : Proper s) :
    moves (p.join ⟨s⟩).steps = moves p.steps ++ [.name s] := by
  rw [moves_steps_parts, moves_steps_parts p, parts_join hp hs, List.map_append, moves, moves,
    List.filter_append]
  rfl

/-- A name that an entry of a directory can have. -/
structure IsName (s : String) : Prop extends Proper s where
  printable : '\x00' ∉ s.toList
  short : s.utf8ByteSize ≤ FileSystem.maxNameBytes

end Path

/-! ## Names inside a directory -/

namespace FileSystem

open SymbolAtlas.Path (Step Proper IsName moves)

/-- A file system as a machine has one: the current directory is named without links, nothing has
    two entries, and entries have names. -/
structure WellFormed (fs : FileSystem) : Prop where
  here : fs.Real fs.cwd
  once : (fs.entries.map (·.1)).Nodup
  named : ∀ e ∈ fs.entries, ∀ s ∈ e.1, IsName s

variable {fs : FileSystem} {names names' : List String} {s : String} {entry : Entry}

theorem isFile_iff {p : Path} :
    fs.isFile p = true ↔ ∃ bytes stamp, fs.entryAt p = .ok (.file bytes stamp) := by
  unfold isFile
  split
  · rename_i bytes stamp hentry
    exact iff_of_true rfl ⟨bytes, stamp, hentry⟩
  · rename_i hother
    exact iff_of_false Bool.false_ne_true fun ⟨bytes, stamp, hentry⟩ => hother bytes stamp hentry

theorem isDirectory_iff {p : Path} :
    fs.isDirectory p = true ↔ fs.entryAt p = .ok .directory := by
  unfold isDirectory
  split
  · rename_i hentry
    exact iff_of_true rfl hentry
  · rename_i hother
    exact iff_of_false Bool.false_ne_true hother

/-- What a directory lists is what a lookup finds under the name. -/
theorem WellFormed.find?_of_mem_children (hfs : fs.WellFormed)
    (h : (s, entry) ∈ fs.children names) :
    fs.find? (names ++ [s]) = some entry ∧ IsName s := by
  obtain ⟨⟨key, found⟩, hmem, hchild⟩ := List.mem_filterMap.mp h
  cases hlast : key.getLast? with
  | none => simp [hlast] at hchild
  | some name =>
    simp only [hlast, Option.ite_none_right_eq_some, Option.some.injEq, Prod.mk.injEq] at hchild
    obtain ⟨habove, rfl, rfl⟩ := hchild
    obtain ⟨above, rfl⟩ := List.getLast?_eq_some_iff.mp hlast
    rw [List.dropLast_concat] at habove
    subst habove
    refine ⟨?_, hfs.named _ hmem name (by simp)⟩
    have hfirst : fs.entries.find? (·.1 == above ++ [name]) = some (above ++ [name], found) := by
      obtain ⟨front, back, hentries⟩ := List.append_of_mem hmem
      have honce := hfs.once
      rw [hentries, List.map_append, List.map_cons, List.nodup_append] at honce
      have hfront : front.find? (·.1 == above ++ [name]) = none := by
        refine List.find?_eq_none.mpr fun e he heq => ?_
        exact honce.2.2 e.1 (List.mem_map_of_mem he) _ List.mem_cons_self (eq_of_beq heq)
      rw [hentries, List.find?_append, hfront, Option.none_or]
      exact List.find?_cons_of_pos (beq_self_eq_true (above ++ [name]))
    simp [find?, hfirst]

/-! ## Lookups that go on -/

/-- A walk that ends in a directory goes on from there. -/
theorem walk_append {follow : List String → List Step → Except FileError (List String)}
    {more : List Step} (hplace : ¬fs.HoldsFile names)
    (hmore : fs.walk .existing follow names more = .ok names')
    (hfollow : ∀ dir steps, follow dir steps = .ok names → follow dir (steps ++ more) = .ok names')
    (steps : List Step) (dir : List String)
    (h : fs.walk .existing follow dir steps = .ok names) :
    fs.walk .existing follow dir (steps ++ more) = .ok names' := by
  induction steps generalizing dir with
  | nil =>
    cases h
    exact hmore
  | cons step rest ih =>
    cases step with
    | root => exact ih _ h
    | here => exact ih _ h
    | up => exact ih _ h
    | slash => exact ih _ h
    | name s =>
      rw [List.cons_append]
      rw [walk_name] at h ⊢
      split at h
      · cases h
      · rename_i hsize
        rw [if_neg hsize]
        cases hfound : fs.find? (dir ++ [s]) with
        | none =>
          rw [hfound] at h
          cases h
        | some found =>
          rw [hfound] at h
          cases found with
          | directory => exact ih _ h
          | link path =>
            refine Eq.trans ?_ (hfollow _ _ h)
            rw [List.append_assoc]
          | file bytes stamp =>
            simp only at h
            split at h
            · cases h
              exact absurd ⟨bytes, stamp, hfound⟩ hplace
            · cases h

/-- The way on is the same however many links were followed before. -/
theorem walkLinks_append {more : List Step} (hplace : ¬fs.HoldsFile names)
    (hmore : ∀ follow, fs.walk .existing follow names more = .ok names') (n : Nat)
    (steps : List Step) (dir : List String)
    (h : fs.walkLinks .existing n dir steps = .ok names) :
    fs.walkLinks .existing n dir (steps ++ more) = .ok names' := by
  induction n generalizing steps dir with
  | zero => exact walk_append hplace (hmore _) (fun _ _ h => by cases h) steps dir h
  | succ n ih => exact walk_append hplace (hmore _) (fun dir steps => ih steps dir) steps dir h

variable {dir : Path}

/-- A name behind a path leads to what the directory at the path holds under it. -/
theorem trace_join (hs : IsName s) (hdir : fs.trace .existing dir = .ok names)
    (hplace : fs.find? names = some .directory) (hfound : fs.find? (names ++ [s]) = some entry)
    (hlink : ∀ target, entry ≠ .link target) :
    fs.trace .existing (dir.join ⟨s⟩) = .ok (names ++ [s]) := by
  obtain ⟨hnul, hempty, hwalk⟩ := trace_eq_ok_iff.mp hdir
  have hparts := Path.parts_join hempty hs.toProper
  have hnul' : '\x00' ∉ (dir.join ⟨s⟩).text.toList := by
    rw [Path.mem_text_iff (by decide) (by decide), hparts]
    rintro ⟨t, ht, hmem⟩
    rcases List.mem_append.mp ht with ht | ht
    · exact hnul ((Path.mem_text_iff (by decide) (by decide) dir).mpr ⟨t, ht, hmem⟩)
    · cases List.mem_singleton.mp ht
      exact hs.printable hmem
  have hempty' : (dir.join ⟨s⟩).text ≠ "" := by
    rw [ne_eq, Path.text_eq_empty_iff, hparts]
    simp
  have hfile : ¬fs.HoldsFile names := by
    rintro ⟨bytes, stamp, hfile⟩
    rw [hplace] at hfile
    cases hfile
  have hmore : ∀ follow, fs.walk .existing follow names [.name s] = .ok (names ++ [s]) := by
    intro follow
    rw [walk_name, if_neg (Nat.not_lt.mpr hs.short), hfound]
    cases entry with
    | file => rfl
    | directory => rfl
    | link target => exact absurd rfl (hlink target)
  have hmoves : fs.walkLinks .existing maxLinks fs.cwd (moves (dir.join ⟨s⟩).steps) =
      .ok (names ++ [s]) := by
    rw [Path.moves_join hempty hs.toProper]
    exact walkLinks_append hfile hmore maxLinks _ fs.cwd
      (walkLinks_moves maxLinks fs.cwd [] dir.steps hwalk)
  exact trace_eq_ok_iff.mpr ⟨hnul', hempty', walkLinks_of_moves maxLinks fs.cwd [] _
    (fun _ => Path.arrives_join hempty hs.toProper) hmoves⟩

/-! ## What lies below -/

/-- A file lies below a directory by these names, as it is spelled and where it leads; the directory
    itself leads to `names`. -/
structure LeadsBelow (fs : FileSystem) (dir : Path) (names : List String) (file : Path)
    (rest : List String) : Prop where
  parts : file.parts = dir.parts ++ rest.map .name
  trace : fs.trace .existing file = .ok (names ++ rest)

theorem below_self (h : fs.trace .existing dir = .ok names) : fs.LeadsBelow dir names dir [] where
  parts := (List.append_nil _).symm
  trace := by rw [List.append_nil, h]

theorem LeadsBelow.canonicalPath {file : Path} {rest : List String}
    (h : fs.LeadsBelow dir names file rest) : fs.canonicalPath file = .ofNames (names ++ rest) :=
  canonicalPath_of_ok h.trace

theorem LeadsBelow.real {file : Path} {rest : List String} (hfs : fs.WellFormed)
    (h : fs.LeadsBelow dir names file rest) : fs.Real (names ++ rest) :=
  trace_real hfs.here h.trace

/-- A child of a directory lies below it. -/
theorem WellFormed.below_child (hfs : fs.WellFormed) (hdir : fs.trace .existing dir = .ok names)
    (hplace : fs.find? names = some .directory) (h : (s, entry) ∈ fs.children names)
    (hlink : ∀ target, entry ≠ .link target) :
    fs.LeadsBelow dir names (dir.join ⟨s⟩) [s] := by
  obtain ⟨hfound, hs⟩ := hfs.find?_of_mem_children h
  obtain ⟨-, hempty, -⟩ := trace_eq_ok_iff.mp hdir
  exact ⟨Path.parts_join hempty hs.toProper, trace_join hs hdir hplace hfound hlink⟩

theorem LeadsBelow.trans {file way : Path} {rest rest' : List String}
    (h : fs.LeadsBelow dir names way rest) (h' : fs.LeadsBelow way (names ++ rest) file rest') :
    fs.LeadsBelow dir names file (rest ++ rest') where
  parts := by rw [h'.parts, h.parts, List.map_append, List.append_assoc]
  trace := by rw [h'.trace, List.append_assoc]

/-- What a walk finds lies below the directory. -/
theorem WellFormed.below_of_mem_filesBelow (hfs : fs.WellFormed) {n : Nat} {c : WalkContext}
    (hdir : fs.trace .existing dir = .ok names) (hplace : fs.find? names = some .directory)
    {file : Path} (h : file ∈ filesBelow fs n c dir names) :
    ∃ rest, fs.LeadsBelow dir names file rest := by
  induction n generalizing c dir names with
  | zero => cases h
  | succ n ih =>
    obtain ⟨⟨s, entry⟩, hchild, hfile⟩ := List.mem_flatMap.mp h
    cases entry with
    | link target => cases hfile
    | file bytes stamp =>
      have hbelow := hfs.below_child hdir hplace hchild fun _ => Entry.noConfusion
      simp only at hfile
      split at hfile
      · cases hfile
      · cases List.mem_singleton.mp hfile
        exact ⟨[s], hbelow⟩
    | directory =>
      have hbelow := hfs.below_child hdir hplace hchild fun _ => Entry.noConfusion
      simp only at hfile
      split at hfile
      · cases hfile
      · obtain ⟨rest, hrest⟩ := ih hbelow.trace (hfs.find?_of_mem_children hchild).1 hfile
        exact ⟨[s] ++ rest, hbelow.trans hrest⟩

end FileSystem

open FileSystem in
/-- Every source lies below its input, as it is spelled and where it leads. -/
theorem DiscoveryConfig.below_of_mem_sources {c : DiscoveryConfig} {fs : FileSystem}
    (hfs : fs.WellFormed) {excluded : List Glob} {input file : Path} {found : List Path}
    (h : c.sourcesOf fs excluded input = .ok found) (hfile : file ∈ found) :
    ∃ names rest, fs.resolve input = .ok names ∧ fs.LeadsBelow input names file rest := by
  unfold sourcesOf at h
  split at h
  · rename_i hisFile
    cases h
    cases List.mem_singleton.mp hfile
    obtain ⟨bytes, stamp, hentry⟩ := isFile_iff.mp hisFile
    obtain ⟨names, hnames, -⟩ := entryAt_eq_ok.mp hentry
    exact ⟨names, [], hnames, below_self (trace_of_resolve hnames).1⟩
  · split at h
    · rename_i hisDirectory
      cases h
      obtain ⟨names, hnames, hplace⟩ := entryAt_eq_ok.mp (isDirectory_iff.mp hisDirectory)
      have hwalked := (List.mem_filter.mp hfile).1
      unfold walkFiles at hwalked
      split at hwalked
      · cases hwalked
      · rw [hnames] at hwalked
        obtain ⟨rest, hrest⟩ :=
          hfs.below_of_mem_filesBelow (trace_of_resolve hnames).1 hplace hwalked
        exact ⟨names, rest, hnames, hrest⟩
    · cases h

end SymbolAtlas
