import SymbolAtlas.FileSystem

/-!
# Spellings of a path

A path with doubled separators or inner dots has the components of the path without them, and leads
to the same place.  A separator or a dot at the end is another matter: it asks for a directory.  So
what decides is where a path *moves*, and whether its last step is a move.

Principal results: `FileSystem.entryAt_respelled` — where one spelling leads, another one that
arrives leads too; `Path.Direct.respells` — two spellings of ways to files have the same canonical
path in every file system.
-/

set_option autoImplicit false

namespace SymbolAtlas

namespace Path

/-- A dot or a separator at the end leads nowhere else. -/
def Step.stays : Step → Bool
  | .here | .slash => true
  | _ => false

/-- The steps that lead somewhere else. -/
def moves (steps : List Step) : List Step := steps.filter fun s => !s.stays

/-- The last step leads somewhere else. -/
def Arrives (steps : List Step) : Prop := ∀ s ∈ steps.getLast?, s.stays = false

/-- The step that a component stands for. -/
def stepOf : Part → Step
  | .root => .root
  | .here => .here
  | .up => .up
  | .name s => .name s

theorem moves_cons_of_stays {s : Step} (h : s.stays = true) (rest : List Step) :
    moves (s :: rest) = moves rest := by
  simp [moves, h]

theorem moves_cons_of_not_stays {s : Step} (h : s.stays = false) (rest : List Step) :
    moves (s :: rest) = s :: moves rest := by
  simp [moves, h]

/-- A name is a segment as it stands. -/
theorem innerPart_eq_name_iff {seg : List Char} {s : String} :
    innerPart seg = some (.name s) ↔
      s = String.ofList seg ∧ seg ≠ [] ∧ seg ≠ ['.'] ∧ seg ≠ ['.', '.'] := by
  unfold innerPart
  split
  · rename_i h
    simp [h]
  · rename_i hempty
    split
    · rename_i h
      simp [h]
    · rename_i hdot
      split
      · rename_i h
        simp [h]
      · rename_i hdots
        simp only [Option.some.injEq, Part.name.injEq, ne_eq, hempty, hdot, hdots,
          not_false_eq_true, and_true]
        exact eq_comm

theorem moves_stepsOf (named : Bool) (segs : List (List Char)) :
    moves (stepsOf named segs) = (segs.filterMap innerPart).map stepOf := by
  fun_induction stepsOf named segs with
  | case1 => rfl
  | case2 named rest hlast =>
    rw [List.isEmpty_iff.mp (Bool.and_eq_true_iff.mp hlast).1]
    rfl
  | case3 named rest hlast ih => exact ih
  | case4 named rest ih => exact ih
  | case5 named rest ih => exact congrArg (Step.up :: ·) ih
  | case6 named seg rest hempty hdot hdots ih =>
    have hpart : innerPart seg = some (.name (String.ofList seg)) :=
      innerPart_eq_name_iff.mpr ⟨rfl, hempty, hdot, hdots⟩
    rw [List.filterMap_cons_some hpart]
    exact congrArg (Step.name (String.ofList seg) :: ·) ih

theorem moves_steps {p : Path} (h : p.isAbsolute = true) :
    moves p.steps = p.parts.map stepOf := by
  unfold steps parts
  simp only [h, if_true]
  exact congrArg (Step.root :: ·) (moves_stepsOf false _)

/-- What is named on the way stands between separators. -/
theorem name_mem_parts {p : Path} {s : String} :
    Part.name s ∈ p.parts ↔ ∃ seg ∈ segments p.text.toList, innerPart seg = some (.name s) := by
  rw [← List.mem_filterMap]
  unfold parts
  simp only
  split
  · exact ⟨fun h => (List.mem_cons.mp h).resolve_left Part.noConfusion, .tail _⟩
  · split
    · rename_i rest hsegs
      rw [hsegs]
      exact ⟨fun h => (List.mem_cons.mp h).resolve_left Part.noConfusion, .tail _⟩
    · exact Iff.rfl

theorem isAbsolute_of_parts {p q : Path} (h : p.parts = q.parts) (hp : p.isAbsolute = true) :
    q.isAbsolute = true := by
  have hroot : Part.root ∈ q.parts := by
    rw [← h, parts, if_pos hp]
    exact List.mem_cons_self
  have hinner : ∀ segs, Part.root ∉ List.filterMap innerPart segs := by
    intro segs hmem
    obtain ⟨seg, -, hseg⟩ := List.mem_filterMap.mp hmem
    unfold innerPart at hseg
    split at hseg
    · cases hseg
    · split at hseg
      · cases hseg
      · split at hseg
        · cases hseg
        · cases hseg
  rw [parts] at hroot
  split at hroot
  · assumption
  split at hroot
  · rcases List.mem_cons.mp hroot with heq | hmem
    · cases heq
    · exact absurd hmem (hinner _)
  · exact absurd hroot (hinner _)

theorem Arrives.tail {s : Step} {rest : List Step} (h : Arrives (s :: rest)) : Arrives rest := by
  cases rest with
  | nil => exact fun s hs => nomatch hs
  | cons t rest => exact fun x hx => h x hx

theorem Arrives.nil_of_moves {steps : List Step} (h : Arrives steps) (hmoves : moves steps = []) :
    steps = [] := by
  rcases List.eq_nil_or_concat steps with hnil | ⟨front, s, rfl⟩
  · exact hnil
  · have hs : s.stays = false := h s (by simp)
    simp [moves, hs] at hmoves

end Path

namespace FileSystem

open SymbolAtlas.Path (Step moves Arrives)

variable {fs : FileSystem} {names : List String}

theorem walk_name {follow : List String → List Step → Except FileError (List String)}
    (dir : List String) (s : String) (rest : List Step) :
    fs.walk .existing follow dir (.name s :: rest) =
      if maxNameBytes < s.utf8ByteSize then .error .nameTooLong
      else match fs.find? (dir ++ [s]) with
        | none => .error .notFound
        | some .directory => fs.walk .existing follow (dir ++ [s]) rest
        | some (.file ..) => if rest.isEmpty then .ok (dir ++ [s]) else .error .notDirectory
        | some (.link path) => follow dir (path.steps ++ rest) := by
  have htarget : isTarget .existing rest = false := by
    match rest with
    | [] => rfl
    | [.slash] => rfl
    | [.root] | [.here] | [.up] | [.name _] => rfl
    | s :: _ :: _ => cases s <;> rfl
  rw [walk]
  simp only [htarget, reduceCtorEq, false_and, if_false, Bool.false_eq_true]
  split
  · rfl
  · cases fs.find? (dir ++ [s]) with
    | none => rfl
    | some found => cases found <;> rfl

/-- A regular file has these names. -/
def HoldsFile (fs : FileSystem) (names : List String) : Prop :=
  ∃ bytes stamp, fs.find? names = some (.file bytes stamp)

/-- A way is followed by one more step as another way is, as long as what lies behind the step is
    reached alike.  Only a way to a file has to end with the other one. -/
theorem walk_cons {follow : List String → List Step → Except FileError (List String)}
    {rest rest' : List Step} (hempty : fs.HoldsFile names → rest = [] → rest' = [])
    (hrest : ∀ dir, fs.walk .existing follow dir rest = .ok names →
      fs.walk .existing follow dir rest' = .ok names)
    (hfollow : ∀ dir target, follow dir (target ++ rest) = .ok names →
      follow dir (target ++ rest') = .ok names)
    (s : Step) (dir : List String) (h : fs.walk .existing follow dir (s :: rest) = .ok names) :
    fs.walk .existing follow dir (s :: rest') = .ok names := by
  cases s with
  | root => exact hrest _ h
  | here => exact hrest _ h
  | up => exact hrest _ h
  | slash => exact hrest _ h
  | name s =>
    rw [walk_name] at h ⊢
    split at h
    · cases h
    · rename_i hsize
      rw [if_neg hsize]
      cases hfound : fs.find? (dir ++ [s]) with
      | none =>
        rw [hfound] at h
        cases h
      | some found =>
        rw [hfound] at h
        cases found with
        | directory => exact hrest _ h
        | link path => exact hfollow _ _ h
        | file bytes stamp =>
          cases hnil : rest with
          | nil =>
            rw [hnil] at h
            cases h
            rw [hempty ⟨bytes, stamp, hfound⟩ hnil]
            rfl
          | cons s rest =>
            rw [hnil] at h
            cases h

theorem walk_moves {follow : List String → List Step → Except FileError (List String)}
    (hfollow : ∀ dir target steps, follow dir (target ++ steps) = .ok names →
      follow dir (target ++ moves steps) = .ok names) (target steps : List Step)
    (dir : List String) (h : fs.walk .existing follow dir (target ++ steps) = .ok names) :
    fs.walk .existing follow dir (target ++ moves steps) = .ok names := by
  induction target generalizing dir with
  | cons s target ih =>
    refine walk_cons (fun _ hnil => ?_) ih (fun dir target' => ?_) s dir h
    · obtain ⟨rfl, rfl⟩ := List.append_eq_nil_iff.mp hnil
      rfl
    · rw [← List.append_assoc, ← List.append_assoc]
      exact hfollow dir _ steps
  | nil =>
    induction steps generalizing dir with
    | nil => exact h
    | cons s rest ih =>
      cases hs : s.stays with
      | false =>
        rw [Path.moves_cons_of_not_stays hs]
        refine walk_cons (fun _ hnil => ?_) ih (fun dir target => hfollow dir target rest) s dir h
        exact congrArg moves hnil
      | true =>
        rw [Path.moves_cons_of_stays hs]
        cases s with
        | here => exact ih dir h
        | slash => exact ih dir h
        | root => cases hs
        | up => cases hs
        | name => cases hs

theorem walk_of_moves {follow : List String → List Step → Except FileError (List String)}
    (hfollow : ∀ dir target steps, (fs.HoldsFile names → Arrives steps) →
      follow dir (target ++ moves steps) = .ok names → follow dir (target ++ steps) = .ok names)
    (target steps : List Step) (ha : fs.HoldsFile names → Arrives steps)
    (dir : List String) (h : fs.walk .existing follow dir (target ++ moves steps) = .ok names) :
    fs.walk .existing follow dir (target ++ steps) = .ok names := by
  induction target generalizing dir with
  | cons s target ih =>
    refine walk_cons (fun hfile hnil => ?_) ih (fun dir target' => ?_) s dir h
    · obtain ⟨rfl, hmoves⟩ := List.append_eq_nil_iff.mp hnil
      exact (ha hfile).nil_of_moves hmoves
    · rw [← List.append_assoc, ← List.append_assoc]
      exact hfollow dir _ steps ha
  | nil =>
    induction steps generalizing dir with
    | nil => exact h
    | cons s rest ih =>
      have hrest : fs.HoldsFile names → Arrives rest := fun hfile => (ha hfile).tail
      cases hs : s.stays with
      | false =>
        rw [Path.moves_cons_of_not_stays hs] at h
        exact walk_cons (fun hfile => (hrest hfile).nil_of_moves) (ih hrest)
          (fun dir target => hfollow dir target rest hrest) s dir h
      | true =>
        rw [Path.moves_cons_of_stays hs] at h
        cases s with
        | here => exact ih hrest dir h
        | slash => exact ih hrest dir h
        | root => cases hs
        | up => cases hs
        | name => cases hs

theorem walkLinks_moves (n : Nat) (dir : List String) (target steps : List Step)
    (h : fs.walkLinks .existing n dir (target ++ steps) = .ok names) :
    fs.walkLinks .existing n dir (target ++ moves steps) = .ok names := by
  induction n generalizing dir target steps with
  | zero => exact walk_moves (fun _ _ _ h => by cases h) target steps dir h
  | succ n ih => exact walk_moves ih target steps dir h

theorem walkLinks_of_moves (n : Nat) (dir : List String) (target steps : List Step)
    (ha : fs.HoldsFile names → Arrives steps)
    (h : fs.walkLinks .existing n dir (target ++ moves steps) = .ok names) :
    fs.walkLinks .existing n dir (target ++ steps) = .ok names := by
  induction n generalizing dir target steps with
  | zero => exact walk_of_moves (fun _ _ _ _ h => by cases h) target steps ha dir h
  | succ n ih =>
    exact walk_of_moves (fun dir target steps => ih dir target steps) target steps ha dir h

/-! ## Ways to directories -/

/-- The names lead through directories to a directory. -/
def Grounded (fs : FileSystem) (dir : List String) : Prop :=
  ∀ above, above <+: dir → fs.find? above = some .directory

theorem grounded_root (fs : FileSystem) : fs.Grounded [] := by
  intro above h
  rw [List.prefix_nil.mp h]
  rfl

theorem Grounded.above {dir : List String} (h : fs.Grounded dir) : fs.Grounded dir.dropLast :=
  fun above habove => h above (habove.trans (List.dropLast_prefix dir))

theorem Grounded.inside {dir : List String} {s : String} (h : fs.Grounded dir)
    (hs : fs.find? (dir ++ [s]) = some .directory) : fs.Grounded (dir ++ [s]) := by
  intro above habove
  rcases List.prefix_concat_iff.mp habove with rfl | habove
  · exact hs
  · exact h above habove

/-- A way that does not end in a move ends in a directory. -/
theorem walk_grounded {follow : List String → List Step → Except FileError (List String)}
    (hfollow : ∀ dir steps, fs.Grounded dir → (∀ s ∈ steps.getLast?, s.stays = true) →
      follow dir steps = .ok names → fs.Grounded names)
    (steps : List Step) (dir : List String) (hdir : fs.Grounded dir)
    (hlast : ∀ s ∈ steps.getLast?, s.stays = true)
    (h : fs.walk .existing follow dir steps = .ok names) : fs.Grounded names := by
  induction steps generalizing dir with
  | nil =>
    cases h
    exact hdir
  | cons s rest ih =>
    have hrest : ∀ t ∈ rest.getLast?, t.stays = true := by
      cases rest with
      | nil => exact fun t ht => nomatch ht
      | cons t rest => exact fun x hx => hlast x hx
    cases s with
    | root => exact ih [] (grounded_root fs) hrest h
    | here => exact ih dir hdir hrest h
    | up => exact ih dir.dropLast hdir.above hrest h
    | slash => exact ih dir hdir hrest h
    | name s =>
      cases rest with
      | nil => cases hlast (.name s) rfl
      | cons t rest =>
        rw [walk_name] at h
        split at h
        · cases h
        · cases hfound : fs.find? (dir ++ [s]) with
          | none =>
            rw [hfound] at h
            cases h
          | some found =>
            rw [hfound] at h
            cases found with
            | file => cases h
            | directory => exact ih _ (hdir.inside hfound) hrest h
            | link path =>
              refine hfollow dir _ hdir (fun x hx => hrest x ?_) h
              simpa [List.getLast?_append] using hx

theorem walkLinks_grounded (n : Nat) (steps : List Step) (dir : List String)
    (hdir : fs.Grounded dir) (hlast : ∀ s ∈ steps.getLast?, s.stays = true)
    (h : fs.walkLinks .existing n dir steps = .ok names) : fs.Grounded names := by
  induction n generalizing dir steps with
  | zero => exact walk_grounded (fun _ _ _ _ h => by cases h) steps dir hdir hlast h
  | succ n ih => exact walk_grounded (fun dir steps => ih steps dir) steps dir hdir hlast h

end FileSystem

namespace Path

/-- The path has a form in which it can lead to a file. -/
structure Direct (p : Path) : Prop where
  absolute : p.isAbsolute = true
  arrives : Arrives p.steps
  printable : p.text.toList.contains '\x00' = false
  short : p.text.utf8ByteSize ≤ FileSystem.maxPathBytes

/-- Two spellings of one path: their components are the same, and so is where they lead. -/
structure Respells (p q : Path) : Prop where
  parts : p.parts = q.parts
  canonical : ∀ fs : FileSystem, fs.canonicalPath p = fs.canonicalPath q

end Path

namespace FileSystem

open SymbolAtlas.Path (Direct Respells)

variable {fs : FileSystem} {names : List String} {p q : Path}

theorem trace_eq (habs : p.isAbsolute = true) (hnul : p.text.toList.contains '\x00' = false) :
    fs.trace .existing p = fs.walkLinks .existing maxLinks fs.cwd p.steps := by
  have hne : p.text.isEmpty = false := by
    cases hempty : p.text.isEmpty with
    | false => rfl
    | true =>
      rw [Path.isAbsolute, String.isEmpty_iff.mp hempty] at habs
      cases habs
  rw [trace, if_neg (by rw [hnul]; exact Bool.false_ne_true),
    if_neg (by rw [hne]; exact Bool.false_ne_true)]

theorem trace_of_resolve (h : fs.resolve p = .ok names) :
    fs.trace .existing p = .ok names ∧ p.text.toList.contains '\x00' = false ∧
      p.text.utf8ByteSize ≤ maxPathBytes := by
  rw [resolve, locate] at h
  split at h
  · cases h
  · rename_i hsize
    refine ⟨h, ?_⟩
    rw [trace] at h
    split at h
    · cases h
    · rename_i hnul
      have hnul := Bool.eq_false_iff.mpr hnul
      refine ⟨hnul, ?_⟩
      rw [hnul] at hsize
      simpa using hsize

theorem entryAt_eq_ok {entry : Entry} :
    fs.entryAt p = .ok entry ↔
      ∃ names, fs.resolve p = .ok names ∧ fs.find? names = some entry := by
  unfold entryAt
  cases hnames : fs.resolve p with
  | error e =>
    constructor
    · intro h
      cases h
    · rintro ⟨_, h, -⟩
      cases h
  | ok names =>
    simp only [bind, Except.bind]
    constructor
    · intro h
      refine ⟨names, rfl, ?_⟩
      cases hfound : fs.find? names with
      | none =>
        rw [hfound] at h
        cases h
      | some found =>
        rw [hfound] at h
        cases h
        rfl
    · rintro ⟨_, h, hfound⟩
      cases h
      rw [hfound]
      rfl

/-- What leads to a file has the form for it. -/
theorem direct_of_file {bytes : ByteArray} {stamp : Stamp} (habs : p.isAbsolute = true)
    (h : fs.entryAt p = .ok (.file bytes stamp)) : p.Direct := by
  obtain ⟨names, hnames, hfound⟩ := entryAt_eq_ok.mp h
  obtain ⟨htrace, hnul, hshort⟩ := trace_of_resolve hnames
  refine ⟨habs, fun s hs => ?_, hnul, hshort⟩
  cases hstays : s.stays with
  | false => rfl
  | true =>
    rw [trace_eq habs hnul] at htrace
    have hlast : ∀ t ∈ p.steps.getLast?, t.stays = true := fun t ht => by
      cases Option.mem_unique hs ht
      exact hstays
    obtain ⟨rest, hrest⟩ : ∃ rest, p.steps = .root :: rest := by
      rw [Path.steps, if_pos habs]
      exact ⟨_, rfl⟩
    rw [hrest] at htrace hlast
    -- The root is where such a way starts over, whatever the current directory.
    have hgrounded : fs.Grounded names :=
      walkLinks_grounded maxLinks (.root :: rest) [] (grounded_root fs) hlast htrace
    rw [hgrounded names (List.prefix_refl names)] at hfound
    cases hfound

theorem trace_respelled (hq : q.Direct) (hp : p.isAbsolute = true)
    (hnul : p.text.toList.contains '\x00' = false) (hparts : p.parts = q.parts)
    (h : fs.trace .existing p = .ok names) : fs.trace .existing q = .ok names := by
  rw [trace_eq hp hnul] at h
  rw [trace_eq hq.absolute hq.printable]
  refine walkLinks_of_moves maxLinks fs.cwd [] q.steps (fun _ => hq.arrives) ?_
  rw [Path.moves_steps hq.absolute, ← hparts, ← Path.moves_steps hp]
  exact walkLinks_moves maxLinks fs.cwd [] p.steps h

/-- Where one spelling leads, another one that can lead to a file leads too. -/
theorem entryAt_respelled (hq : q.Direct) (hp : p.isAbsolute = true) (hparts : p.parts = q.parts)
    {entry : Entry} (h : fs.entryAt p = .ok entry) : fs.entryAt q = .ok entry := by
  obtain ⟨names, hnames, hfound⟩ := entryAt_eq_ok.mp h
  obtain ⟨htrace, hnul, -⟩ := trace_of_resolve hnames
  refine entryAt_eq_ok.mpr ⟨names, ?_, hfound⟩
  rw [resolve, locate, if_neg (by have := hq.short; simp; omega)]
  exact trace_respelled hq hp hnul hparts htrace

end FileSystem

/-- **Two spellings of ways to files lead to the same place in every file system.** -/
theorem Path.Direct.respells {p q : Path} (hp : p.Direct) (hq : q.Direct)
    (h : p.parts = q.parts) : p.Respells q := by
  refine ⟨h, fun fs => ?_⟩
  have hnormal : fs.normalize p = fs.normalize q := by
    rw [FileSystem.normalize, FileSystem.normalize, h]
  unfold FileSystem.canonicalPath
  cases hnames : fs.trace .existing p with
  | ok names => rw [FileSystem.trace_respelled hq hp.absolute hp.printable h hnames]
  | error e =>
    cases hnames' : fs.trace .existing q with
    | ok names =>
      rw [FileSystem.trace_respelled hp hq.absolute hq.printable h.symm hnames'] at hnames
      cases hnames
    | error e' => exact hnormal

end SymbolAtlas
