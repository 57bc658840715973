import SymbolAtlas.CompileOptions
import SymbolAtlas.Proofs.NativePaths

/-!
# Option lists that are read back

A parse reads its options one after the other, and some flags take the next option for their value.
An include path or a define is written together with its flag and needs nothing behind it, whatever
its text, with one exception: an empty include path leaves the flag alone, which then takes what
comes next.  Paths are written as they are shown, so one that is not text is read as another.

* `preambleOptions` — the options of a parse that starts from a preamble.

Principal results: `ParseOptions.readFrom_includes`, `ParseOptions.readFrom_defines` — what is
written with its flag is read by itself; `ParseOptions.includePaths_prefix` — include paths are only
added; `ParseOptions.ofList_optionList` — options are read back exactly if no include path is empty
and all paths are text.
-/

set_option autoImplicit false

namespace SymbolAtlas

/-- The options behind those of a file, if the parse starts from a preamble. -/
def preambleOptions : Option NativePath → List String
  | none => []
  | some artifact => [preambleFlag, artifact.shown]

theorem Language.ofName_name (l : Language) : (Language.ofName l.name).toOption = some l := by
  cases l with
  | c => decide +kernel
  | cxx => decide +kernel

namespace ParseOptions

/-! ## One option -/

/-- Any other option is read by itself. -/
theorem readFrom_cons (o : ParseOptions) {opt : String} (hx : opt ≠ "-x") (hI : opt ≠ "-I")
    (hp : opt ≠ preambleFlag) (rest : List String) :
    o.readFrom (opt :: rest) = (o.readJoined opt).readFrom rest := by
  cases rest with
  | nil => simp only [readFrom, if_neg hx, if_neg hI, if_neg hp]
  | cons value rest => rw [readFrom, if_neg hx, if_neg hI, if_neg hp]

theorem readFrom_include (o : ParseOptions) {dir : String} (h : dir ≠ "") (rest : List String) :
    o.readFrom (("-I" ++ dir) :: rest) =
      { o with includePaths := o.includePaths ++ [Path.mk dir] }.readFrom rest := by
  have htext : ("-I" ++ dir).toList = '-' :: 'I' :: dir.toList := String.toList_append
  have hother : ∀ flag : String, '-' :: 'I' :: dir.toList ≠ flag.toList →
      "-I" ++ dir ≠ flag := fun flag hne heq => hne (by rw [← htext, heq])
  rw [readFrom_cons o (hother _ (by simp)) (hother _ ?_) (hother _ ?_)]
  · rw [readJoined, htext]
    simp only [String.ofList_toList]
  · simpa using h
  · simp [preambleFlag]

theorem readFrom_define (o : ParseOptions) (define : String) (rest : List String) :
    o.readFrom (("-D" ++ define) :: rest) = o.readFrom rest := by
  have htext : ("-D" ++ define).toList = '-' :: 'D' :: define.toList := String.toList_append
  have hother : ∀ flag : String, '-' :: 'D' :: define.toList ≠ flag.toList →
      "-D" ++ define ≠ flag := fun flag hne heq => hne (by rw [← htext, heq])
  rw [readFrom_cons o (hother _ (by simp)) (hother _ (by simp)) (hother _ (by simp [preambleFlag])),
    readJoined, htext]
  rfl

/-! ## Lists of options -/

/-- Include paths are read as they are shown, if none of them is empty. -/
theorem readFrom_includes (o : ParseOptions) {dirs : List NativePath}
    (h : ∀ dir ∈ dirs, dir.bytes ≠ []) (rest : List String) :
    o.readFrom (dirs.map (fun dir => "-I" ++ dir.shown) ++ rest) =
      { o with includePaths := o.includePaths ++ dirs.map NativePath.lossy }.readFrom rest := by
  induction dirs generalizing o with
  | nil => rw [List.map_nil, List.nil_append, List.map_nil, List.append_nil]
  | cons dir dirs ih =>
    have hdir : dir.shown ≠ "" := NativePath.shown_ne_empty (h dir List.mem_cons_self)
    rw [List.map_cons, List.cons_append, readFrom_include o hdir, ih _ fun d hd => h d (.tail _ hd),
      List.append_assoc, List.singleton_append, List.map_cons]
    rfl

theorem readFrom_defines (o : ParseOptions) (defines rest : List String) :
    o.readFrom (defines.map (fun define => "-D" ++ define) ++ rest) = o.readFrom rest := by
  induction defines with
  | nil => rfl
  | cons define defines ih => rw [List.map_cons, List.cons_append, readFrom_define, ih]

theorem readFrom_preambleOptions (o : ParseOptions) (artifact : Option NativePath) :
    o.readFrom (preambleOptions artifact) =
      { o with preamble := artifact.map NativePath.lossy <|> o.preamble } := by
  cases artifact with
  | none => rfl
  | some artifact => rfl

/-- Include paths are only added. -/
theorem includePaths_prefix (o : ParseOptions) (args : List String) :
    o.includePaths <+: (o.readFrom args).includePaths := by
  have hjoined : ∀ (o : ParseOptions) opt, o.includePaths <+: (o.readJoined opt).includePaths :=
    fun o opt => by
      unfold readJoined
      split
      · exact List.prefix_append _ _
      · exact List.prefix_rfl
  fun_induction readFrom o args with
  | case1 => exact List.prefix_rfl
  | case2 => exact List.prefix_rfl
  | case3 => exact List.prefix_rfl
  | case4 => exact List.prefix_rfl
  | case5 o opt => exact hjoined o opt
  | case6 o value rest ih => exact ih
  | case7 o value rest _ ih => exact (List.prefix_append _ _).trans ih
  | case8 o value rest _ _ ih => exact ih
  | case9 o opt value rest _ _ _ ih => exact (hjoined o opt).trans ih

/-- The flag alone takes the next option, which then stands where an empty path should. -/
theorem includePaths_bare (o : ParseOptions) {rest : List String} (hrest : rest.head? ≠ some "")
    (dirs : List Path) :
    (o.readFrom ("-I" :: rest)).includePaths ≠ o.includePaths ++ ⟨""⟩ :: dirs := by
  intro h
  cases rest with
  | nil =>
    have hnone : o.readFrom ["-I"] = o := by simp [readFrom]
    rw [hnone] at h
    exact List.cons_ne_nil _ _ (List.self_eq_append_right.mp h)
  | cons value rest =>
    have htaken : o.readFrom ("-I" :: value :: rest) =
        ({ o with includePaths := o.includePaths ++ [⟨value⟩] } : ParseOptions).readFrom rest := by
      simp [readFrom]
    have hprefix := includePaths_prefix { o with includePaths := o.includePaths ++ [⟨value⟩] } rest
    rw [← htaken, h, List.prefix_append_right_inj] at hprefix
    have hvalue : (⟨value⟩ : Path) = ⟨""⟩ := (List.cons_prefix_cons.mp hprefix).1
    exact hrest (congrArg some (congrArg Path.text hvalue))

/-! ## Paths as they are shown -/

theorem map_lossy_iff {dirs : List NativePath} :
    (dirs.map NativePath.lossy).map Path.native = dirs ↔ ∀ dir ∈ dirs, dir.IsText := by
  rw [List.map_map]
  induction dirs with
  | nil => simp
  | cons dir dirs ih =>
    rw [List.map_cons, List.cons.injEq, ih, List.forall_mem_cons]
    exact and_congr_left' NativePath.native_lossy_iff

/-! ## Options of a file -/

/-- What stands behind the language in the options of a file. -/
theorem ofList_append (o : CompileOptions) (hextra : o.extra = []) (artifact : Option NativePath) :
    ofList (o.optionList ++ preambleOptions artifact) =
      readFrom { language := some o.language } (o.includePaths.map (fun dir => "-I" ++ dir.shown) ++
        (o.defines.map (fun define => "-D" ++ define) ++ preambleOptions artifact)) := by
  have hlist : o.optionList ++ preambleOptions artifact =
      "-x" :: o.language.name :: (o.includePaths.map (fun dir => "-I" ++ dir.shown) ++
        (o.defines.map (fun define => "-D" ++ define) ++ preambleOptions artifact)) := by
    simp [CompileOptions.optionList, hextra]
  rw [ofList, hlist, readFrom, if_pos rfl, Language.ofName_name]

/-- The language is read, and the paths as they are shown, if no include path is empty. -/
theorem ofList_shown {o : CompileOptions} (hextra : o.extra = []) (artifact : Option NativePath)
    (h : ∀ dir ∈ o.includePaths, dir.bytes ≠ []) :
    ofList (o.optionList ++ preambleOptions artifact) =
      { language := some o.language
        includePaths := o.includePaths.map NativePath.lossy
        preamble := artifact.map NativePath.lossy } := by
  rw [ofList_append o hextra, readFrom_includes _ h, readFrom_defines, readFrom_preambleOptions]
  simp

/-- Where an include path is empty, other include paths are read. -/
theorem ofList_of_empty {o : CompileOptions} (hextra : o.extra = []) (artifact : Option NativePath)
    {dir : NativePath} (hdir : dir ∈ o.includePaths) (hempty : dir.bytes = []) :
    (ofList (o.optionList ++ preambleOptions artifact)).includePaths.map Path.native ≠
      o.includePaths := by
  intro h
  obtain ⟨front, back, hpaths, hfront⟩ := List.eq_append_cons_of_mem hdir
  obtain rfl : dir = ⟨[]⟩ := congrArg NativePath.mk hempty
  have hfull : ∀ d ∈ front, d.bytes ≠ [] := fun d hd hnone => by
    rw [← show d = ⟨[]⟩ from congrArg NativePath.mk hnone] at hfront
    exact hfront hd
  rw [ofList_append o hextra, hpaths, List.map_append, List.append_assoc,
    readFrom_includes _ hfull, List.map_cons, List.cons_append] at h
  obtain ⟨before, behind, hread, hbefore, hbehind⟩ := List.map_eq_append_iff.mp h
  obtain ⟨p, dirs, rfl, hp, -⟩ := List.map_eq_cons_iff.mp hbehind
  -- The paths before it are read as they were written, and it is read as itself.
  have hshown : before = front.map NativePath.lossy := by
    rw [← hbefore, List.map_map]
    exact (List.map_id'' (fun p => p.lossy_native) before).symm
  have hnone : p = ⟨""⟩ := Path.native_inj.mp hp
  rw [hshown, hnone] at hread
  refine includePaths_bare _ ?_ dirs hread
  -- The next option is another include path, a define or the flag of a preamble.
  rw [List.head?_append, List.head?_append, List.head?_map, List.head?_map]
  cases back.head? with
  | some d => simp
  | none =>
    cases o.defines.head? with
    | some define => simp
    | none =>
      cases artifact with
      | some artifact => simp [preambleOptions, preambleFlag]
      | none => simp [preambleOptions]

/-- **Options are read back exactly if no include path is empty and all paths are text**, with a
    preamble and without. -/
theorem ofList_optionList (o : CompileOptions) (hextra : o.extra = [])
    (artifact : Option NativePath) :
    let read := ofList (o.optionList ++ preambleOptions artifact)
    (read.language = some o.language ∧ read.includePaths.map Path.native = o.includePaths ∧
        read.preamble.map Path.native = artifact) ↔
      (∀ dir ∈ o.includePaths, dir.bytes ≠ [] ∧ dir.IsText) ∧ ∀ p ∈ artifact, p.IsText := by
  intro read
  by_cases hfull : ∀ dir ∈ o.includePaths, dir.bytes ≠ []
  · have hread : read = _ := ofList_shown hextra artifact hfull
    have hartifact : (artifact.map NativePath.lossy).map Path.native = artifact ↔
        ∀ p ∈ artifact, p.IsText := by
      cases artifact with
      | none => simp
      | some p => simpa using NativePath.native_lossy_iff
    rw [hread]
    simp only [true_and]
    rw [map_lossy_iff, hartifact]
    refine and_congr_left' ⟨fun h dir hdir => ⟨hfull dir hdir, h dir hdir⟩,
      fun h dir hdir => (h dir hdir).2⟩
  · refine iff_of_false (fun h => ?_) fun h => hfull fun dir hdir => (h.1 dir hdir).1
    obtain ⟨dir, hdir, hempty⟩ : ∃ dir ∈ o.includePaths, dir.bytes = [] := by
      simpa using hfull
    exact ofList_of_empty hextra artifact hdir hempty h.2.1

/-- Values that look like flags. -/
def flagLikeOptions : CompileOptions where
  language := .cxx
  includePaths := [⟨"/w/ä"⟩, ⟨"-x"⟩, ⟨"nclude-pch"⟩].map Path.native
  defines := ["-I", "", "-include-pch"]

theorem ofList_optionList_flagLike :
    let read := ofList (flagLikeOptions.optionList ++ preambleOptions (some (Path.native ⟨"-x"⟩)))
    flagLikeOptions.extra = [] ∧ read.language = some .cxx ∧
      read.includePaths.map Path.native = [⟨"/w/ä"⟩, ⟨"-x"⟩, ⟨"nclude-pch"⟩].map Path.native ∧
      read.preamble.map Path.native = some (Path.native ⟨"-x"⟩) :=
  ⟨rfl, (ofList_optionList flagLikeOptions rfl (some (Path.native ⟨"-x"⟩))).mpr (by decide +kernel)⟩

/-- The flag of an empty include path takes the next include path with its flag. -/
theorem ofList_emptyPath :
    ¬∀ (o : CompileOptions), o.extra = [] → ∀ artifact : Option NativePath,
      let read := ofList (o.optionList ++ preambleOptions artifact)
      read.language = some o.language ∧ read.includePaths.map Path.native = o.includePaths ∧
        read.preamble.map Path.native = artifact := by
  intro hback
  have hread := (hback { language := .c, includePaths := [⟨""⟩, ⟨"/w/inc"⟩].map Path.native } rfl
    none).2.1
  have htaken : (ofList (CompileOptions.optionList
      { language := .c, includePaths := [⟨""⟩, ⟨"/w/inc"⟩].map Path.native } ++
        preambleOptions none)).includePaths.map (·.text) = ["-I/w/inc"] := by
    decide +kernel
  have hlength := congrArg List.length hread
  rw [List.length_map, ← List.length_map (·.text), htaken] at hlength
  exact absurd hlength (by decide)

end ParseOptions

end SymbolAtlas
