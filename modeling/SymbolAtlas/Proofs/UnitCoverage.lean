import SymbolAtlas.Proofs.PassCoverage
import SymbolAtlas.Proofs.UnitRuns

/-!
# What indexing a unit leaves out

A graph that is not empty hides parts of a unit.  A declaration whose place is taken is left alone
together with its inside, so that new members of a known class and new uses in a known function get
no nodes.  Of several uses at one place the first is kept, and it alone is looked at in the second
pass.  Nothing else is left out.

* `CursorTree.Shut` — the first pass stops at a declaration, since its place is taken when it comes
  there.
* `CursorTree.Exposed` — neither a use nor such a declaration stands around a node.

Principal results: `indexUnit_complete` — every exposed declaration and every exposed use whose
target is known has a node in the end; `edited_inside_left_out` — how the others are left out.
-/

set_option autoImplicit false

namespace SymbolAtlas

variable {lu : LocatedUnit} {tree : CursorTree} {g : SymbolGraph}

namespace CursorTree

/-! ## Where the first pass stops -/

/-- The first pass comes to a declaration whose place is taken: by a node of the graph, or by one
    that the pass put there on its way.  The unit's own cursor never gets a node. -/
structure Shut (lu : LocatedUnit) (tree : CursorTree) (g : SymbolGraph) (a : Nat) : Prop where
  inner : a ≠ 0
  declares : (lu.unit.category (tree.cursor a)).declares = true
  taken : ∃ siblings owner s l, Declarations.Comes lu tree g siblings owner a s ∧
    lu.place (tree.cursor a) = some l ∧ s.graph.occupied l = true

/-- A place that is taken holds a node of the graph, or something earlier in the unit may have put
    one there. -/
theorem Shut.cause (hgrown : Grown tree.nodes) {a : Nat} (h : tree.Shut lu g a) :
    ∃ l, lu.place (tree.cursor a) = some l ∧
      (g.occupied l = true ∨ ∃ m < a, tree.Puts lu m l) := by
  obtain ⟨_, _, _, l, hcomes, hl, ho⟩ := h.taken
  refine ⟨l, hl, (hcomes.underway.front.occupied l ho).imp_right fun ⟨m, hm, hputs⟩ => ?_⟩
  exact ⟨m, hm.lt hgrown.sequential, hputs⟩

/-- Nothing at which the first pass stops stands around a node. -/
def Exposed (lu : LocatedUnit) (tree : CursorTree) (g : SymbolGraph) (x : Nat) : Prop :=
  ∀ a ∈ Branch.lineage (links tree.nodes) x, a ≠ x →
    lu.unit.category (tree.cursor a) ≠ .reference ∧ ¬tree.Shut lu g a

/-- The first pass goes on inside a node that it comes to and that is neither a use nor shut. -/
theorem goes_on_of_not_shut (hgrown : Grown tree.nodes) {siblings : List Nat} {owner a : Nat}
    {s : Declarations SymbolGraph} (h : Declarations.Comes lu tree g siblings owner a s)
    (hc : lu.unit.category (tree.cursor a) ≠ .reference) (hshut : ¬tree.Shut lu g a) :
    ∃ s' owner', Declarations.enter lu tree siblings owner s a = (s', some owner') := by
  have hstep := Declarations.enters lu tree siblings owner s a
  generalize Declarations.enter lu tree siblings owner s a = done at hstep ⊢
  cases hstep with
  | passes | adds => exact ⟨_, _, rfl⟩
  | skips huse | keeps huse => exact absurd huse hc
  | expands hk => exact absurd (Declarations.category_of_macroExpansion hk) hc
  | @counts l hp hd hl ho =>
    refine absurd ⟨fun hroot => hp (.inr ⟨hd, .inl ?_⟩), hd, _, _, _, l, h, hl, ho⟩ hshut
    rw [hroot, node, Array.getD_eq_getD_getElem?, hgrown.root]
    rfl

/-- A node of the tree is the unit's own, or stands directly below another one. -/
theorem eq_zero_or_inside {x : Nat} (hx : x ∈ tree.preorder) :
    x = 0 ∨ ∃ p ∈ tree.preorder, x ∈ tree.inside p := by
  rw [mem_preorder] at hx
  rcases Branch.hangs_or_top (links tree.nodes) x with ⟨p, hp⟩ | htop
  · have hne : 0 ≠ x := by
      have hlt := Branch.hangs_lt hp
      omega
    exact .inr ⟨p, mem_preorder.mpr (Branch.mem_lineage_parent hp hx hne),
      Branch.mem_directlyBelow.mpr hp⟩
  · rw [Branch.lineage_of_top htop, List.mem_singleton] at hx
    exact .inl hx.symm

/-- The first pass comes to what is exposed. -/
theorem Exposed.comes (hgrown : Grown tree.nodes) {x : Nat} (hx : x ∈ tree.preorder)
    (h : tree.Exposed lu g x) :
    ∃ siblings owner s, Declarations.Comes lu tree g siblings owner x s := by
  induction x using Nat.strongRecOn with
  | _ x ih =>
    rcases eq_zero_or_inside hx with rfl | ⟨p, hp, hinside⟩
    · exact ⟨_, _, _, .root⟩
    · have hlt : p < x := Branch.hangs_lt (Branch.mem_directlyBelow.mp hinside)
      have hpx : p ∈ Branch.lineage (links tree.nodes) x :=
        mem_lineage_of_inside hinside (Branch.self_mem_lineage p)
      obtain ⟨hc, hshut⟩ := h p hpx (by omega)
      have habove : tree.Exposed lu g p := fun a ha _ => by
        have hle := Branch.le_of_mem_lineage ha
        exact h a (mem_lineage_of_inside hinside ha) (by omega)
      obtain ⟨siblings, owner, s, hcomes⟩ := ih p hlt hp habove
      obtain ⟨s', owner', hgoes⟩ := goes_on_of_not_shut hgrown hcomes hc hshut
      exact ⟨_, _, hcomes.goes_inside hgoes hinside⟩

/-- The first pass deals with what is exposed. -/
theorem Exposed.handled (hgrown : Grown tree.nodes) {x : Nat} (hx : x ∈ tree.preorder)
    (h : tree.Exposed lu g x) :
    Declarations.Handled lu tree (Declarations.build lu tree g) x := by
  obtain ⟨_, _, _, hcomes⟩ := h.comes hgrown hx
  exact hcomes.handled

end CursorTree

/-! ## What is dealt with -/

/-- A declaration that the first pass deals with has a node in the end. -/
theorem declared_indexTree {x : Nat} (hx : x ∈ tree.preorder)
    (hhandled : Declarations.Handled lu tree (Declarations.build lu tree g) x) (hne : x ≠ 0)
    (hd : (lu.unit.category (tree.cursor x)).declares = true) {l : Location}
    (hl : lu.place (tree.cursor x) = some l) : (indexTree lu tree g).2.occupied l = true := by
  have hpending := (Declarations.build_advances lu tree g).2
  have hgrown := References.resolvePending_growsBy hpending (Declarations.build lu tree g).graph
  have hinner : (tree.node x).parent ≠ none := by
    obtain ⟨p, _, hinside⟩ := (CursorTree.eq_zero_or_inside hx).resolve_left hne
    rw [CursorTree.parent_of_inside hinside]
    exact Option.some_ne_none p
  have hplaced : lu.place (tree.cursor x) ≠ none := by
    rw [hl]
    exact Option.some_ne_none l
  have hstays := CursorTree.not_passesThrough hd hinner hplaced
  exact hgrown.extends_.occupied (hhandled.declared hstays hd l hl)

/-- A use that the first pass deals with has a node in the end, if its target is found, and so is
    that of an earlier use which was kept in its stead. -/
theorem used_indexTree (hgrown : CursorTree.Grown tree.nodes) {x : Nat}
    (hhandled : Declarations.Handled lu tree (Declarations.build lu tree g) x)
    (hc : lu.unit.category (tree.cursor x) = .reference) {l : Location}
    (hl : lu.place (tree.cursor x) = some l)
    (hfound : References.Found lu tree (Declarations.build lu tree g).graph x)
    (hstead : ∀ e ∈ (Declarations.build lu tree g).pending, (e.1 == l) = true → e.2 < x →
      References.Found lu tree (Declarations.build lu tree g).graph e.2) :
    (indexTree lu tree g).2.occupied l = true := by
  have hpending := (Declarations.build_advances lu tree g).2
  have hgrows := References.resolvePending_growsBy hpending (Declarations.build lu tree g).graph
  rcases hhandled.used hc l hl with ho | ⟨⟨e, he, hel, hfirst⟩, _⟩
  · exact hgrows.extends_.occupied ho
  · have hkept : References.Found lu tree (Declarations.build lu tree g).graph e.2 := by
      rcases hfirst with heq | hbefore
      · rwa [heq]
      · exact hstead e he hel (hbefore.lt hgrown.sequential)
    have ho := References.resolvePending_occupied hpending he hkept
    rwa [SymbolGraph.occupied_congr hel] at ho

/-- **Indexing a unit leaves out nothing that is exposed**, whatever is in the graph.  Every
    declaration but the unit's own cursor has a node in the end, and so has every use whose target
    is in the graph after the first pass, unless an earlier use was kept in its stead and leads
    nowhere. -/
theorem indexUnit_complete {lu : LocatedUnit} {g g' : SymbolGraph} {report : UnitReport}
    (h : indexUnit lu g = .ok (report, g')) :
    ∃ tree, CursorTree.reconstruct lu = .ok tree ∧
      ∀ x ∈ tree.preorder, tree.Exposed lu g x → ∀ l, lu.place (tree.cursor x) = some l →
        (x ≠ 0 → (lu.unit.category (tree.cursor x)).declares = true → g'.occupied l = true) ∧
        (lu.unit.category (tree.cursor x) = .reference →
          References.Found lu tree (Declarations.build lu tree g).graph x →
          (∀ e ∈ (Declarations.build lu tree g).pending, (e.1 == l) = true → e.2 < x →
            References.Found lu tree (Declarations.build lu tree g).graph e.2) →
              g'.occupied l = true) := by
  obtain ⟨tree, htree, hdone⟩ := indexUnit_eq_ok_iff.mp h
  cases hdone
  have hgrown := CursorTree.grown_of_reconstruct htree
  refine ⟨tree, htree, fun x hx hexposed l hl => ?_⟩
  have hhandled := hexposed.handled hgrown hx
  exact ⟨fun hne hd => declared_indexTree hx hhandled hne hd hl,
    fun hc hfound hstead => used_indexTree hgrown hhandled hc hl hfound hstead⟩

/-- A file with a class and a function. -/
def draftUnit : LocatedUnit :=
  .ofUnit {} {
    mainFile := ⟨"/t/a.cpp"⟩
    cursors := #[
      { kind := .translationUnit, spelling := "/t/a.cpp", position := .none },
      { kind := .classDecl, spelling := "C", position := ⟨some ⟨"/t/a.cpp"⟩, 1, 7⟩,
        isDefinition := true, parent := some 0 },
      { kind := .fieldDecl, spelling := "n", position := ⟨some ⟨"/t/a.cpp"⟩, 2, 7⟩,
        isDefinition := true, parent := some 1 },
      { kind := .functionDecl, spelling := "f", position := ⟨some ⟨"/t/a.cpp"⟩, 5, 6⟩,
        isDefinition := true, parent := some 0 }] }

/-- The file after an edit.  The class has a new member and the function a new use; two variables of
    the class follow, the first of them with two uses at one place; a record is seen a second time
    with a member; a variable comes out of a macro. -/
def editedUnit : LocatedUnit :=
  .ofUnit {} {
    mainFile := ⟨"/t/a.cpp"⟩
    cursors := #[
      { kind := .translationUnit, spelling := "/t/a.cpp", position := .none },
      { kind := .classDecl, spelling := "C", position := ⟨some ⟨"/t/a.cpp"⟩, 1, 7⟩,
        isDefinition := true, parent := some 0 },
      { kind := .fieldDecl, spelling := "n", position := ⟨some ⟨"/t/a.cpp"⟩, 2, 7⟩,
        isDefinition := true, parent := some 1 },
      { kind := .fieldDecl, spelling := "m", position := ⟨some ⟨"/t/a.cpp"⟩, 3, 7⟩,
        isDefinition := true, parent := some 1 },
      { kind := .functionDecl, spelling := "f", position := ⟨some ⟨"/t/a.cpp"⟩, 5, 6⟩,
        isDefinition := true, parent := some 0 },
      { kind := .memberRefExpr, spelling := "n", position := ⟨some ⟨"/t/a.cpp"⟩, 6, 5⟩,
        parent := some 4, referenced := some 2 },
      { kind := .varDecl, spelling := "v", position := ⟨some ⟨"/t/a.cpp"⟩, 8, 4⟩,
        isDefinition := true, parent := some 0 },
      { kind := .declRefExpr, spelling := "C", position := ⟨some ⟨"/t/a.cpp"⟩, 8, 1⟩,
        parent := some 6, referenced := some 1 },
      { kind := .typeRef, spelling := "C", position := ⟨some ⟨"/t/a.cpp"⟩, 8, 1⟩,
        parent := some 6, referenced := some 1 },
      { kind := .varDecl, spelling := "w", position := ⟨some ⟨"/t/a.cpp"⟩, 9, 4⟩,
        isDefinition := true, parent := some 0 },
      { kind := .typeRef, spelling := "C", position := ⟨some ⟨"/t/a.cpp"⟩, 9, 1⟩,
        parent := some 9, referenced := some 1 },
      { kind := .structDecl, spelling := "D", position := ⟨some ⟨"/t/a.cpp"⟩, 10, 8⟩,
        isDefinition := true, parent := some 0 },
      { kind := .structDecl, spelling := "D", position := ⟨some ⟨"/t/a.cpp"⟩, 10, 8⟩,
        isDefinition := true, parent := some 0 },
      { kind := .fieldDecl, spelling := "k", position := ⟨some ⟨"/t/a.cpp"⟩, 11, 7⟩,
        isDefinition := true, parent := some 12 },
      { kind := .macroDefinition, spelling := "M", position := ⟨some ⟨"/t/a.cpp"⟩, 12, 9⟩,
        isDefinition := true, parent := some 0 },
      { kind := .macroExpansion, spelling := "M", position := ⟨some ⟨"/t/a.cpp"⟩, 13, 1⟩,
        parent := some 0 },
      { kind := .varDecl, spelling := "u", position := ⟨some ⟨"/t/a.cpp"⟩, 13, 1⟩,
        isDefinition := true, parent := some 0 },
      { kind := .typeRef, spelling := "C", position := ⟨some ⟨"/t/a.cpp"⟩, 13, 3⟩,
        parent := some 16, referenced := some 1 }] }

def editedTree : CursorTree :=
  ⟨#[⟨0, none⟩, ⟨1, some 0⟩, ⟨2, some 1⟩, ⟨3, some 1⟩, ⟨4, some 0⟩, ⟨5, some 4⟩, ⟨6, some 0⟩,
    ⟨7, some 6⟩, ⟨8, some 6⟩, ⟨9, some 0⟩, ⟨10, some 9⟩, ⟨11, some 0⟩, ⟨12, some 0⟩,
    ⟨13, some 12⟩, ⟨14, some 0⟩, ⟨15, some 0⟩, ⟨16, some 0⟩, ⟨17, some 16⟩]⟩

theorem reconstruct_editedUnit : CursorTree.reconstruct editedUnit = .ok editedTree := by
  have hnodes : ((CursorTree.reconstruct editedUnit).toOption.map (·.nodes)) =
      some editedTree.nodes := by
    decide +kernel
  cases ht : CursorTree.reconstruct editedUnit with
  | error e =>
    rw [ht] at hnodes
    cases hnodes
  | ok tree =>
    rw [ht] at hnodes
    exact congrArg _ (congrArg CursorTree.mk (Option.some.inj hnodes))

/-- The graph of the file before the edit. -/
def draftGraph : SymbolGraph := SymbolGraph.ofUnits [draftUnit]

/-- The place of the second variable is free. -/
theorem exposed_editedUnit {x : Nat} (hx : x ∈ [9, 10]) :
    editedTree.Exposed editedUnit draftGraph x := by
  intro a ha hne
  have habove : ∀ x ∈ [9, 10], ∀ a ∈ Branch.lineage (CursorTree.links editedTree.nodes) x,
      a ≠ x → a = 0 ∨ a = 9 := by
    decide +kernel
  have hfree : ∀ l ∈ (editedUnit.place (editedTree.cursor 9)).toList,
      draftGraph.occupied l = false ∧ ∀ m < 9,
        ∀ b ∈ (editedUnit.place (editedTree.cursor m)).toList, (b == l) = false := by
    decide +kernel
  rcases habove x hx a ha hne with rfl | rfl
  · exact ⟨by decide +kernel, fun hshut => hshut.inner rfl⟩
  · refine ⟨by decide +kernel, fun hshut => ?_⟩
    obtain ⟨l, hl, htaken⟩ := hshut.cause (CursorTree.grown_of_reconstruct reconstruct_editedUnit)
    obtain ⟨hgraph, hunit⟩ := hfree l (Option.mem_toList.mpr hl)
    rcases htaken with ho | ⟨m, hm, hputs⟩
    · rw [hgraph] at ho
      cases ho
    · obtain ⟨b, hb, hbl⟩ := hputs.place
      rw [hunit m hm b (Option.mem_toList.mpr hb)] at hbl
      cases hbl

theorem indexUnit_complete_editedUnit :
    ∃ report g', indexUnit editedUnit draftGraph = .ok (report, g') ∧
      g'.occupied ⟨⟨"/t/a.cpp"⟩, 9, 4⟩ = true ∧ g'.occupied ⟨⟨"/t/a.cpp"⟩, 9, 1⟩ = true := by
  obtain ⟨lv, hlv, hv⟩ : ∃ l, editedUnit.place (editedTree.cursor 9) = some l ∧
      (l == ⟨⟨"/t/a.cpp"⟩, 9, 4⟩) = true := (Option.any_eq_true _ _).mp (by decide +kernel)
  obtain ⟨lu, hlu, hu⟩ : ∃ l, editedUnit.place (editedTree.cursor 10) = some l ∧
      (l == ⟨⟨"/t/a.cpp"⟩, 9, 1⟩) = true := (Option.any_eq_true _ _).mp (by decide +kernel)
  have hdone := indexUnit_eq_ok_iff (g := draftGraph).mpr ⟨_, reconstruct_editedUnit, rfl⟩
  obtain ⟨tree, htree, hcomplete⟩ := indexUnit_complete hdone
  rw [reconstruct_editedUnit] at htree
  cases htree
  have hvariable := hcomplete 9 (by decide +kernel) (exposed_editedUnit (by decide)) lv hlv
  have huse := hcomplete 10 (by decide +kernel) (exposed_editedUnit (by decide)) lu hlu
  have hfound : References.Found editedUnit editedTree
      (Declarations.build editedUnit editedTree draftGraph).graph 10 :=
    ⟨1, 1, .referenced (fun _ => by decide +kernel) (by decide +kernel),
      fun hk => absurd hk (by decide +kernel), by decide +kernel⟩
  have halone : ∀ e ∈ (Declarations.build editedUnit editedTree draftGraph).pending,
      (e.1 == ⟨⟨"/t/a.cpp"⟩, 9, 1⟩) = true → ¬e.2 < 10 := by
    decide +kernel
  refine ⟨_, _, hdone, ?_, ?_⟩
  · rw [← SymbolGraph.occupied_congr hv]
    exact hvariable.1 (by decide) (by decide +kernel)
  · rw [← SymbolGraph.occupied_congr hu]
    exact huse.2 (by decide +kernel) hfound fun e he hel hlt =>
      absurd hlt (halone e he (BEq.trans hel hu))

/-- In the edited file no use stands around the new member, the member of the record seen again, the
    new use in the function, the second use at one place, and the use out of the macro.  The members
    are declared and the uses lead to nodes that are there after the first pass, but all five are
    left out. -/
theorem edited_inside_left_out :
    indexUnit editedUnit draftGraph = .ok (indexTree editedUnit editedTree draftGraph) ∧
      (∀ x ∈ [3, 13, 5, 8, 17], x ∈ editedTree.preorder ∧
        (∀ a ∈ Branch.lineage (CursorTree.links editedTree.nodes) x, a ≠ x →
          editedUnit.unit.category (editedTree.cursor a) ≠ .reference) ∧
        (editedUnit.place (editedTree.cursor x)).map
          (indexTree editedUnit editedTree draftGraph).2.occupied = some false) ∧
      (∀ x ∈ [3, 13], (editedUnit.unit.category (editedTree.cursor x)).declares = true) ∧
      ∀ x ∈ [5, 8, 17], editedUnit.unit.category (editedTree.cursor x) = .reference ∧
        References.Found editedUnit editedTree
          (Declarations.build editedUnit editedTree draftGraph).graph x := by
  refine ⟨indexUnit_eq_ok_iff.mpr ⟨_, reconstruct_editedUnit, rfl⟩, by decide +kernel,
    by decide +kernel, fun x hx => ?_⟩
  have hnamed : ∀ x ∈ [5, 8, 17],
      editedUnit.unit.category (editedTree.cursor x) = .reference ∧
        editedUnit.unit.kind (editedTree.cursor x) ∉ [.classDecl, .structDecl, .declRefExpr] ∧
        ∃ t ∈ [1, 2], ∃ d ∈ [1, 2], editedUnit.unit.referenced (editedTree.cursor x) = some t ∧
          (editedUnit.place t).bind
            (Declarations.build editedUnit editedTree draftGraph).graph.nodeAt = some d := by
    decide +kernel
  obtain ⟨hc, hk, t, _, d, _, ht, hd⟩ := hnamed x hx
  refine ⟨hc, t, d, .referenced (fun hself => ?_) ht, fun hexpression => ?_, hd⟩
  · rcases hself.1 with h | h
    · simp [h] at hk
    · simp [h] at hk
  · simp [hexpression] at hk

end SymbolAtlas
