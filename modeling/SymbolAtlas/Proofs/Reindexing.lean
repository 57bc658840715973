import SymbolAtlas.Proofs.PassCoverage

/-!
# Indexing a unit again

The second time a unit is indexed, its declarations are in the graph, so the first pass adds none.
A use that got no node the first time is looked at again, and more may be known by then:

* a macro expansion was dealt with before the definition beside it, or
* what a use stands for became a node only while uses were attached, or another use at the same
  place was kept in its stead.

`CursorTree.Timely` rules these out; then indexing again changes nothing.

* `Covered`, `Idle` — what has to hold of a graph so that the first pass declares nothing and the
  uses of a unit lead to nothing.

Principal result: `reindex` — indexing a unit again declares nothing, and changes nothing at all if
the unit is timely.
-/

set_option autoImplicit false

namespace SymbolAtlas

variable {lu : LocatedUnit} {tree : CursorTree} {g : SymbolGraph}

/-- The declarations that the first pass reaches are in the graph. -/
def Covered (lu : LocatedUnit) (tree : CursorTree) (g : SymbolGraph) : Prop :=
  ∀ x, tree.Reaches lu 0 x → ¬tree.PassesThrough lu x →
    (lu.unit.category (tree.cursor x)).declares = true →
      ∀ l, lu.place (tree.cursor x) = some l → g.occupied l = true

/-- The uses that the first pass reaches are in the graph, or nothing is there for them. -/
def Idle (lu : LocatedUnit) (tree : CursorTree) (g : SymbolGraph) : Prop :=
  ∀ x, tree.Reaches lu 0 x → lu.unit.category (tree.cursor x) = .reference →
    ∀ l, lu.place (tree.cursor x) = some l → g.occupied l = true ∨
      ¬References.Found lu tree g x ∧
        (lu.unit.kind (tree.cursor x) = .macroExpansion →
          ∀ m, tree.MacroBeside lu x m → (lu.place (tree.cursor m)).bind g.nodeAt = none)

namespace Declarations

/-! ## The first pass again -/

/-- What the first pass does to its state if the declarations that it reaches are in `g`. -/
structure Rechecks (lu : LocatedUnit) (tree : CursorTree) (g : SymbolGraph)
    (s s' : Declarations SymbolGraph) : Prop where
  extends_ : s.graph.Extends s'.graph
  declarations : s'.stats.declarations = s.stats.declarations
  reparented : s'.stats.reparented = s.stats.reparented
  idle : Idle lu tree g → s.graph = g → s'.graph = g ∧
    s'.stats.macroReferences = s.stats.macroReferences ∧
      ∀ e ∈ s'.pending, e ∈ s.pending ∨ IsUse lu tree e ∧ ¬References.Found lu tree g e.2

theorem Rechecks.refl (s : Declarations SymbolGraph) : Rechecks lu tree g s s :=
  ⟨.refl _, rfl, rfl, fun _ hs => ⟨hs, rfl, fun _ he => .inl he⟩⟩

theorem Rechecks.trans {s t u : Declarations SymbolGraph} (hst : Rechecks lu tree g s t)
    (htu : Rechecks lu tree g t u) : Rechecks lu tree g s u where
  extends_ := hst.extends_.trans htu.extends_
  declarations := htu.declarations.trans hst.declarations
  reparented := htu.reparented.trans hst.reparented
  idle hidle hs := by
    obtain ⟨ht, hmacros, hpending⟩ := hst.idle hidle hs
    obtain ⟨hu, hmacros', hpending'⟩ := htu.idle hidle ht
    exact ⟨hu, hmacros'.trans hmacros, fun e he => (hpending' e he).elim (hpending e) .inr⟩

/-- A step declares nothing, and goes on inside only where nothing is declared. -/
theorem Enters.rechecks {siblings : List Nat} {owner id : Nat} {s : Declarations SymbolGraph}
    {done : Declarations SymbolGraph × Option Nat} (h : Enters lu tree siblings owner s id done)
    (hcovered : Covered lu tree g) (hid : tree.Reaches lu 0 id)
    (hsiblings : ∀ m ∈ siblings, tree.Siblings id m) (hg : g.Extends s.graph) :
    Rechecks lu tree g s done.1 ∧ (done.2 ≠ none → tree.PassesThrough lu id) := by
  cases h with
  | passes hp => exact ⟨.refl s, fun _ => hp⟩
  | skips _ _ => exact ⟨.refl s, fun hne => absurd rfl hne⟩
  | @keeps l hc hl hf hm =>
    refine ⟨⟨?_, by rw [keep_stats], by rw [keep_stats], fun hidle hs => ?_⟩,
      fun hne => absurd rfl hne⟩
    · rw [keep_graph]
      exact .refl _
    · rw [keep_graph, keep_stats]
      refine ⟨hs, rfl, fun e he => (mem_pending_keep he).imp_right fun heq => ?_⟩
      subst heq hs
      rcases hidle id hid hc l hl with ho | ⟨hnot, _⟩
      · exact absurd ho (SymbolGraph.not_occupied hf)
      · exact ⟨⟨hid.mem_preorder, hc, hl⟩, hnot⟩
  | @expands l definition hk hl hf hm =>
    refine ⟨⟨SymbolGraph.extends_append _ _ _, rfl, rfl, fun hidle hs => ?_⟩,
      fun hne => absurd rfl hne⟩
    -- in an idle graph nothing stands beside the expansion
    subst hs
    obtain ⟨m, hbeside, hnode⟩ := siblingMacro_eq_some hsiblings hm
    rcases hidle id hid (category_of_macroExpansion hk) l hl with ho | ⟨_, hdefinitions⟩
    · exact absurd ho (SymbolGraph.not_occupied hf)
    · rw [hdefinitions hk m hbeside] at hnode
      cases hnode
  | counts _ _ _ _ =>
    exact ⟨⟨.refl _, rfl, rfl, fun _ hs => ⟨hs, rfl, fun _ he => .inl he⟩⟩,
      fun hne => absurd rfl hne⟩
  | @adds l hp hd hl hf reparented =>
    exact absurd (hg.occupied (hcovered id hid hp hd l hl)) (SymbolGraph.not_occupied hf)

/-- Visiting a node declares nothing. -/
theorem visit_rechecks (hcovered : Covered lu tree g) (i : Nat) :
    ∀ (siblings : List Nat) (owner : Nat) (s : Declarations SymbolGraph), tree.Reaches lu 0 i →
      (∀ m ∈ siblings, tree.Siblings i m) → g.Extends s.graph →
        Rechecks lu tree g s (visit lu tree siblings owner (tree.branchAt i) s) := by
  induction i using tree.climb with
  | step i ih =>
    intro siblings owner s hi hsiblings hg
    have hstep := (enters lu tree siblings owner s i).rechecks hcovered hi hsiblings hg
    rw [visit_branchAt]
    split
    · rename_i s' he
      rw [he] at hstep
      exact hstep.1
    · rename_i s' owner' he
      rw [he] at hstep
      have hp := hstep.2 (Option.some_ne_none _)
      have hg' := hg.trans hstep.1.extends_
      refine hstep.1.trans (List.foldlRecOn (motive := Rechecks lu tree g s') _ _ (.refl s')
        fun t ht c hc => ht.trans ?_)
      exact ih c hc _ owner' t (hi.tail ⟨hp, hc⟩) (fun m hm => ⟨i, hc, hm⟩) (hg'.trans ht.extends_)

/-- The first pass declares nothing if all that it reaches is in the graph. -/
theorem build_rechecks (hcovered : Covered lu tree g) :
    Rechecks lu tree g { graph := g } (build lu tree g) :=
  visit_rechecks hcovered 0 [] SymbolGraph.root { graph := g } .refl (fun _ hm => by cases hm)
    (.refl g)

end Declarations

namespace References

/-! ## The second pass again -/

/-- A step at a use whose target is not there changes nothing. -/
theorem Examines.rests {id : Nat} {s : References SymbolGraph}
    {done : References SymbolGraph × Bool}
    (h : Examines lu tree s id done) (hc : lu.unit.category (tree.cursor id) = .reference)
    {l : Location} (hl : lu.place (tree.cursor id) = some l) (hnot : ¬Found lu tree s.graph id) :
    done.2 = false ∧ done.1.graph = s.graph ∧ done.1.stats.created = s.stats.created := by
  cases h with
  | passes hp _ => exact absurd hp (not_passes hc hl)
  | taken _ _ hg hs => exact ⟨rfl, hg, hs .created⟩
  | drops _ _ _ ho hg hs =>
    have hcreated := hs .created
    rw [if_neg ho.symm] at hcreated
    exact ⟨rfl, hg, hcreated⟩
  | attaches _ _ _ hm ha hn _ _ => exact absurd ⟨_, _, hm, ha, hn⟩ hnot

theorem resolvePending_rests {pending : List (Location × Nat)}
    (hp : ∀ e ∈ pending, Declarations.IsUse lu tree e ∧ ¬Found lu tree g e.2) :
    (resolvePending lu tree g pending).graph = g ∧
      (resolvePending lu tree g pending).stats.created = 0 := by
  rw [resolvePending_eq_foldl fun e he => (hp e he).1.place]
  refine List.foldlRecOn
   
      (motive := fun t : References SymbolGraph => t.graph = g ∧ t.stats.created = 0) _ _
    ⟨rfl, rfl⟩ ?_
  rintro t ⟨ht, hcreated⟩ e he
  obtain ⟨huse, hnot⟩ := hp e he
  rw [← ht] at hnot
  obtain ⟨hstops, hsame, hsame'⟩ :=
    (examines lu tree t e.2).rests huse.category huse.place hnot
  rw [resolveAt_eq]
  split
  · rename_i s' he
    rw [he] at hstops
    cases hstops
  · rename_i s' he
    rw [he] at hsame hsame'
    exact ⟨hsame.trans ht, hsame'.trans hcreated⟩

end References

/-- Indexing a unit does nothing if its declarations are in the graph and its uses are idle. -/
theorem indexTree_rests (hcovered : Covered lu tree g) (hidle : Idle lu tree g) :
    (indexTree lu tree g).2 = g ∧ (indexTree lu tree g).1.nodesAdded = 0 ∧
      (indexTree lu tree g).1.build.macroReferences = 0 ∧
        (indexTree lu tree g).1.resolve.created = 0 := by
  obtain ⟨hbuilt, hmacros, hpending⟩ := (Declarations.build_rechecks hcovered).idle hidle rfl
  obtain ⟨hgraph, hcreated⟩ := References.resolvePending_rests fun e he =>
    (hpending e he).resolve_left fun hnil => by cases hnil
  have hresolve : ∀ pending, References.resolvePending lu tree (Declarations.build lu tree g).graph
      pending = References.resolvePending lu tree g pending := fun _ => by rw [hbuilt]
  unfold indexTree indexTreeInto
  simp only [hresolve, hgraph, Nat.sub_self]
  exact ⟨trivial, trivial, hmacros, hcreated⟩

/-! ## Timely units -/

/-- What a unit's uses stand for is known in time.  An expansion with a located definition of its
    name beside it has one in front of it.  If what a use stands for has a node in the end, then
    what any use at its place stands for had one when the second pass began. -/
structure CursorTree.Timely (lu : LocatedUnit) (tree : CursorTree) (g : SymbolGraph) : Prop where
  macros : ∀ x, tree.Reaches lu 0 x → lu.unit.kind (tree.cursor x) = .macroExpansion →
    ∀ m, tree.MacroBeside lu x m → lu.place (tree.cursor m) ≠ none →
      ∃ m', tree.MacroBeside lu x m' ∧ m' < x ∧ lu.place (tree.cursor m') ≠ none
  targets : ∀ x, tree.Reaches lu 0 x → lu.unit.category (tree.cursor x) = .reference →
    References.Found lu tree (indexTree lu tree g).2 x →
      ∀ y ∈ tree.preorder, lu.unit.category (tree.cursor y) = .reference →
        (lu.place (tree.cursor y) == lu.place (tree.cursor x)) = true →
          References.Found lu tree (Declarations.build lu tree g).graph y

/-- Indexing a unit puts the declarations that the first pass reaches into the graph. -/
theorem covered_indexTree (lu : LocatedUnit) (tree : CursorTree) (g : SymbolGraph) :
    Covered lu tree (indexTree lu tree g).2 := by
  intro x hx hp hd l hl
  have hpending := (Declarations.build_advances lu tree g).2
  exact (References.resolvePending_growsBy hpending _).extends_.occupied
    ((Declarations.build_handled lu tree g hx).declared hp hd l hl)

/-- Indexing a timely unit leaves no use behind for which something is there. -/
theorem idle_indexTree (h : tree.Timely lu g) : Idle lu tree (indexTree lu tree g).2 := by
  intro x hx hc l hl
  have hpending := (Declarations.build_advances lu tree g).2
  have hgrown := (References.resolvePending_growsBy hpending
    (Declarations.build lu tree g).graph).extends_
  refine Classical.or_iff_not_imp_left.mpr fun hfree => ?_
  have hhandled := (Declarations.build_handled lu tree g hx).used hc l hl
  rcases hhandled with ho | ⟨⟨e, he, hel, _⟩, hdefinitions⟩
  · exact absurd (hgrown.occupied ho) hfree
  · refine ⟨fun hfound => hfree ?_, fun hk m hbeside => ?_⟩
    · -- the use that was kept at the place would have been attached
      have huse := hpending e he
      have hplace : (lu.place (tree.cursor e.2) == lu.place (tree.cursor x)) = true := by
        rw [huse.place, hl]
        exact hel
      have hkept := h.targets x hx hc hfound e.2 huse.mem huse.category hplace
      have ho := References.resolvePending_occupied hpending he hkept
      rwa [SymbolGraph.occupied_congr hel] at ho
    · cases hplaced : lu.place (tree.cursor m) with
      | none => rfl
      | some lm =>
        obtain ⟨m', hbeside', hlt, hplaced'⟩ :=
          h.macros x hx hk m hbeside (by rw [hplaced]; exact Option.some_ne_none lm)
        exact absurd (hdefinitions hk m' hbeside' hlt) hplaced'

/-- **Indexing a unit again** declares nothing, and it changes nothing at all if what its uses
    stand for was known in time. -/
theorem reindex {lu : LocatedUnit} {g g₁ : SymbolGraph} {r₁ : UnitReport}
    (h : indexUnit lu g = .ok (r₁, g₁)) :
    ∃ r₂ g₂, indexUnit lu g₁ = .ok (r₂, g₂) ∧ r₂.build.declarations = 0 ∧
      r₂.build.reparented = 0 ∧
        ((∀ tree, CursorTree.reconstruct lu = .ok tree → tree.Timely lu g) →
          g₂ = g₁ ∧ r₂.nodesAdded = 0 ∧ r₂.build.macroReferences = 0 ∧
            r₂.resolve.created = 0) := by
  obtain ⟨tree, ht, hdone⟩ := indexUnit_eq_ok_iff.mp h
  cases hdone
  have hcovered := covered_indexTree lu tree g
  have hbuild := Declarations.build_rechecks hcovered
  exact ⟨_, _, indexUnit_eq_ok_iff.mpr ⟨tree, ht, rfl⟩, hbuild.declarations, hbuild.reparented,
    fun htimely => indexTree_rests hcovered (idle_indexTree (htimely tree ht))⟩

/-- A file that defines a macro and a record before it uses them. -/
def orderedUnit : LocatedUnit :=
  .ofUnit {} {
    mainFile := ⟨"/t/a.cpp"⟩
    cursors := #[
      { kind := .translationUnit, spelling := "/t/a.cpp", position := .none },
      { kind := .macroDefinition, spelling := "N", position := ⟨some ⟨"/t/a.cpp"⟩, 1, 9⟩,
        isDefinition := true, parent := some 0 },
      { kind := .macroExpansion, spelling := "N", position := ⟨some ⟨"/t/a.cpp"⟩, 9, 14⟩,
        parent := some 0, referenced := some 1 },
      { kind := .structDecl, spelling := "S", position := ⟨some ⟨"/t/a.cpp"⟩, 4, 8⟩,
        parent := some 0, definition := some 4 },
      { kind := .structDecl, spelling := "S", position := ⟨some ⟨"/t/a.cpp"⟩, 5, 8⟩,
        isDefinition := true, parent := some 0 },
      { kind := .typeRef, spelling := "S", position := ⟨some ⟨"/t/a.cpp"⟩, 7, 1⟩,
        parent := some 0, referenced := some 4 }] }

def orderedTree : CursorTree :=
  ⟨#[⟨0, none⟩, ⟨1, some 0⟩, ⟨2, some 0⟩, ⟨3, some 0⟩, ⟨4, some 0⟩, ⟨5, some 0⟩]⟩

theorem reconstruct_orderedUnit : CursorTree.reconstruct orderedUnit = .ok orderedTree := by
  with_unfolding_all rfl

theorem timely_orderedUnit : orderedTree.Timely orderedUnit .empty where
  macros x hx hk _ _ _ := by
    have hexpansions : ∀ x ∈ orderedTree.preorder,
        orderedUnit.unit.kind (orderedTree.cursor x) = .macroExpansion → x = 2 := by
      decide +kernel
    obtain rfl := hexpansions x hx.mem_preorder hk
    exact ⟨1, ⟨⟨0, by decide +kernel, by decide +kernel⟩, by decide +kernel, by decide +kernel⟩,
      by decide, by decide +kernel⟩
  targets _ _ _ _ y hy hc _ := by
    have huses : ∀ y ∈ orderedTree.preorder,
        orderedUnit.unit.category (orderedTree.cursor y) = .reference → y = 2 ∨ y = 3 ∨ y = 5 := by
      decide +kernel
    rcases huses y hy hc with rfl | rfl | rfl
    · exact ⟨1, 1, .referenced (fun _ => by decide +kernel) (by decide +kernel),
        fun hk => absurd hk (by decide +kernel), by decide +kernel⟩
    · exact ⟨4, 3, .definition ⟨by decide +kernel, by decide +kernel⟩ (by decide +kernel),
        fun hk => absurd hk (by decide +kernel), by decide +kernel⟩
    · exact ⟨4, 3, .referenced (fun _ => by decide +kernel) (by decide +kernel),
        fun hk => absurd hk (by decide +kernel), by decide +kernel⟩

theorem reindex_orderedUnit :
    ∃ r₁ g₁ r₂ g₂, indexUnit orderedUnit .empty = .ok (r₁, g₁) ∧
      indexUnit orderedUnit g₁ = .ok (r₂, g₂) ∧ r₂.build.declarations = 0 ∧ g₂ = g₁ ∧
        r₂.nodesAdded = 0 ∧ r₂.build.macroReferences = 0 ∧ r₂.resolve.created = 0 := by
  have hfirst := indexUnit_eq_ok_iff (g := .empty).mpr ⟨_, reconstruct_orderedUnit, rfl⟩
  obtain ⟨r₂, g₂, hsecond, hdeclarations, _, htimely⟩ := reindex hfirst
  refine ⟨_, _, r₂, g₂, hfirst, hsecond, hdeclarations, htimely fun tree htree => ?_⟩
  rw [reconstruct_orderedUnit] at htree
  cases htree
  exact timely_orderedUnit

/-- A file that uses a macro before its definition is seen, and a record before it is declared. -/
def earlyUnit : LocatedUnit :=
  .ofUnit {} {
    mainFile := ⟨"/t/a.cpp"⟩
    cursors := #[
      { kind := .translationUnit, spelling := "/t/a.cpp", position := .none },
      { kind := .macroExpansion, spelling := "N", position := ⟨some ⟨"/t/a.cpp"⟩, 9, 14⟩,
        parent := some 0 },
      { kind := .macroDefinition, spelling := "N", position := ⟨some ⟨"/t/a.cpp"⟩, 1, 9⟩,
        isDefinition := true, parent := some 0 },
      { kind := .unexposed, spelling := "", position := ⟨some ⟨"/t/a.cpp"⟩, 3, 1⟩,
        parent := some 0 },
      { kind := .typeRef, spelling := "S", position := ⟨some ⟨"/t/a.cpp"⟩, 3, 9⟩,
        parent := some 3, referenced := some 5 },
      { kind := .structDecl, spelling := "S", position := ⟨some ⟨"/t/a.cpp"⟩, 4, 8⟩,
        parent := some 0, definition := some 6 },
      { kind := .structDecl, spelling := "S", position := ⟨some ⟨"/t/a.cpp"⟩, 5, 8⟩,
        isDefinition := true, parent := some 0 }] }

def earlyTree : CursorTree :=
  ⟨#[⟨0, none⟩, ⟨1, some 0⟩, ⟨2, some 0⟩, ⟨3, some 0⟩, ⟨4, some 3⟩, ⟨5, some 0⟩, ⟨6, some 0⟩]⟩

theorem reconstruct_earlyUnit : CursorTree.reconstruct earlyUnit = .ok earlyTree := by
  with_unfolding_all rfl

/-- The macro expansion and the use of the record get their nodes the second time only. -/
theorem reindex_earlyUnit :
    ∃ r₁ g₁ r₂ g₂, indexUnit earlyUnit .empty = .ok (r₁, g₁) ∧
      indexUnit earlyUnit g₁ = .ok (r₂, g₂) ∧ r₂.build.macroReferences = 1 ∧
        r₂.resolve.created = 1 ∧ g₂.size = g₁.size + 2 :=
  ⟨_, _, _, _, indexUnit_eq_ok_iff.mpr ⟨earlyTree, reconstruct_earlyUnit, rfl⟩,
    indexUnit_eq_ok_iff.mpr ⟨earlyTree, reconstruct_earlyUnit, rfl⟩, by decide +kernel,
    by decide +kernel, by decide +kernel⟩

end SymbolAtlas
