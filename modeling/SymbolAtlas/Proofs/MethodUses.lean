import Mathlib.Data.List.Induction
import SymbolAtlas.Proofs.UnitRuns

/-!
# Uses of methods

A method may be declared in one place and defined in another.  Its uses go below the declaration,
also those that name the definition, since the definition is asked for its declaration before a use
is attached.  A use is attached once: a declaration that comes with a later unit gets the uses that
come after it only.

* `Late` — a declaration came with a later unit than a use.

Principal result: `method_use` — a use hangs below the node of its target or a declaration of it,
and it hangs below the definition of a method only if every declaration of that method is late.
-/

set_option autoImplicit false

namespace SymbolAtlas.SymbolGraph

/-! ## Where uses of a definition go -/

variable {g : SymbolGraph}

theorem WellFormed.not_matches (hg : g.WellFormed) {d : Nat} (hd : g.matchingDeclaration d = none)
    (m : Nat) : ¬g.Matches m d := by
  intro hm
  obtain ⟨n, _, hn, _, hcategory, _⟩ := hm.1
  obtain ⟨p, howner⟩ := hg.exists_owner hn (by rw [hcategory]; decide)
  exact ((matchingDeclaration_eq_none_iff hn hcategory howner).mp hd).1 m hm

/-- If uses of a node that was asked go below the definition of a method, then nothing matches the
    definition. -/
theorem WellFormed.not_matches_landing (hg : g.WellFormed) {d : Nat} (ha : g.Asked d) (m : Nat) :
    ¬g.Matches m (g.landing d) := by
  intro hm
  rcases hg.landing_cases d with hland | hdeclares
  · cases hl : g.linkedDeclaration d with
    | none =>
      rw [hland] at hm
      exact hg.not_matches (ha hl) m hm
    | some c =>
      obtain ⟨n, _, hn, _, hcategory, _⟩ := hg.linked d c hl
      have hdefinition : g.isMethodDefinition d = true := by
        rw [isMethodDefinition, hn, Option.any_some, hcategory]
        rfl
      have hlinked : g.landing d = c := by
        rw [ha.landing_eq, hdefinition, hl]
        rfl
      rw [hlinked] at hm
      exact (hg.linked d c hl).not_declares hm.1
  · exact hdeclares.not_declares hm.1

/-! ## One unit -/

variable {lu : LocatedUnit} {tree : CursorTree} {built g' : SymbolGraph}

/-- A use that the second pass of a unit attached does not hang below the definition of a method
    that matches a declaration. -/
theorem not_matches_of_new (hg : g.WellFormed)
    (hbuild : GrowsBy (Declarations.Cause lu tree) g built)
    (hresolve : GrowsBy (References.Cause lu tree) built g') {r d m : Nat} {s : Symbol}
    (hs : g'.core r = some (s, some d)) (hr : s.category = .reference)
    (hk : s.kind ≠ .macroExpansion) (hnew : g.size ≤ r) : ¬g'.Matches m d := by
  intro hm
  -- the declaration is there before the second pass
  have hm_built : m < built.size := by
    refine Classical.byContradiction fun hlate => ?_
    obtain ⟨_, n, _, hn, _, hcategory, _⟩ := declares_iff_core.mp hm.1
    obtain ⟨_, _, _, hcause, _⟩ := hresolve.origin (Nat.le_of_not_lt hlate) hn
    rw [hcause.category_eq] at hcategory
    cases hcategory
  -- the use is not
  have hr_new : built.size ≤ r := by
    refine Classical.byContradiction fun hearly => ?_
    rw [hresolve.extends_.core_eq (Nat.lt_of_not_le hearly)] at hs
    obtain ⟨_, _, _, hcause, _⟩ := hbuild.origin hnew hs
    cases hcause with
    | declared _ _ hd _ => exact Category.ne_reference hd hr
    | expanded _ hkind _ _ _ => exact hk hkind
  obtain ⟨k, p, hp, hcause, hsize, hbk, hrest, _⟩ := hresolve.origin hr_new hs
  have hbuilt_wf := hg.grows (hbuild.grows (fun _ _ _ hk hc => hc.lt hk) hg)
  have hk_wf := hbuilt_wf.grows (hbk.grows (fun _ _ _ hk hc => hc.lt hk) hbuilt_wf)
  have hkg : k.Extends g' := (extends_append k p s).trans hrest.extends_
  have hlt := hcause.lt hk_wf
  cases hp
  have hm_k : k.Matches m d :=
    (Matches.congr (hkg.core_eq hlt)
      (hkg.core_eq (Nat.lt_of_lt_of_le hm_built hbk.extends_.size_le))).mp hm
  cases hcause with
  | used _ _ _ _ _ _ hasked => exact hk_wf.not_matches_landing hasked m hm_k

/-! ## Runs -/

/-- The declaration came with a unit that was indexed after the use was attached. -/
def Late (us : List LocatedUnit) (use declaration : Nat) : Prop :=
  ∃ earlier later, us = earlier ++ later ∧ use < (ofUnits earlier).size ∧
    (ofUnits earlier).size ≤ declaration

theorem Late.concat {us : List LocatedUnit} {r m : Nat} (h : Late us r m) (lu : LocatedUnit) :
    Late (us ++ [lu]) r m := by
  obtain ⟨earlier, later, rfl, hr, hm⟩ := h
  exact ⟨earlier, later ++ [lu], List.append_assoc _ _ _, hr, hm⟩

/-- A use hangs below the definition of a method only if every declaration of it is late. -/
theorem late_of_matches (us : List LocatedUnit) {r d m : Nat} {s : Symbol}
    (hs : (ofUnits us).core r = some (s, some d)) (hr : s.category = .reference)
    (hk : s.kind ≠ .macroExpansion) (hm : (ofUnits us).Matches m d) : Late us r m := by
  induction us using List.reverseRecOn with
  | nil =>
    obtain ⟨n, hn, _, hparent⟩ := core_eq_some_iff.mp hs
    obtain rfl : r = 0 := Nat.lt_one_iff.mp (node?_eq_some_lt hn)
    cases hn
    cases hparent
  | append_singleton us lu ih =>
    have hwf := wellFormed_of_growsBy (ofUnits_growsBy us)
    have hwf' := wellFormed_of_growsBy (ofUnits_growsBy (us ++ [lu]))
    rw [ofUnits_concat] at hs hm hwf'
    unfold Operation.apply at hs hm hwf'
    simp only at hs hm hwf'
    split at hs
    · rename_i report g' hindex
      rw [hindex] at hm hwf'
      obtain ⟨tree, built, _, hbuild, hresolve⟩ := indexUnit_passes hindex
      have hext := hbuild.extends_.trans hresolve.extends_
      -- a use that the unit brings sees all declarations, so the use was there before: then so was
      -- the declaration, or the declaration is late
      by_cases hold : r < (ofUnits us).size
      · by_cases hm_old : m < (ofUnits us).size
        · refine (ih ?_ ?_).concat lu
          · rwa [hext.core_eq hold] at hs
          · have hd := hwf'.owner_lt hs
            exact (Matches.congr (hext.core_eq (by omega)) (hext.core_eq hm_old)).mp hm
        · exact ⟨us, [lu], rfl, hold, Nat.le_of_not_lt hm_old⟩
      · exact absurd hm (not_matches_of_new hwf hbuild hresolve hs hr hk (Nat.le_of_not_lt hold))
    · rename_i e hindex
      rw [hindex] at hm
      exact (ih hs hm).concat lu

/-- A use stands for a node of the graph, and hangs below it or below a declaration of it. -/
theorem use_origin {us : List LocatedUnit} {r p : Nat} {s : Symbol}
    (hs : (ofUnits us).core r = some (s, some p)) (hr : s.category = .reference)
    (hk : s.kind ≠ .macroExpansion) :
    ∃ lu ∈ us, ∃ c t d, lu.place c = s.location ∧ lu.Means c t ∧ lu.Admits c t ∧
      (lu.place t).bind (ofUnits us).nodeAt = some d ∧ (p = d ∨ (ofUnits us).Declares p d) := by
  have hgrown := ofUnits_growsBy us
  have hpos := (wellFormed_of_growsBy hgrown).pos_of_owner hs
  obtain ⟨k, p', hp, ⟨lu, hlu, tree, _, hcause⟩, _, hk_run, hrest, _⟩ := hgrown.origin hpos hs
  cases hp
  have hext := (extends_append k p s).trans hrest.extends_
  refine ⟨lu, hlu, ?_⟩
  rcases hcause with hcause | hcause
  · cases hcause with
    | declared _ _ hd _ => exact absurd hr (Category.ne_reference hd)
    | expanded _ hkind _ _ _ => exact absurd hkind hk
  · cases hcause with
    | @used id t d l _ _ hl ht ha hd _ =>
      refine ⟨tree.cursor id, t, d, hl, ht, ha, hext.bind_nodeAt hd, ?_⟩
      exact ((wellFormed_of_growsBy hk_run).landing_cases d).imp_right (·.mono hext)

/-- **A use hangs below its target or a declaration of it**, and below the definition of a method
    only if every declaration of the method is late. -/
theorem method_use (us : List LocatedUnit) {r : Nat} {n : GraphNode}
    (hn : (ofUnits us).node? r = some n) (hr : n.category = .reference)
    (hk : n.kind ≠ .macroExpansion) :
    (∀ d m, n.parent = some d → (ofUnits us).Matches m d → Late us r m) ∧
      ∃ lu ∈ us, ∃ c t d, lu.place c = n.location ∧ lu.Means c t ∧ lu.Admits c t ∧
        (lu.place t).bind (ofUnits us).nodeAt = some d ∧
          (n.parent = some d ∨ ∃ m, (ofUnits us).Declares m d ∧ n.parent = some m) := by
  have hwf := wellFormed_of_growsBy (ofUnits_growsBy us)
  obtain ⟨p, hp⟩ := hwf.exists_owner hn (by rw [hr]; decide)
  have hcore := core_eq_some_iff.mpr ⟨n, hn, rfl, hp⟩
  refine ⟨fun d m hd hm => ?_, ?_⟩
  · rw [hp] at hd
    cases hd
    exact late_of_matches us hcore hr hk hm
  · obtain ⟨lu, hlu, c, t, d, hl, ht, ha, hd, hplace⟩ := use_origin hcore hr hk
    refine ⟨lu, hlu, c, t, d, hl, ht, ha, hd, ?_⟩
    rcases hplace with rfl | hdeclares
    · exact .inl hp
    · exact .inr ⟨p, hdeclares, hp⟩

/-- A file that defines a method of a template outside its body and uses it. -/
def useUnit : LocatedUnit :=
  .ofUnit {} {
    mainFile := ⟨"/t/c.cpp"⟩
    cursors := #[
      { kind := .translationUnit, spelling := "/t/c.cpp", position := .none },
      { kind := .classTemplate, spelling := "Box", position := ⟨some ⟨"/t/box.h"⟩, 1, 27⟩,
        isDefinition := true, parent := some 0 },
      { kind := .method, spelling := "m", displayName := some "m()",
        position := ⟨some ⟨"/t/c.cpp"⟩, 4, 25⟩, isDefinition := true, parent := some 0,
        semanticParent := some 1 },
      { kind := .functionDecl, spelling := "user", position := ⟨some ⟨"/t/c.cpp"⟩, 8, 6⟩,
        isDefinition := true, parent := some 0 },
      { kind := .memberRefExpr, spelling := "m", displayName := some "m()",
        position := ⟨some ⟨"/t/c.cpp"⟩, 9, 5⟩, parent := some 3, referenced := some 2 }] }

/-- A file that declares the method. -/
def declarationUnit : LocatedUnit :=
  .ofUnit {} {
    mainFile := ⟨"/t/d.cpp"⟩
    cursors := #[
      { kind := .translationUnit, spelling := "/t/d.cpp", position := .none },
      { kind := .classTemplate, spelling := "Box", position := ⟨some ⟨"/t/box.h"⟩, 1, 27⟩,
        isDefinition := true, parent := some 0 },
      { kind := .method, spelling := "m", displayName := some "m()",
        position := ⟨some ⟨"/t/special.h"⟩, 2, 27⟩, parent := some 0, semanticParent := some 1 }] }

/-- The graph of the first file and then the second. -/
def lateGraph : SymbolGraph := ofUnits [useUnit, declarationUnit]

theorem method_use_late :
    ∃ n, lateGraph.node? 4 = some n ∧ n.category = .reference ∧ n.kind ≠ .macroExpansion ∧
      (∀ d m, n.parent = some d → lateGraph.Matches m d →
        Late [useUnit, declarationUnit] 4 m) ∧
      ∃ lu ∈ [useUnit, declarationUnit], ∃ c t d, lu.place c = n.location ∧ lu.Means c t ∧
        lu.Admits c t ∧ (lu.place t).bind lateGraph.nodeAt = some d ∧
          (n.parent = some d ∨ ∃ m, lateGraph.Declares m d ∧ n.parent = some m) := by
  have huse : (lateGraph.node? 4).any (fun n =>
      decide (n.category = .reference ∧ n.kind ≠ .macroExpansion)) = true := by
    decide +kernel
  obtain ⟨n, hn, htest⟩ := (Option.any_eq_true _ _).mp huse
  obtain ⟨hr, hk⟩ := of_decide_eq_true htest
  exact ⟨n, hn, hr, hk, method_use [useUnit, declarationUnit] hn hr hk⟩

/-- The use was found first and stays below the definition. -/
theorem use_below_definition :
    ¬∀ r d m, lateGraph.isReference r = true → lateGraph.parent r = some d →
      ¬lateGraph.Matches m d := by
  intro hmerged
  have hdefinition : (lateGraph.node? 2).any (fun n => decide (n.category = .methodDefinition ∧
      n.parent = some 1 ∧ n.name = "m" ∧ n.displayName = "m()")) = true := by
    decide +kernel
  have hdeclaration : (lateGraph.node? 5).any (fun n => decide (n.category = .methodDeclaration ∧
      n.parent = some 1 ∧ n.name = "m" ∧ n.displayName = "m()")) = true := by
    decide +kernel
  obtain ⟨n, hn, hn'⟩ := (Option.any_eq_true _ _).mp hdefinition
  obtain ⟨m, hm, hm'⟩ := (Option.any_eq_true _ _).mp hdeclaration
  obtain ⟨hnc, hnp, hnn, hnd⟩ := of_decide_eq_true hn'
  obtain ⟨hmc, hmp, hmn, hmd⟩ := of_decide_eq_true hm'
  refine hmerged 4 2 5 (by decide +kernel) (by decide +kernel) ⟨?_, ?_⟩
  · exact ⟨n, m, hn, hm, hnc, hmc, hmp.trans hnp.symm, hmn.trans hnn.symm⟩
  · unfold core
    rw [hn, hm, Option.map_some, Option.map_some, Option.map_some, Option.map_some]
    exact congrArg some (hmd.trans hnd.symm)

end SymbolAtlas.SymbolGraph
