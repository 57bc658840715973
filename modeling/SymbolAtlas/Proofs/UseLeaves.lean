import SymbolAtlas.Proofs.UnitRuns

/-!
# Uses are leaves

A use hangs below a declaration and owns nothing, as long as nothing is looked up where a use
stands.  Looked up are the target of a use, the semantic parent of a declaration, and a macro
definition beside an expansion.

A record that is declared without a body counts as a use of its definition, though other cursors
can refer to it.  If one unit makes it a node and another unit looks it up, then a use comes to
hang below a use; `forwardedUnits` are two such units.

Principal result: `use_leaf` — in a graph of units that look nothing up where a use stands, a use
owns nothing and its target is declared.
-/

set_option autoImplicit false

namespace SymbolAtlas

/-! ## What is looked up -/

/-- The cursors whose places are looked up when a node of the tree is dealt with. -/
inductive CursorTree.LooksUp (lu : LocatedUnit) (tree : CursorTree) (id : Nat) : Nat → Prop where
  | used {t : Nat} (hu : tree.Uses lu id t) : LooksUp lu tree id t
  | owner {t around : Nat} (hd : (lu.unit.category (tree.cursor id)).declares = true)
      (hs : lu.unit.semanticParent (tree.cursor id) = some t)
      (hp : (tree.node id).parent = some around)
      (hne : lu.alike t (tree.cursor around) = false) : LooksUp lu tree id t

/-- No cursor that one of the units looks up stands where one of them uses something that stands
    elsewhere. -/
def LocatedUnit.LookupsApart (us : List LocatedUnit) : Prop :=
  ∀ lu ∈ us, ∀ lu' ∈ us, ∀ tree tree', CursorTree.reconstruct lu = .ok tree →
    CursorTree.reconstruct lu' = .ok tree' → ∀ id ∈ tree.preorder, ∀ t, tree.LooksUp lu id t →
      ∀ id' ∈ tree'.preorder, ∀ l l', lu.place t = some l → tree'.UsesElsewhere lu' id' l' →
        (l' == l) = false

namespace SymbolGraph

/-- What uses of something declared go to is declared. -/
theorem IsDeclared.landing {g : SymbolGraph} (hg : g.WellFormed) {d : Nat} (hd : g.IsDeclared d) :
    g.IsDeclared (g.landing d) := by
  rcases hg.landing_cases d with hself | hdeclares
  · rw [hself]
    exact hd
  · obtain ⟨_, m, _, hm, _, hcategory, _⟩ := declares_iff_core.mp hdeclares
    refine ⟨m.1, m.2, hm, ?_⟩
    rw [hcategory]
    rfl

variable {us : List LocatedUnit} {k : SymbolGraph}

/-- A node that is looked up is declared. -/
theorem isDeclared_of_looksUp (h : LocatedUnit.LookupsApart us)
    (hk : GrowsBy (RunCause us) .empty k) {lu : LocatedUnit} (hlu : lu ∈ us) {tree : CursorTree}
    (htree : CursorTree.reconstruct lu = .ok tree) {id t p : Nat} (hid : id ∈ tree.preorder)
    (ht : tree.LooksUp lu id t) (hp : (lu.place t).bind k.nodeAt = some p) : k.IsDeclared p := by
  obtain ⟨l, hl, hnode⟩ := Option.bind_eq_some_iff.mp hp
  obtain ⟨l', hplace, heq⟩ := place_of_nodeAt hnode
  obtain ⟨n, hn, hl'⟩ := place_eq_some_iff.mp hplace
  have hcore := core_eq_some_iff.mpr ⟨n, hn, rfl, rfl⟩
  obtain ⟨lu', hlu', tree', htree', id', hid', _, hdeclares | ⟨_, hu⟩⟩ :=
    located_origin hk hcore hl'
  · exact ⟨_, _, hcore, hdeclares⟩
  · have hapart := h lu hlu lu' hlu' tree tree' htree htree' id hid t ht id' hid' l l' hl hu
    rw [heq] at hapart
    cases hapart

/-- A node goes below the root or below something declared, and a use below something declared. -/
theorem RunCause.isDeclared (h : LocatedUnit.LookupsApart us)
    (hk : GrowsBy (RunCause us) .empty k) {p : Nat} {s : Symbol} (hc : RunCause us k p s) :
    (p = root ∨ k.IsDeclared p) ∧ (s.category = .reference → k.IsDeclared p) := by
  obtain ⟨lu, hlu, tree, htree, hcause⟩ := hc
  have hlooked : ∀ {id t p}, id ∈ tree.preorder → tree.LooksUp lu id t →
      (lu.place t).bind k.nodeAt = some p → k.IsDeclared p :=
    isDeclared_of_looksUp h hk hlu htree
  rcases hcause with hcause | hcause
  · cases hcause with
    | @declared id _ l hid _ hd hp =>
      refine ⟨?_, fun huse => ?_⟩
      · rcases hp with hencloses | howner
        · exact hencloses
        · obtain ⟨t, around, hs, hparent, hne, hnode⟩ := Declarations.semanticOwner_eq_some howner
          exact .inr (hlooked hid (.owner hd hs hparent hne) hnode)
      · exact absurd huse (Category.ne_reference hd)
    | expanded hid hkind _ hm hp =>
      have hdeclared := hlooked hid (.used (.macroDefinition hkind hm)) hp
      exact ⟨.inr hdeclared, fun _ => hdeclared⟩
  · cases hcause with
    | used hid hu _ hm ha hd _ =>
      have hdeclared :=
        (hlooked hid (.used (.target hu hm ha)) hd).landing (wellFormed_of_growsBy hk)
      exact ⟨.inr hdeclared, fun _ => hdeclared⟩

/-- What owns a node is the root or declared, and what owns a use is declared. -/
theorem isDeclared_of_owner (h : LocatedUnit.LookupsApart us) {i p : Nat} {s : Symbol}
    (hi : (ofUnits us).core i = some (s, some p)) :
    (p = root ∨ (ofUnits us).IsDeclared p) ∧
      (s.category = .reference → (ofUnits us).IsDeclared p) := by
  have hgrown := ofUnits_growsBy us
  have hpos := (wellFormed_of_growsBy hgrown).pos_of_owner hi
  obtain ⟨k, p', hp, hcause, _, hk, hrest, _⟩ := hgrown.origin hpos hi
  cases hp
  have hmono : k.Extends (ofUnits us) := (extends_append k p s).trans hrest.extends_
  obtain ⟨howner, huse⟩ := hcause.isDeclared h hk
  exact ⟨howner.imp_right (·.mono hmono), fun hs => (huse hs).mono hmono⟩

/-- **Uses are leaves.**  In a graph of units that look nothing up where a use stands, a use owns
    nothing, and its target is declared. -/
theorem use_leaf (us : List LocatedUnit) (h : LocatedUnit.LookupsApart us) (i : Nat)
    (hi : (ofUnits us).isReference i = true) :
    (ofUnits us).children i = [] ∧
      ∃ p n, (ofUnits us).targetOf i = some p ∧ (ofUnits us).node? p = some n ∧
        n.category.declares = true := by
  have hwf := wellFormed_of_growsBy (ofUnits_growsBy us)
  obtain ⟨n, hn, hcategory⟩ := Option.any_eq_true _ _ |>.mp hi
  have huse : n.category = .reference := by
    cases hc : n.category <;> rw [hc] at hcategory <;> first | rfl | cases hcategory
  have hnot : ¬(ofUnits us).IsDeclared i := by
    rintro ⟨s, q, hs, hd⟩
    rw [core, hn] at hs
    cases hs
    exact Category.ne_reference hd huse
  refine ⟨List.eq_nil_iff_forall_not_mem.mpr fun c hc => ?_, ?_⟩
  · obtain ⟨m, hm, hparent⟩ := parent_eq_some_iff.mp (mem_children.mp hc)
    have hcore := core_eq_some_iff.mpr ⟨m, hm, rfl, hparent⟩
    rcases (isDeclared_of_owner h hcore).1 with rfl | hdeclared
    · rw [show (ofUnits us).node? root = some rootNode from hwf.root] at hn
      cases hn
      cases huse
    · exact hnot hdeclared
  · obtain ⟨p, hparent⟩ := hwf.exists_owner hn (by rw [huse]; decide)
    obtain ⟨s, q, hs, hd⟩ :=
      (isDeclared_of_owner h (core_eq_some_iff.mpr ⟨n, hn, rfl, hparent⟩)).2 huse
    obtain ⟨m, hm, rfl, _⟩ := core_eq_some_iff.mp hs
    refine ⟨p, m, ?_, hm, hd⟩
    rw [targetOf, if_pos hi, parent_eq_some_iff.mpr ⟨n, hn, hparent⟩]

/-- A file that sees a record first without its body, then with it, and uses the record. -/
def recordUnit (mainFile : String) : LocatedUnit :=
  .ofUnit {} {
    mainFile := ⟨mainFile⟩
    cursors := #[
      { kind := .translationUnit, spelling := mainFile, position := .none },
      { kind := .classDecl, spelling := "C", position := ⟨some ⟨"/x.h"⟩, 5, 7⟩,
        parent := some 0, definition := some 2 },
      { kind := .classDecl, spelling := "C", position := ⟨some ⟨"/d.h"⟩, 20, 7⟩,
        isDefinition := true, parent := some 0 },
      { kind := .varDecl, spelling := "p", position := ⟨some ⟨mainFile⟩, 3, 4⟩,
        isDefinition := true, parent := some 0 },
      { kind := .typeRef, spelling := "C", position := ⟨some ⟨mainFile⟩, 3, 1⟩,
        parent := some 3, referenced := some 2 }] }

def recordUnits : List LocatedUnit := [recordUnit "/y.cpp", recordUnit "/z.cpp"]

def recordTree : CursorTree := ⟨#[⟨0, none⟩, ⟨1, some 0⟩, ⟨2, some 0⟩, ⟨3, some 0⟩, ⟨4, some 3⟩]⟩

theorem reconstruct_recordUnits :
    ∀ lu ∈ recordUnits, CursorTree.reconstruct lu = .ok recordTree := by
  intro lu hlu
  rcases List.mem_pair.mp hlu with rfl | rfl
  · with_unfolding_all rfl
  · with_unfolding_all rfl

/-- In both files nothing but the record with its body is used. -/
theorem uses_recordUnits {lu : LocatedUnit} (hlu : lu ∈ recordUnits) {id t : Nat}
    (hid : id ∈ recordTree.preorder) (h : recordTree.Uses lu id t) :
    t = 2 ∧ recordTree.InsideUse lu id := by
  cases h with
  | target hu hm _ =>
    refine ⟨?_, hu⟩
    cases hm with
    | definition hself ht =>
      have hall : ∀ lu ∈ recordUnits, ∀ id ∈ recordTree.preorder,
          (lu.unit.kind (recordTree.cursor id)).isForwardable = true →
            ∀ t ∈ (lu.unit.definition (recordTree.cursor id)).toList, t = 2 := by
        decide +kernel
      exact hall lu hlu id hid (LocatedUnit.isForwardable_iff.mpr hself.1) t
        (Option.mem_toList.mpr ht)
    | referenced _ ht =>
      have hall : ∀ lu ∈ recordUnits, ∀ id ∈ recordTree.preorder,
          ∀ t ∈ (lu.unit.referenced (recordTree.cursor id)).toList, t = 2 := by
        decide +kernel
      exact hall lu hlu id hid t (Option.mem_toList.mpr ht)
  | macroDefinition hk _ =>
    have hall : ∀ lu ∈ recordUnits, ∀ id ∈ recordTree.preorder,
        lu.unit.kind (recordTree.cursor id) ≠ .macroExpansion := by
      decide +kernel
    exact absurd hk (hall lu hlu id hid)

/-- Nothing else is looked up. -/
theorem looksUp_recordUnits {lu : LocatedUnit} (hlu : lu ∈ recordUnits) {id t : Nat}
    (hid : id ∈ recordTree.preorder) (h : recordTree.LooksUp lu id t) : t = 2 := by
  cases h with
  | used hu => exact (uses_recordUnits hlu hid hu).1
  | @owner around _ hs hp hne =>
    have hall : ∀ lu ∈ recordUnits, ∀ id ∈ recordTree.preorder,
        ∀ around ∈ (recordTree.node id).parent.toList,
          ∀ t ∈ (lu.unit.semanticParent (recordTree.cursor id)).toList,
            lu.alike t (recordTree.cursor around) = true := by
      decide +kernel
    have halike := hall lu hlu id hid around (Option.mem_toList.mpr hp) t (Option.mem_toList.mpr hs)
    rw [halike] at hne
    cases hne

theorem lookupsApart_recordUnits : LocatedUnit.LookupsApart recordUnits := by
  have huses : ∀ lu ∈ recordUnits, ∀ lu' ∈ recordUnits, ∀ id ∈ recordTree.preorder,
      ∀ a ∈ Branch.lineage (CursorTree.links recordTree.nodes) id,
        lu'.unit.category (recordTree.cursor a) = .reference →
          ∀ l ∈ (lu.place 2).toList, ∀ l' ∈ (lu'.place (recordTree.cursor id)).toList,
            (l' == l) = false := by
    decide +kernel
  intro lu hlu lu' hlu' tree tree' htree htree' id hid t ht id' hid' l l' hl
  rw [reconstruct_recordUnits lu hlu] at htree
  rw [reconstruct_recordUnits lu' hlu'] at htree'
  cases htree
  cases htree'
  rintro ⟨hl', t', _, hu, _⟩
  obtain ⟨_, a, ha, hcategory⟩ := uses_recordUnits hlu' hid' hu
  rw [looksUp_recordUnits hlu hid ht] at hl
  exact huses lu hlu lu' hlu' id' hid' a ha hcategory l (Option.mem_toList.mpr hl) l'
    (Option.mem_toList.mpr hl')

theorem use_leaf_recordUnits :
    LocatedUnit.LookupsApart recordUnits ∧ (ofUnits recordUnits).isReference 6 = true ∧
      (ofUnits recordUnits).children 6 = [] ∧ ∃ p n, (ofUnits recordUnits).targetOf 6 = some p ∧
        (ofUnits recordUnits).node? p = some n ∧ n.category.declares = true := by
  have huse : (ofUnits recordUnits).isReference 6 = true := by decide +kernel
  exact ⟨lookupsApart_recordUnits, huse, use_leaf recordUnits lookupsApart_recordUnits 6 huse⟩

/-- A header declares a record without a body.  The first file knows the body, the second does not
    and uses the record. -/
def forwardedUnits : List LocatedUnit := [
  .ofUnit {} {
    mainFile := ⟨"/t/y.cpp"⟩
    cursors := #[
      { kind := .translationUnit, spelling := "/t/y.cpp", position := .none },
      { kind := .classDecl, spelling := "C", position := ⟨some ⟨"/t/x.h"⟩, 5, 7⟩,
        parent := some 0, definition := some 2 },
      { kind := .classDecl, spelling := "C", position := ⟨some ⟨"/t/d.h"⟩, 20, 7⟩,
        isDefinition := true, parent := some 0 }] },
  .ofUnit {} {
    mainFile := ⟨"/t/z.cpp"⟩
    cursors := #[
      { kind := .translationUnit, spelling := "/t/z.cpp", position := .none },
      { kind := .classDecl, spelling := "C", position := ⟨some ⟨"/t/x.h"⟩, 5, 7⟩,
        parent := some 0 },
      { kind := .varDecl, spelling := "p", position := ⟨some ⟨"/t/z.cpp"⟩, 3, 4⟩,
        isDefinition := true, parent := some 0 },
      { kind := .typeRef, spelling := "C", position := ⟨some ⟨"/t/z.cpp"⟩, 3, 1⟩,
        parent := some 2, referenced := some 1 }] }]

/-- The use in the second file hangs below the declaration without a body, itself a use. -/
theorem use_below_use :
    ¬∀ i, (ofUnits forwardedUnits).isReference i = true →
      (ofUnits forwardedUnits).children i = [] := by
  intro hleaf
  have huse : (ofUnits forwardedUnits).isReference 2 = true := by decide +kernel
  have hparent : (ofUnits forwardedUnits).parent 4 = some 2 := by decide +kernel
  have hmem := mem_children.mpr hparent
  rw [hleaf 2 huse] at hmem
  cases hmem

end SymbolGraph

end SymbolAtlas
