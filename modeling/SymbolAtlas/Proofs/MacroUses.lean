import SymbolAtlas.Proofs.ClosedUnits
import SymbolAtlas.Proofs.NamePositions
import SymbolAtlas.Proofs.PassCoverage
import SymbolAtlas.Proofs.TopLevel

/-!
# Where uses of macros go

Lowering ties every use of a macro to the definition in effect, and the second pass goes by that
tie.  The first pass comes before it and goes by names alone: a use hangs below the first definition
of its name directly inside the unit, though that may have been removed or replaced before the use.
Both agree where the definition in effect is the first one.

* `Declarations.MacroCause` — how the first pass comes to append the use of a macro.
* `Declarations.Passed` — what the first pass has done once it is through with some nodes.
* `LocatedUnit.MacroOwner` — the node below which the use of a macro goes.

Principal results: `Declarations.passed_build` — the first pass appends the uses of macros for their
causes only; `MacroOwner.agrees` — when a use goes to the definition in effect;
`ofSource_macro_uses` — where the uses of macros go in the graph of a lowered unit;
`macro_use_below_removed` — such a use may hang below a definition that was removed before.
-/

set_option autoImplicit false

namespace SymbolAtlas

open Lowering (linkedHeaders macroUser macroUserUnit)
open SymbolGraph (GrowsBy)

/-- The root aside, nothing was in the graph from the start. -/
theorem SymbolGraph.size_empty_le {h : SymbolGraph} (he : empty.Extends h) {i : Nat} {s : Symbol}
    {p : Option Nat} (hcore : h.core i = some (s, p)) (hs : s ≠ rootNode.toSymbol) :
    empty.size ≤ i := by
  refine Nat.pos_of_ne_zero fun hzero => hs ?_
  have hroot : empty.core 0 = some (rootNode.toSymbol, none) := rfl
  rw [hzero, he.core hroot] at hcore
  exact (congrArg Prod.fst (Option.some.inj hcore)).symm

/-- What sits at a location in a later graph sat there before, if it was there. -/
theorem SymbolGraph.Extends.nodeAt_of_lt {g h : SymbolGraph} (he : g.Extends h) {l : Location}
    {i : Nat} (hi : i < g.size) (hnode : h.nodeAt l = some i) : g.nodeAt l = some i := by
  cases hj : g.nodeAt l with
  | some j => exact (he.nodeAt hj).symm.trans hnode
  | none =>
    obtain ⟨a, ha, hal⟩ := place_of_nodeAt hnode
    obtain ⟨m, hm, hlocation⟩ := place_eq_some_iff.mp ha
    have hn : g.node? i = some g.nodes[i] := Array.getElem?_eq_getElem hi
    obtain ⟨m', hm', hsymbol, -⟩ := he i _ hn
    cases hm.symm.trans hm'
    have hplace := place_eq_some_iff.mpr ⟨_, hn, hsymbol ▸ hlocation⟩
    have hfree := nodeAt_eq_none_iff.mp hj i a hplace
    rw [hal] at hfree
    cases hfree

variable {lu : LocatedUnit} {tree : CursorTree} {g : SymbolGraph}

/-! ## The first pass -/

namespace Declarations

/-- How the first pass comes to append the use of a macro: the place of every declaration in front
    of it is taken, nothing else has been put anywhere, and a definition of its name beside it has a
    node. -/
structure MacroCause (lu : LocatedUnit) (tree : CursorTree) (g : SymbolGraph) (id : Nat)
    (k : SymbolGraph) (p : Nat) (s : Symbol) : Prop where
  mem : id ∈ tree.inside 0
  kind : lu.unit.kind (tree.cursor id) = .macroExpansion
  symbol : ∃ l, lu.place (tree.cursor id) = some l ∧ s = lu.symbol .reference (tree.cursor id) l
  found : siblingMacro lu tree k (tree.inside 0) (lu.unit.spelling (tree.cursor id)) = some p
  front : ∀ m ∈ tree.inside 0, m < id → (lu.unit.category (tree.cursor m)).declares = true →
    ∀ l, lu.place (tree.cursor m) = some l → k.occupied l = true
  behind : ∀ l, k.occupied l = true → g.occupied l = true ∨ ∃ m < id, tree.Puts lu m l

/-- Uses of macros are appended for their causes. -/
def MacrosCaused (lu : LocatedUnit) (tree : CursorTree) (g k : SymbolGraph) (p : Nat)
    (s : Symbol) : Prop :=
  s.kind = .macroExpansion → ∃ id, MacroCause lu tree g id k p s

/-- What a step appends is declared, or the use of a macro. -/
theorem Enters.growsBy {Cause : SymbolGraph → Nat → Symbol → Prop} {siblings : List Nat}
    {owner id : Nat} {s : Declarations SymbolGraph} {done : Declarations SymbolGraph × Option Nat}
    (h : Enters lu tree siblings owner s id done)
    (hdeclared : (lu.unit.category (tree.cursor id)).declares = true → ∀ p l,
      Cause s.graph p (lu.symbol (lu.unit.category (tree.cursor id)) (tree.cursor id) l))
    (hexpanded : lu.unit.kind (tree.cursor id) = .macroExpansion → ∀ p l,
      lu.place (tree.cursor id) = some l →
      siblingMacro lu tree s.graph siblings (lu.unit.spelling (tree.cursor id)) = some p →
        Cause s.graph p (lu.symbol .reference (tree.cursor id) l)) :
    GrowsBy Cause s.graph done.1.graph := by
  cases h with
  | passes | skips | counts => exact .refl
  | keeps =>
    rw [keep_graph]
    exact .refl
  | @expands l definition hk hl hf hm =>
    exact .append .refl (hexpanded hk definition l hl hm) fun l' hl' => by cases hl'; exact hf
  | @adds l _ hd hl hf reparented =>
    exact .append .refl (hdeclared hd _ l) fun l' hl' => by cases hl'; exact hf

/-- What is declared is no use of a macro. -/
theorem kind_ne_of_declares {c : Nat} (h : (lu.unit.category c).declares = true) :
    lu.unit.kind c ≠ .macroExpansion := fun hk =>
  Category.ne_reference h (category_of_macroExpansion hk)

/-- Where no macro is used, visiting a node appends no such use. -/
theorem visit_without_macros (lu : LocatedUnit) (tree : CursorTree) (i : Nat) :
    (∀ x, i ∈ Branch.lineage (CursorTree.links tree.nodes) x →
      lu.unit.kind (tree.cursor x) ≠ .macroExpansion) →
    ∀ (siblings : List Nat) (owner : Nat) (s : Declarations SymbolGraph),
      GrowsBy (fun _ _ a => a.kind ≠ .macroExpansion) s.graph
        (visit lu tree siblings owner (tree.branchAt i) s).graph := by
  induction i using tree.climb with
  | step i ih =>
    intro hnone siblings owner s
    have hkind := hnone i (Branch.self_mem_lineage i)
    have hstep : GrowsBy (fun _ _ a => a.kind ≠ .macroExpansion) s.graph _ :=
      (enters lu tree siblings owner s i).growsBy (fun _ _ _ => hkind) fun hk => absurd hk hkind
    rw [visit_branchAt]
    split
    · rename_i s' he
      rw [he] at hstep
      exact hstep
    · rename_i s' owner' he
      rw [he] at hstep
      refine hstep.trans (List.foldlRecOn (motive := fun t : Declarations SymbolGraph =>
        GrowsBy (fun _ _ a => a.kind ≠ .macroExpansion) s'.graph t.graph) _ _ .refl ?_)
      intro t ht c hc
      refine ht.trans (ih c hc (fun x hx => hnone x ?_) _ owner' t)
      exact Branch.mem_lineage_trans
        (CursorTree.mem_lineage_of_inside hc (Branch.self_mem_lineage i)) hx

/-- Visiting a node below the root appends the use of a macro for its cause, if macros are used
    there only. -/
theorem visit_macros (hmacros : ∀ x, lu.unit.kind (tree.cursor x) = .macroExpansion →
      x ∈ tree.inside 0) {id : Nat} (hid : id ∈ tree.inside 0) {s : Declarations SymbolGraph}
    (hfront : ∀ m ∈ tree.inside 0, m < id → (lu.unit.category (tree.cursor m)).declares = true →
      ∀ l, lu.place (tree.cursor m) = some l → s.graph.occupied l = true)
    (hbehind : ∀ l, s.graph.occupied l = true → g.occupied l = true ∨
      ∃ m < id, tree.Puts lu m l) (owner : Nat) :
    GrowsBy (MacrosCaused lu tree g) s.graph
      (visit lu tree (tree.inside 0) owner (tree.branchAt id) s).graph := by
  have hstep : GrowsBy (MacrosCaused lu tree g) s.graph _ :=
    (enters lu tree (tree.inside 0) owner s id).growsBy
      (fun hd _ _ hk => absurd hk (kind_ne_of_declares hd))
      fun hk p l hl hfound _ => ⟨id, hid, hk, ⟨l, hl, rfl⟩, hfound, hfront, hbehind⟩
  rw [visit_branchAt]
  split
  · rename_i s' he
    rw [he] at hstep
    exact hstep
  · rename_i s' owner' he
    rw [he] at hstep
    refine hstep.trans (List.foldlRecOn (motive := fun t : Declarations SymbolGraph =>
      GrowsBy (MacrosCaused lu tree g) s'.graph t.graph) _ _ .refl ?_)
    intro t ht c hc
    -- what stands below the node does not stand directly below the root
    have hnone : ∀ x, c ∈ Branch.lineage (CursorTree.links tree.nodes) x →
        lu.unit.kind (tree.cursor x) ≠ .macroExpansion := fun x hx hk => by
      have hbelow := Branch.mem_lineage_trans
        (CursorTree.mem_lineage_of_inside hc (Branch.self_mem_lineage id)) hx
      have heq := Branch.siblings_disjoint (Branch.mem_directlyBelow.mp hid)
        (Branch.mem_directlyBelow.mp (hmacros x hk)) hbelow (Branch.self_mem_lineage x)
      have hlt := Branch.hangs_lt (Branch.mem_directlyBelow.mp hc)
      have hle := Branch.le_of_mem_lineage hx
      omega
    refine ht.trans ((visit_without_macros lu tree c hnone _ owner' t).mono ?_)
    exact fun _ _ _ hne hk => absurd hk hne

/-- The first pass has gone through these nodes below the root. -/
structure Passed (lu : LocatedUnit) (tree : CursorTree) (g : SymbolGraph) (done : List Nat)
    (s : Declarations SymbolGraph) : Prop where
  along : Along lu tree g 0 SymbolGraph.root done s
  macros : GrowsBy (MacrosCaused lu tree g) g s.graph

/-- Going on with the next node below the root. -/
theorem Passed.step (hseq : Branch.Sequential (CursorTree.links tree.nodes))
    (hmacros : ∀ x, lu.unit.kind (tree.cursor x) = .macroExpansion → x ∈ tree.inside 0)
    {done rest : List Nat} {id : Nat} (hall : tree.inside 0 = done ++ id :: rest)
    {s : Declarations SymbolGraph} (h : Passed lu tree g done s) :
    Passed lu tree g (done ++ [id])
      (visit lu tree (tree.inside 0) SymbolGraph.root (tree.branchAt id) s) := by
  have hid : id ∈ tree.inside 0 := hall ▸ List.mem_append_right _ List.mem_cons_self
  obtain ⟨hlt, hearlier⟩ := CursorTree.lt_of_inside_split hall
  refine ⟨h.along.step tree.zero_mem_preorder hall,
    h.macros.trans (visit_macros hmacros hid ?_ ?_ _)⟩
  · intro m hm hlt hd l hl
    have hinner : (tree.node m).parent ≠ none := by
      rw [CursorTree.parent_of_inside hm]
      exact Option.some_ne_none 0
    exact (h.along.handled m (hearlier m hm hlt)).declared
      (CursorTree.not_passesThrough hd hinner (hl ▸ Option.some_ne_none l)) hd l hl
  · intro l hl
    refine ((h.along.front id hid hlt).occupied l hl).imp_right fun ⟨m, hm, hputs⟩ => ?_
    exact ⟨m, hm.lt hseq, hputs⟩

/-- A pass that goes through the root goes through what is directly below it. -/
theorem build_eq_visitInside (hroot : tree.PassesThrough lu 0) (g : SymbolGraph) :
    build lu tree g = visitInside lu tree SymbolGraph.root 0 { graph := g } := by
  have hbuild : build lu tree g = _ := visit_branchAt [] SymbolGraph.root 0 { graph := g }
  rw [hbuild, (enters lu tree [] SymbolGraph.root { graph := g } 0).eq_of_passes hroot]

/-- **The first pass goes through all nodes below the root**, and appends the uses of macros for
    their causes only. -/
theorem passed_build (hseq : Branch.Sequential (CursorTree.links tree.nodes))
    (hroot : tree.PassesThrough lu 0)
    (hmacros : ∀ x, lu.unit.kind (tree.cursor x) = .macroExpansion → x ∈ tree.inside 0)
    (g : SymbolGraph) : Passed lu tree g (tree.inside 0) (build lu tree g) := by
  rw [build_eq_visitInside hroot]
  have halong : Along lu tree g 0 SymbolGraph.root [] { graph := g } :=
    ⟨.inl rfl, fun _ _ _ => .refl _, List.forall_mem_nil _⟩
  exact foldl_prefix (motive := Passed lu tree g) ⟨halong, .refl⟩
    fun done id rest hall s hs => hs.step hseq hmacros hall

end Declarations

/-! ## Macros of a unit -/

namespace TranslationUnit

/-- A macro of the name is defined directly inside the unit. -/
structure DefinesMacro (u : TranslationUnit) (name : String) (m : Nat) : Prop where
  lt : m < u.size
  kind : u.kind m = .macroDefinition
  name : u.spelling m = name
  parent : (u.cursor m).parent = some 0

/-- Of the definitions of the macro directly inside the unit this one comes first, in front of the
    use. -/
structure FirstMacro (u : TranslationUnit) (e m : Nat) : Prop where
  defines : u.DefinesMacro (u.spelling e) m
  lt : m < e
  first : ∀ m', u.DefinesMacro (u.spelling e) m' → m ≤ m'

theorem lt_size_of_macroExpansion {u : TranslationUnit} {e : Nat}
    (h : u.kind e = .macroExpansion) : e < u.size := by
  refine lt_size_of_category ?_
  rw [category, h]
  exact Category.noConfusion

/-- The use of a macro stands directly inside a bound unit, and refers to a definition in front of
    it. -/
theorem FullyBound.macro_use {u : TranslationUnit} (h : u.FullyBound) {e : Nat} (he : e < u.size)
    (hkind : u.kind e = .macroExpansion) :
    (u.cursor e).parent = some 0 ∧ ∃ d < e, u.referenced e = some d ∧
      u.Has d .macroDefinition (u.spelling e) true := by
  have hbound := h.bound_of_kind he (hkind ▸ CursorKind.noConfusion)
  have hexpansion : (u.cursor e).kind = .macroExpansion := hkind
  cases hbound.rests with
  | own hown =>
    rw [hexpansion] at hown
    cases hown
  | use hsettled =>
    cases hsettled with
    | exposed _ hnotMacro => exact absurd hexpansion hnotMacro
    | unexposed hunexposed => cases hexpansion.symm.trans hunexposed
  | record hlinked =>
    have hrecord := hlinked.kind
    rw [hexpansion] at hrecord
    cases hrecord
  | expansion _ hparent hlt href hhas => exact ⟨hparent, _, hlt, href, hhas⟩
  | inclusion hinclusion => cases hexpansion.symm.trans hinclusion

end TranslationUnit

namespace LocatedUnit

/-- Nothing else that may become a node stands at the place of the cursor. -/
def Alone (lu : LocatedUnit) (c : Nat) : Prop :=
  ∀ c', lu.unit.category c' ≠ .invalid → (lu.place c' == lu.place c) = true → c' = c

/-- The node below which the use of a macro goes. -/
inductive MacroOwner (lu : LocatedUnit) (g : SymbolGraph) (e : Nat) : Nat → Prop where
  /-- The first definition of its name directly inside the unit, whichever is in effect. -/
  | first {m p : Nat} (hm : lu.unit.FirstMacro e m) (hp : (lu.place m).bind g.nodeAt = some p) :
      MacroOwner lu g e p
  /-- If there is none in front of the use, then where uses of the definition in effect go. -/
  | inEffect {d q : Nat} (hnone : ∀ m < e, ¬lu.unit.DefinesMacro (lu.unit.spelling e) m)
      (hd : lu.unit.referenced e = some d) (hq : (lu.place d).bind g.nodeAt = some q) :
      MacroOwner lu g e (g.landing q)
  /-- There is none in front of the use, but something else stands where a later one stands. -/
  | covered {m c p : Nat} (hnone : ∀ m < e, ¬lu.unit.DefinesMacro (lu.unit.spelling e) m)
      (hm : lu.unit.DefinesMacro (lu.unit.spelling e) m) (hlt : e < m) (hc : c ≠ m)
      (hplace : (lu.place c == lu.place m) = true) (hp : (lu.place m).bind g.nodeAt = some p) :
      MacroOwner lu g e p

/-- Both passes put the use below the same node if the definition in effect is the first one of its
    name directly inside the unit, or none is defined there. -/
theorem MacroOwner.agrees {e d p : Nat} (howner : lu.MacroOwner g e p)
    (hd : lu.unit.referenced e = some d)
    (hfirst : lu.unit.FirstMacro e d ∨ ∀ m, ¬lu.unit.DefinesMacro (lu.unit.spelling e) m) :
    ∃ q, (lu.place d).bind g.nodeAt = some q ∧ (p = q ∨ p = g.landing q) := by
  cases howner with
  | @first m p hm hp =>
    rcases hfirst with hfirst | hnone
    · obtain rfl := Nat.le_antisymm (hm.first d hfirst.defines) (hfirst.first m hm.defines)
      exact ⟨p, hp, .inl rfl⟩
    · exact absurd hm.defines (hnone m)
  | inEffect _ hd' hq =>
    cases hd.symm.trans hd'
    exact ⟨_, hq, .inr rfl⟩
  | @covered m _ _ hnone hm =>
    rcases hfirst with hfirst | hall
    · exact absurd hfirst.defines (hnone d hfirst.lt)
    · exact absurd hm (hall m)

/-- What lowering leaves: all is bound, no cursor reports another parent than its own, and macros
    stand at places. -/
structure AsLowered (lu : LocatedUnit) : Prop where
  bound : lu.unit.FullyBound
  reports : lu.ReportsParents
  macros : ∀ c < lu.unit.size,
    lu.unit.kind c = .macroDefinition ∨ lu.unit.kind c = .macroExpansion →
      lu.unit.hasFile c = true ∧ ∃ l, lu.place c = some l

namespace AsLowered

/-- The first pass goes through the root. -/
theorem passesThrough_root (h : lu.AsLowered) (ht : CursorTree.reconstruct lu = .ok tree) :
    tree.PassesThrough lu 0 := by
  obtain ⟨_, hroot⟩ := h.bound.root
  refine .inl ?_
  rw [CursorTree.cursor_zero ht, TranslationUnit.category, hroot.kind]
  rfl

/-- A macro that is defined or used directly inside the unit has a node below the root. -/
theorem exists_node (h : lu.AsLowered) (ht : CursorTree.reconstruct lu = .ok tree) {c : Nat}
    (hc : c < lu.unit.size)
    (hkind : lu.unit.kind c = .macroDefinition ∨ lu.unit.kind c = .macroExpansion)
    (hparent : (lu.unit.cursor c).parent = some 0) :
    ∃ id ∈ tree.inside 0, tree.cursor id = c := by
  have hpos : 0 < c := Nat.pos_of_ne_zero fun hzero => by
    obtain ⟨_, hroot⟩ := h.bound.root
    rw [hzero, hroot.kind] at hkind
    exact hkind.elim CursorKind.noConfusion CursorKind.noConfusion
  have hhangs := TranslationUnit.hangs_parents.mpr ⟨hparent, hpos⟩
  obtain ⟨id, hlt, rfl⟩ :=
    CursorTree.exists_node_of_isVisited ht (.top hhangs (h.macros c hc hkind).1)
  exact ⟨id, (CursorTree.mem_inside_root h.bound h.reports ht).mpr ⟨hlt, hhangs⟩, rfl⟩

/-- Macros are used directly below the root only. -/
theorem mem_inside_of_expansion (h : lu.AsLowered) (ht : CursorTree.reconstruct lu = .ok tree)
    (x : Nat) (hkind : lu.unit.kind (tree.cursor x) = .macroExpansion) : x ∈ tree.inside 0 := by
  have hne : tree.cursor x ≠ 0 := fun hzero => by
    obtain ⟨_, hroot⟩ := h.bound.root
    rw [hzero, hroot.kind] at hkind
    cases hkind
  have hlt : x < tree.nodes.size := Nat.lt_of_not_le fun hle => hne <| by
    rw [CursorTree.cursor, CursorTree.node, Array.getD_eq_getD_getElem?,
      Array.getElem?_eq_none hle]
    rfl
  have hsize := TranslationUnit.lt_size_of_macroExpansion hkind
  refine (CursorTree.mem_inside_root h.bound h.reports ht).mpr ⟨hlt, ?_⟩
  exact TranslationUnit.hangs_parents.mpr
    ⟨(h.bound.macro_use hsize hkind).1, Nat.pos_of_ne_zero hne⟩

/-- The first pass goes through all that is directly inside the unit. -/
theorem passed (h : lu.AsLowered) (ht : CursorTree.reconstruct lu = .ok tree) (g : SymbolGraph) :
    Declarations.Passed lu tree g (tree.inside 0) (Declarations.build lu tree g) :=
  Declarations.passed_build (CursorTree.grown_of_reconstruct ht).sequential
    (h.passesThrough_root ht) (h.mem_inside_of_expansion ht) g

/-- The cursor of a node below the root is in the unit, and stands directly inside it. -/
theorem cursor_of_mem (h : lu.AsLowered) (ht : CursorTree.reconstruct lu = .ok tree) {id : Nat}
    (hid : id ∈ tree.inside 0) :
    tree.cursor id < lu.unit.size ∧ (lu.unit.cursor (tree.cursor id)).parent = some 0 := by
  have hfollowing := CursorTree.following_reconstruct h.reports ht
  have hparent := ((CursorTree.mem_inside_root h.bound h.reports ht).mp hid).2
  exact ⟨(hfollowing.cursor_bounds (Branch.mem_directlyBelow.mp hid)).2,
    (TranslationUnit.hangs_parents.mp hparent).1⟩

/-! ## Uses that the first pass appends -/

/-- What the first pass finds for a use is a definition of its name directly inside the unit, and
    none in front of the use comes earlier. -/
theorem found_of_cause (h : lu.AsLowered) (ht : CursorTree.reconstruct lu = .ok tree) {id p : Nat}
    {k : SymbolGraph} {s : Symbol} (hcause : Declarations.MacroCause lu tree .empty id k p s) :
    ∃ m ∈ tree.inside 0,
      lu.unit.DefinesMacro (lu.unit.spelling (tree.cursor id)) (tree.cursor m) ∧
      (lu.place (tree.cursor m)).bind k.nodeAt = some p ∧
      ∀ c < tree.cursor id, lu.unit.DefinesMacro (lu.unit.spelling (tree.cursor id)) c →
        tree.cursor m ≤ c := by
  obtain ⟨before, m, after, hall, hfound, hnone⟩ := List.findSome?_eq_some_iff.mp hcause.found
  simp only at hfound
  split at hfound
  swap
  · cases hfound
  rename_i hdefinition
  have hm : m ∈ tree.inside 0 := hall ▸ List.mem_append_right _ List.mem_cons_self
  obtain ⟨hmlt, hmparent⟩ := h.cursor_of_mem ht hm
  refine ⟨m, hm, ⟨hmlt, hdefinition.1, hdefinition.2, hmparent⟩, hfound, fun c hlt hc => ?_⟩
  -- a definition that comes earlier would have been found
  refine Nat.le_of_not_lt fun hcm => ?_
  obtain ⟨x, hx, rfl⟩ := h.exists_node ht hc.lt (.inl hc.kind) hc.parent
  rw [CursorTree.cursor_lt_iff h.bound h.reports ht hx hcause.mem] at hlt
  rw [CursorTree.cursor_lt_iff h.bound h.reports ht hx hm] at hcm
  have hxbefore : x ∈ before := by
    have hsorted : (tree.inside 0).Pairwise (· < ·) := Branch.directlyBelow_pairwise _ 0
    rw [hall] at hsorted hx
    refine (List.mem_append.mp hx).resolve_right fun hx => ?_
    rcases List.mem_cons.mp hx with rfl | hx
    · exact Nat.lt_irrefl _ hcm
    · exact Nat.lt_asymm hcm
        (List.rel_of_pairwise_cons (List.pairwise_append.mp hsorted).2.1 hx)
  have hfree := hnone x hxbefore
  simp only [if_pos (And.intro hc.kind hc.name)] at hfree
  obtain ⟨-, l, hl⟩ := h.macros _ hc.lt (.inl hc.kind)
  have hd : (lu.unit.category (tree.cursor x)).declares = true := by
    rw [TranslationUnit.category, hc.kind]
    rfl
  rw [hl, Option.bind_some] at hfree
  exact SymbolGraph.not_occupied hfree (hcause.front x hx hlt hd l hl)

/-- If the place of something behind the use is taken when the use is appended, then something else
    has that place. -/
theorem covered_of_cause (h : lu.AsLowered) (ht : CursorTree.reconstruct lu = .ok tree)
    {id p m q : Nat} {k : SymbolGraph} {s : Symbol}
    (hcause : Declarations.MacroCause lu tree .empty id k p s) (hm : m ∈ tree.inside 0)
    (hlt : tree.cursor id < tree.cursor m)
    (hq : (lu.place (tree.cursor m)).bind k.nodeAt = some q) :
    ∃ c ≠ tree.cursor m, (lu.place c == lu.place (tree.cursor m)) = true := by
  obtain ⟨l, hl, hnode⟩ := Option.bind_eq_some_iff.mp hq
  rcases hcause.behind l (Option.isSome_iff_exists.mpr ⟨q, hnode⟩) with hempty | ⟨x, hx, hputs⟩
  · exact absurd hempty (SymbolGraph.not_occupied (SymbolGraph.nodeAt_empty l))
  · -- the pass came to this before it came to the use
    have hidm := (CursorTree.cursor_lt_iff h.bound h.reports ht hcause.mem hm).mp hlt
    have hmsize := ((CursorTree.mem_inside_root h.bound h.reports ht).mp hm).1
    obtain ⟨a, ha, hal⟩ := hputs.place
    refine ⟨tree.cursor x, fun heq => ?_, ?_⟩
    · have hxm := CursorTree.cursor_injective ht (by omega) hmsize heq
      omega
    · rw [ha, hl]
      exact hal

/-- **A use that the first pass appends goes to the first definition of its name.** -/
theorem owner_of_cause (h : lu.AsLowered) (ht : CursorTree.reconstruct lu = .ok tree) {id p : Nat}
    {k g : SymbolGraph} {s : Symbol}
    (hcause : Declarations.MacroCause lu tree .empty id k p s) (hext : k.Extends g) :
    lu.MacroOwner g (tree.cursor id) p := by
  obtain ⟨m, hm, hdefines, hfound, hfirst⟩ := h.found_of_cause ht hcause
  have hp := hext.bind_nodeAt hfound
  by_cases hany : ∃ c < tree.cursor id,
      lu.unit.DefinesMacro (lu.unit.spelling (tree.cursor id)) c
  · obtain ⟨c, hlt, hc⟩ := hany
    have hmlt := Nat.lt_of_le_of_lt (hfirst c hlt hc) hlt
    refine .first ⟨hdefines, hmlt, fun c' hc' => ?_⟩ hp
    rcases Nat.lt_or_ge c' (tree.cursor id) with hlt' | hge
    · exact hfirst c' hlt' hc'
    · exact Nat.le_trans (Nat.le_of_lt hmlt) hge
  · have hnot : ∀ c < tree.cursor id,
        ¬lu.unit.DefinesMacro (lu.unit.spelling (tree.cursor id)) c :=
      fun c hlt hc => hany ⟨c, hlt, hc⟩
    have hlt : tree.cursor id < tree.cursor m := by
      refine Nat.lt_of_le_of_ne (Nat.le_of_not_lt fun hlt => hnot _ hlt hdefines) fun heq => ?_
      have hkind := hcause.kind
      rw [heq, hdefines.kind] at hkind
      cases hkind
    obtain ⟨c, hc, hplace⟩ := h.covered_of_cause ht hcause hm hlt hfound
    exact .covered hnot hdefines hlt hc hplace hp

/-- A use with a definition of its name directly inside the unit in front of it is dealt with by the
    first pass. -/
theorem occupied_of_definition (h : lu.AsLowered) (ht : CursorTree.reconstruct lu = .ok tree)
    (g : SymbolGraph) {e m : Nat} (he : e < lu.unit.size)
    (hkind : lu.unit.kind e = .macroExpansion) (hlt : m < e)
    (hm : lu.unit.DefinesMacro (lu.unit.spelling e) m) {l : Location} (hl : lu.place e = some l) :
    (Declarations.build lu tree g).graph.occupied l = true := by
  have hpassed := h.passed ht g
  obtain ⟨x, hx, rfl⟩ := h.exists_node ht he (.inr hkind) (h.bound.macro_use he hkind).1
  obtain ⟨y, hy, rfl⟩ := h.exists_node ht hm.lt (.inl hm.kind) hm.parent
  rcases (hpassed.along.handled x hx).used (Declarations.category_of_macroExpansion hkind) l hl with
    ho | ⟨-, hunplaced⟩
  · exact ho
  · have hbeside : tree.MacroBeside lu x y :=
      ⟨(CursorTree.siblings_iff hx).mpr hy, hm.kind, hm.name⟩
    obtain ⟨-, a, ha⟩ := h.macros _ hm.lt (.inl hm.kind)
    have hnone := hunplaced hkind y hbeside
      ((CursorTree.cursor_lt_iff h.bound h.reports ht hy hx).mp hlt)
    cases ha.symm.trans hnone

/-! ## Uses that the second pass appends -/

/-- The use of a macro stands for the definition in effect. -/
theorem means_macro_iff {e d : Nat} (he : lu.unit.kind e = .macroExpansion) :
    lu.Means e d ↔ lu.unit.referenced e = some d := by
  have hself : ¬lu.NamesItself e := fun hself => by
    rcases hself.1 with hkind | hkind
    · cases he.symm.trans hkind
    · cases he.symm.trans hkind
  constructor
  · rintro (⟨hnames, -⟩ | ⟨-, hd⟩)
    · exact absurd hnames hself
    · exact hd
  · exact fun hd => .referenced (fun hnames => absurd hnames hself) hd

/-- **Where the uses of macros go** in the graph of a unit that is indexed on its own. -/
theorem owner_of_node (h : lu.AsLowered) (ht : CursorTree.reconstruct lu = .ok tree) {i : Nat}
    {n : GraphNode} (hn : (indexTree lu tree .empty).2.node? i = some n)
    (hkind : n.kind = .macroExpansion) :
    ∃ e l p, lu.unit.kind e = .macroExpansion ∧ lu.place e = some l ∧
      n.toSymbol = lu.symbol .reference e l ∧ n.parent = some p ∧
        lu.MacroOwner (indexTree lu tree .empty).2 e p := by
  have hsecond := indexTree_growsBy lu tree .empty
  have hcore := SymbolGraph.core_eq_some_iff.mpr ⟨n, hn, rfl, rfl⟩
  rcases Nat.lt_or_ge i (Declarations.build lu tree SymbolGraph.empty).graph.size with hlt | hge
  · -- the first pass appended it
    have hpassed := h.passed ht .empty
    rw [hsecond.extends_.core_eq hlt] at hcore
    have hpos := SymbolGraph.size_empty_le hpassed.macros.extends_ hcore fun hroot => by
      have hkinds : n.kind = .translationUnit := congrArg Symbol.kind hroot
      cases hkinds.symm.trans hkind
    obtain ⟨k, p, hparent, hcaused, -, -, hrest, -⟩ := hpassed.macros.origin hpos hcore
    obtain ⟨id, hcause⟩ := hcaused hkind
    obtain ⟨l, hl, hsymbol⟩ := hcause.symbol
    have hext := (k.extends_append p n.toSymbol).trans (hrest.extends_.trans hsecond.extends_)
    exact ⟨tree.cursor id, l, p, hcause.kind, hl, hsymbol, hparent,
      h.owner_of_cause ht hcause hext⟩
  · -- the second pass appended it, and so the first one had not taken its place
    obtain ⟨id, -, l, t, q, hl, hsymbol, hmeans, -, hq, hparent⟩ :=
      References.lands_of_grows hsecond hge hn
    obtain ⟨k, -, -, -, -, hk, -, hfree⟩ := hsecond.origin hge hcore
    have hexpansion : lu.unit.kind (tree.cursor id) = .macroExpansion := by
      rw [hsymbol] at hkind
      exact hkind
    have he := TranslationUnit.lt_size_of_macroExpansion hexpansion
    refine ⟨tree.cursor id, l, _, hexpansion, hl, hsymbol, hparent,
      .inEffect (fun m hlt hm => ?_) ((means_macro_iff hexpansion).mp hmeans) hq⟩
    have hlocation : n.location = some l := congrArg Symbol.location hsymbol
    exact SymbolGraph.not_occupied (hfree l hlocation)
      (hk.extends_.occupied (h.occupied_of_definition ht .empty he hexpansion hlt hm hl))

/-- The definition of a macro stands for nothing else. -/
theorem not_means (h : lu.AsLowered) {d : Nat} (hd : d < lu.unit.size)
    (hkind : lu.unit.kind d = .macroDefinition) (t : Nat) : ¬lu.Means d t := by
  have hdefinition : (lu.unit.cursor d).kind = .macroDefinition := hkind
  have hbound := h.bound.bound_of_kind hd (hkind ▸ CursorKind.noConfusion)
  rintro (⟨hself, -⟩ | ⟨-, href⟩)
  · rcases hself.1 with hk | hk
    · cases hkind.symm.trans hk
    · cases hkind.symm.trans hk
  · have hnone := hbound.rests.referenced_eq_none (by rw [hdefinition]; rfl)
      (by rw [hdefinition]; rfl)
    cases hnone.symm.trans href

/-- The node at the place of a definition that stands there alone is that of the definition, and
    the first pass added it. -/
theorem own_of_alone (h : lu.AsLowered) (ht : CursorTree.reconstruct lu = .ok tree) {d q : Nat}
    (hd : d < lu.unit.size) (hkind : lu.unit.kind d = .macroDefinition) (halone : lu.Alone d)
    (hq : (lu.place d).bind (indexTree lu tree .empty).2.nodeAt = some q) :
    q < (Declarations.build lu tree SymbolGraph.empty).graph.size ∧
      ∃ s parent, (indexTree lu tree .empty).2.core q = some (s, parent) ∧
        s.category = .macroDefinition := by
  have hfirst := (Declarations.build_advances lu tree .empty).1
  have hsecond := indexTree_growsBy lu tree .empty
  obtain ⟨l, hl, hnode⟩ := Option.bind_eq_some_iff.mp hq
  obtain ⟨a, ha, hal⟩ := SymbolGraph.place_of_nodeAt hnode
  obtain ⟨n, hn, hlocation⟩ := SymbolGraph.place_eq_some_iff.mp ha
  have hcore := SymbolGraph.core_eq_some_iff.mpr ⟨n, hn, rfl, rfl⟩
  -- whatever the node was made from stands where the definition does
  have hown : ∀ {c : Nat}, lu.unit.category c ≠ .invalid → lu.place c = some a → c = d :=
    fun {c} hc hplace => halone c hc (by rw [hplace, hl]; exact hal)
  rcases Nat.lt_or_ge q (Declarations.build lu tree SymbolGraph.empty).graph.size with hlt | hge
  · refine ⟨hlt, _, _, hcore, ?_⟩
    rw [hsecond.extends_.core_eq hlt] at hcore
    have hpos := SymbolGraph.size_empty_le hfirst.extends_ hcore fun hroot => by
      have hlocations : n.location = none := congrArg Symbol.location hroot
      cases hlocations.symm.trans hlocation
    obtain ⟨k, p, -, hcause, -⟩ := hfirst.origin hpos hcore
    generalize n.toSymbol = s at hcause hlocation
    cases hcause with
    | @declared id _ _ _ hplace hdeclares =>
      cases hlocation
      have heq := hown (fun hinvalid => by rw [hinvalid] at hdeclares; cases hdeclares) hplace
      show lu.unit.category (tree.cursor id) = _
      rw [heq, TranslationUnit.category, hkind]
      rfl
    | expanded _ hk hplace =>
      cases hlocation
      have hc := Declarations.category_of_macroExpansion hk
      rw [hown (hc ▸ Category.noConfusion) hplace, hkind] at hk
      cases hk
  · obtain ⟨k, p, -, hcause, -⟩ := hsecond.origin hge hcore
    generalize n.toSymbol = s at hcause hlocation
    cases hcause with
    | used _ hu hplace hmeans =>
      cases hlocation
      rw [hown (category_ne_of_means h.bound h.reports ht hu hmeans) hplace] at hmeans
      exact absurd hmeans (h.not_means hd hkind _)

/-- Uses of a definition that stands alone at its place go to its own node. -/
theorem landing_of_alone (h : lu.AsLowered) (ht : CursorTree.reconstruct lu = .ok tree) {d q : Nat}
    (hd : d < lu.unit.size) (hkind : lu.unit.kind d = .macroDefinition) (halone : lu.Alone d)
    (hq : (lu.place d).bind (indexTree lu tree .empty).2.nodeAt = some q) :
    (indexTree lu tree .empty).2.landing q = q := by
  obtain ⟨-, s, parent, hcore, hcategory⟩ := h.own_of_alone ht hd hkind halone hq
  refine if_neg fun hmethod => ?_
  obtain ⟨s', p', hs', hmethod'⟩ := SymbolGraph.isMethodDefinition_iff_core.mp hmethod
  cases hcore.symm.trans hs'
  cases hcategory.symm.trans hmethod'

/-- A use that stands alone at its place has a node if its definition has one of its own. -/
theorem occupied_of_alone (h : lu.AsLowered) (ht : CursorTree.reconstruct lu = .ok tree)
    {e d : Nat} (he : e < lu.unit.size) (hkind : lu.unit.kind e = .macroExpansion)
    (href : lu.unit.referenced e = some d) (halone : lu.Alone e) (hdalone : lu.Alone d) {q : Nat}
    (hq : (lu.place d).bind (indexTree lu tree .empty).2.nodeAt = some q) {l : Location}
    (hl : lu.place e = some l) : (indexTree lu tree .empty).2.occupied l = true := by
  obtain ⟨hparent, d', -, href', hhas⟩ := h.bound.macro_use he hkind
  cases href.symm.trans href'
  have hpending := (Declarations.build_advances lu tree .empty).2
  have hsecond := indexTree_growsBy lu tree .empty
  have hpassed := h.passed ht .empty
  obtain ⟨x, hx, rfl⟩ := h.exists_node ht he (.inr hkind) hparent
  rcases (hpassed.along.handled x hx).used (Declarations.category_of_macroExpansion hkind) l hl with
    ho | ⟨⟨entry, hentry, hplace, -⟩, -⟩
  · exact hsecond.extends_.occupied ho
  · -- what is kept for its place is the use itself
    have huse := hpending entry hentry
    have hcursor : tree.cursor entry.2 = tree.cursor x := by
      refine halone _ (huse.category ▸ Category.noConfusion) ?_
      rw [huse.place, hl]
      exact hplace
    obtain ⟨hlt, -⟩ := h.own_of_alone ht hhas.lt hhas.kind hdalone hq
    obtain ⟨ld, hld, hnode⟩ := Option.bind_eq_some_iff.mp hq
    have hfound : References.Found lu tree (Declarations.build lu tree .empty).graph entry.2 := by
      refine ⟨d, q, ?_, fun hk => ?_, ?_⟩
      · rw [hcursor]
        exact (means_macro_iff hkind).mpr href
      · rw [hcursor] at hk
        cases hkind.symm.trans hk
      · exact Option.bind_eq_some_iff.mpr ⟨ld, hld, hsecond.extends_.nodeAt_of_lt hlt hnode⟩
    have ho := References.resolvePending_occupied hpending hentry hfound
    rwa [SymbolGraph.occupied_congr hplace] at ho

/-- What a use refers to, and when it has a node. -/
theorem of_use (h : lu.AsLowered) (ht : CursorTree.reconstruct lu = .ok tree) {e : Nat}
    (he : e < lu.unit.size) (hkind : lu.unit.kind e = .macroExpansion) :
    ∃ d l ld, d < e ∧ lu.unit.referenced e = some d ∧
      lu.unit.Has d .macroDefinition (lu.unit.spelling e) true ∧
      lu.place e = some l ∧ lu.place d = some ld ∧ References.target lu e l = some d ∧
      ((∃ m < e, lu.unit.DefinesMacro (lu.unit.spelling e) m) →
        (indexTree lu tree .empty).2.occupied l = true) ∧
      (lu.Alone e → lu.Alone d → (indexTree lu tree .empty).2.occupied ld = true →
        (indexTree lu tree .empty).2.occupied l = true) := by
  obtain ⟨-, d, hlt, href, hhas⟩ := h.bound.macro_use he hkind
  obtain ⟨-, l, hl⟩ := h.macros e he (.inr hkind)
  obtain ⟨-, ld, hld⟩ := h.macros d hhas.lt (.inl hhas.kind)
  refine ⟨d, l, ld, hlt, href, hhas, hl, hld,
    (References.target_eq_some_iff hl).mpr ((means_macro_iff hkind).mpr href), ?_, ?_⟩
  · rintro ⟨m, hm, hdefines⟩
    exact (indexTree_growsBy lu tree .empty).extends_.occupied
      (h.occupied_of_definition ht .empty he hkind hm hdefines hl)
  · intro halone hdalone ho
    obtain ⟨q, hq⟩ := Option.isSome_iff_exists.mp ho
    exact h.occupied_of_alone ht he hkind href halone hdalone
      (Option.bind_eq_some_iff.mpr ⟨ld, hld, hq⟩) hl

/-- Where the node of a use hangs, and when it is the node of what the use refers to. -/
theorem of_node (h : lu.AsLowered) (ht : CursorTree.reconstruct lu = .ok tree) {i : Nat}
    {n : GraphNode} (hn : (indexTree lu tree .empty).2.node? i = some n)
    (hkind : n.kind = .macroExpansion) :
    ∃ e d l p, lu.unit.kind e = .macroExpansion ∧ lu.unit.referenced e = some d ∧
      lu.place e = some l ∧ n.toSymbol = lu.symbol .reference e l ∧ n.parent = some p ∧
      lu.MacroOwner (indexTree lu tree .empty).2 e p ∧
      (lu.unit.FirstMacro e d ∨ (∀ m, ¬lu.unit.DefinesMacro (lu.unit.spelling e) m) →
        ∃ q, (lu.place d).bind (indexTree lu tree .empty).2.nodeAt = some q ∧
          (p = q ∨ p = (indexTree lu tree .empty).2.landing q) ∧
          (lu.Alone d → (indexTree lu tree .empty).2.landing q = q)) := by
  obtain ⟨e, l, p, hexpansion, hl, hsymbol, hparent, howner⟩ := h.owner_of_node ht hn hkind
  have he := TranslationUnit.lt_size_of_macroExpansion hexpansion
  obtain ⟨-, d, -, href, hhas⟩ := h.bound.macro_use he hexpansion
  refine ⟨e, d, l, p, hexpansion, href, hl, hsymbol, hparent, howner, fun hfirst => ?_⟩
  obtain ⟨q, hq, hp⟩ := howner.agrees href hfirst
  exact ⟨q, hq, hp, fun halone => h.landing_of_alone ht hhas.lt hhas.kind halone hq⟩

end AsLowered

/-! ## Lowered units -/

/-- A cursor whose position names a line of a file has a location. -/
theorem exists_place_ofUnit {fs : FileSystem} {u : TranslationUnit} {i : Nat} (hi : i < u.size)
    (h : (u.position i).present = true) : ∃ l, (ofUnit fs u).place i = some l := by
  obtain ⟨hfile, hline⟩ := Bool.and_eq_true_iff.mp h
  obtain ⟨file, hfile⟩ := Option.isSome_iff_exists.mp hfile
  have hline : (u.position i).line ≠ 0 := by simpa using hline
  have hcursor : u.cursors[i]? = some (u.cursor i) := by
    have hlt : i < u.cursors.size := hi
    rw [TranslationUnit.cursor, Array.getD_eq_getD_getElem?, Array.getElem?_eq_getElem hlt]
    rfl
  have hposition : (u.cursor i).position = u.position i := rfl
  unfold place ofUnit
  simp only [Array.getElem?_map, hcursor, Option.map_some, Option.join_some, hposition]
  unfold PathMemo.location
  rw [hfile]
  simp only [if_neg hline]
  exact ⟨_, rfl⟩

theorem asLowered_ofSource (headers : Headers) (main : Source) (fs : FileSystem) :
    (ofUnit fs (.ofSource headers main)).AsLowered where
  bound := TranslationUnit.fullyBound_ofSource headers main
  reports := (TranslationUnit.plain_ofSource headers main).reportsParents _
  macros c hc hkind := by
    have hcategory : (TranslationUnit.ofSource headers main).category c ≠ .invalid := by
      rw [TranslationUnit.category]
      rcases hkind with hkind | hkind
      · rw [show (TranslationUnit.ofSource headers main).kind c = _ from hkind]
        exact Category.noConfusion
      · rw [show (TranslationUnit.ofSource headers main).kind c = _ from hkind]
        exact Category.noConfusion
    obtain ⟨hunit, hcall, hinclusion⟩ := TranslationUnit.kind_ne_of_category hcategory
    have hpos : 0 < c := Nat.pos_of_ne_zero fun hzero => by
      obtain ⟨_, hroot⟩ := (TranslationUnit.fullyBound_ofSource headers main).root
      exact hunit (hzero ▸ hroot.kind)
    obtain ⟨source, -, hat⟩ := TranslationUnit.atName_ofSource hpos hc hcall hinclusion
    obtain ⟨rest, hfrom, -⟩ := hat.text
    have hfile : ((TranslationUnit.ofSource headers main).position c).file.isSome = true := by
      rw [hat.file]
      rfl
    have hline : ((TranslationUnit.ofSource headers main).position c).line ≠ 0 := fun hzero => by
      rw [Source.from?, if_pos (.inl hzero)] at hfrom
      cases hfrom
    refine ⟨hfile, exists_place_ofUnit hc ?_⟩
    rw [Position.present, hfile, Bool.true_and]
    simpa using hline

end LocatedUnit

/-- **Where the uses of macros go** in the graph of a lowered unit.

Every use refers to a definition of its name in front of it, and that is what the second pass looks
for.  It has a node if a definition of its name stands directly inside the unit in front of it, or
if it is alone at its place and the definition that it refers to is alone at its own and has a node.
Every node of such a use hangs where `MacroOwner` says.  This is the node of the definition that the
use refers to if that is the first one of the name directly inside the unit, or there is none. -/
theorem ofSource_macro_uses (headers : Headers) (main : Source) (fs : FileSystem) :
    let u := TranslationUnit.ofSource headers main
    let lu := LocatedUnit.ofUnit fs u
    ∃ report g, indexUnit lu .empty = .ok (report, g) ∧
      (∀ e < u.size, u.kind e = .macroExpansion → ∃ d l ld,
        d < e ∧ u.referenced e = some d ∧ u.Has d .macroDefinition (u.spelling e) true ∧
        lu.place e = some l ∧ lu.place d = some ld ∧ References.target lu e l = some d ∧
        ((∃ m < e, u.DefinesMacro (u.spelling e) m) → g.occupied l = true) ∧
        (lu.Alone e → lu.Alone d → g.occupied ld = true → g.occupied l = true)) ∧
      ∀ i n, g.node? i = some n → n.kind = .macroExpansion → ∃ e d l p,
        u.kind e = .macroExpansion ∧ u.referenced e = some d ∧ lu.place e = some l ∧
        n.toSymbol = lu.symbol .reference e l ∧ n.parent = some p ∧ lu.MacroOwner g e p ∧
        (u.FirstMacro e d ∨ (∀ m, ¬u.DefinesMacro (u.spelling e) m) →
          ∃ q, (lu.place d).bind g.nodeAt = some q ∧ (p = q ∨ p = g.landing q) ∧
            (lu.Alone d → g.landing q = q)) := by
  have h := LocatedUnit.asLowered_ofSource headers main fs
  generalize TranslationUnit.ofSource headers main = u at h
  obtain ⟨tree, ht⟩ := CursorTree.reconstruct_total h.reports
  exact ⟨_, _, indexUnit_eq_ok_iff.mpr ⟨tree, ht, rfl⟩, fun e he hkind => h.of_use ht he hkind,
    fun i n hn hkind => h.of_node ht hn hkind⟩

/-- The use of the macro that a header defines goes to its node. -/
theorem macro_use_linkedHeaders :
    let lu := LocatedUnit.ofUnit linkedHeaders.files macroUserUnit
    macroUserUnit.kind 6 = .macroExpansion ∧ macroUserUnit.FirstMacro 6 3 ∧
      ∃ report g, indexUnit lu .empty = .ok (report, g) ∧
        (∃ l, lu.place 6 = some l ∧ g.occupied l = true) ∧
        ∃ n p, g.node? 3 = some n ∧ n.parent = some p ∧
          (lu.place 3).bind g.nodeAt = some p := by
  intro lu
  have hkind : macroUserUnit.kind 6 = .macroExpansion := by decide +kernel
  have honly : ∀ e < macroUserUnit.size, macroUserUnit.kind e = .macroExpansion → e = 6 := by
    decide +kernel
  have href : macroUserUnit.referenced 6 = some 3 := by decide +kernel
  have hearlier : ∀ m < 3, macroUserUnit.kind m ≠ .macroDefinition := by decide +kernel
  have hfirst : macroUserUnit.FirstMacro 6 3 :=
    { defines := ⟨by decide +kernel, by decide +kernel, by decide +kernel, by decide +kernel⟩
      lt := by decide
      first := fun m hm => Nat.le_of_not_lt fun hlt => hearlier m hlt hm.kind }
  have hplaces : ∀ c < lu.unit.size, (lu.place c == lu.place 3) = true → c = 3 := by
    decide +kernel
  have halone : lu.Alone 3 := fun c hc => hplaces c (TranslationUnit.lt_size_of_category hc)
  obtain ⟨report, g, hdone, huses, hnodes⟩ :=
    ofSource_macro_uses linkedHeaders macroUser linkedHeaders.files
  have hindexed : indexUnit lu .empty = .ok (report, g) := hdone
  obtain ⟨-, l, -, -, -, -, hl, -, -, hoccupied, -⟩ := huses 6 (by decide +kernel) hkind
  have ho := hoccupied ⟨3, by decide, hfirst.defines⟩
  refine ⟨hkind, hfirst, report, g, hindexed, ⟨l, hl, ho⟩, ?_⟩
  have hnode : ((indexUnit lu .empty).toOption.bind
      fun done => (done.2.node? 3).map (·.kind)) = some .macroExpansion := by
    decide +kernel
  rw [hindexed] at hnode
  obtain ⟨n, hn, hnkind⟩ := Option.map_eq_some_iff.mp hnode
  obtain ⟨e, d, -, p, he, hd, -, -, hparent, -, hagrees⟩ := hnodes 3 n hn hnkind
  obtain rfl := honly e (TranslationUnit.lt_size_of_macroExpansion he) he
  obtain rfl := Option.some.inj (hd.symm.trans href)
  obtain ⟨q, hq, hp, hlanding⟩ := hagrees (.inl hfirst)
  rw [hlanding halone, or_self] at hp
  exact ⟨n, p, hn, hparent, hp ▸ hq⟩

/-- A file that removes a macro, defines it again and uses it. -/
def macroRedefiner : Source where
  path := ⟨"/a.c"⟩
  text := "#define A 1\n#undef A\n#define A 2\nint x = A;\n"
  tree :=
    .node "translation_unit" true 0 44 [] [] [
      .node "preproc_def" true 0 12 [(.name, [0])] [] [
        .node "identifier" true 8 9 [] [] []],
      .node "preproc_call" true 12 21 [(.argument, [1]), (.directive, [0])] [] [
        .node "preproc_directive" true 12 18 [] [] [],
        .node "preproc_arg" true 19 20 [] [] []],
      .node "preproc_def" true 21 33 [(.name, [0])] [] [
        .node "identifier" true 29 30 [] [] []],
      .node "declaration" true 33 43 [(.type, [0]), (.declarator, [1])] [] [
        .node "primitive_type" true 33 36 [] [] [],
        .node "init_declarator" true 37 42 [(.declarator, [0]), (.value, [1])] [] [
          .node "identifier" true 37 38 [] [] [],
          .node "identifier" true 41 42 [] [] []]]]

/-- There are no headers. -/
def noHeaders : Headers where
  files := {}
  includePaths := []
  load _ := none

/-- The use of a macro that was defined again still goes to the definition that was removed, though
    it refers to the other one. -/
theorem macro_use_below_removed :
    let u := TranslationUnit.ofSource noHeaders macroRedefiner
    let lu := LocatedUnit.ofUnit noHeaders.files u
    u.kind 4 = .macroExpansion ∧ u.referenced 4 = some 2 ∧
      (indexUnit lu .empty).toOption.map (fun done =>
        ((lu.place 2).bind done.2.nodeAt, ((lu.place 4).bind done.2.nodeAt).map done.2.parent)) =
        some (some 2, some (some 1)) := by
  decide +kernel

end SymbolAtlas
