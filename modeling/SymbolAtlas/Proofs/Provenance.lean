import SymbolAtlas.Proofs.IndexingSteps

/-!
# Where the nodes of a graph come from

Indexing appends nodes one at a time, and each of them has a cause: a cursor of the unit, and
something that is in the graph already to which the node goes.  `GrowsBy` is growth with the causes
kept, so that what holds of a node now can be led back to the graph in which it was added.

* `Declarations.Cause` — a declaration goes below what encloses it or owns it by meaning, a macro
  expansion below a macro of its name.
* `References.Cause` — a use goes to the landing of the node of what it stands for.

Principal results: `GrowsBy.origin` — a node that was not there before was appended for a cause;
`Declarations.build_advances`, `References.resolvePending_growsBy` — the passes append nodes for
these causes only.
-/

set_option autoImplicit false

namespace SymbolAtlas

/-! ## Growth for causes -/

namespace SymbolGraph

/-- What a graph may become while nodes are appended for causes and nodes are asked for their
    declarations. -/
inductive GrowsBy (Cause : SymbolGraph → Nat → Symbol → Prop) (g : SymbolGraph) :
    SymbolGraph → Prop where
  | refl : GrowsBy Cause g g
  | append {h : SymbolGraph} {p : Nat} {s : Symbol} (hgh : GrowsBy Cause g h) (hc : Cause h p s)
      (hfree : ∀ l, s.location = some l → h.nodeAt l = none) : GrowsBy Cause g (h.append p s)
  | ask {h : SymbolGraph} (hgh : GrowsBy Cause g h) (i : Nat) : GrowsBy Cause g (h.ask i)

namespace GrowsBy

variable {Cause : SymbolGraph → Nat → Symbol → Prop} {g h k : SymbolGraph}

theorem trans (hgh : GrowsBy Cause g h) (hhk : GrowsBy Cause h k) : GrowsBy Cause g k := by
  induction hhk with
  | refl => exact hgh
  | append _ hc hfree ih => exact .append ih hc hfree
  | ask _ i ih => exact .ask ih i

theorem mono {Cause' : SymbolGraph → Nat → Symbol → Prop}
    (hsub : ∀ k p s, Cause k p s → Cause' k p s) (hgh : GrowsBy Cause g h) :
    GrowsBy Cause' g h := by
  induction hgh with
  | refl => exact .refl
  | append _ hc hfree ih => exact .append ih (hsub _ _ _ hc) hfree
  | ask _ i ih => exact .ask ih i

theorem extends_ (hgh : GrowsBy Cause g h) : g.Extends h := by
  induction hgh with
  | refl => exact Extends.refl g
  | append _ _ _ ih => exact ih.trans (extends_append _ _ _)
  | ask _ i ih => exact ih.trans (extends_ask _ i)

/-- If causes name nodes of the graph only, then a well-formed graph grows. -/
theorem grows (hp : ∀ k p s, k.WellFormed → Cause k p s → p < k.size) (hg : g.WellFormed)
    (hgh : GrowsBy Cause g h) : g.Grows h := by
  induction hgh with
  | refl => exact .refl
  | append _ hc hfree ih =>
    exact .insert ih (hp _ _ _ (hg.grows ih) hc) (insert_eq_ok_iff.mpr ⟨hfree, rfl, rfl⟩)
  | ask _ i ih =>
    unfold SymbolGraph.ask
    split
    · exact .methodDeclaration ih i
    · exact ih

/-- A node that was not there before was appended for a cause, at a free location. -/
theorem origin (hgh : GrowsBy Cause g h) {i : Nat} (hi : g.size ≤ i) {s : Symbol} {q : Option Nat}
    (hs : h.core i = some (s, q)) :
    ∃ k p, q = some p ∧ Cause k p s ∧ k.size = i ∧ GrowsBy Cause g k ∧
      GrowsBy Cause (k.append p s) h ∧ ∀ l, s.location = some l → k.nodeAt l = none := by
  induction hgh with
  | refl =>
    obtain ⟨n, hn, _⟩ := core_eq_some_iff.mp hs
    exact absurd (node?_eq_some_lt hn) (Nat.not_lt.mpr hi)
  | @append k p s' hgk hc hfree ih =>
    rw [core_append] at hs
    split at hs
    · rename_i hlast
      cases hs
      exact ⟨k, p, rfl, hc, hlast.symm, hgk, .refl, hfree⟩
    · obtain ⟨k', p', hq, hc', hsize, hgk', hk', hfree'⟩ := ih hs
      exact ⟨k', p', hq, hc', hsize, hgk', .append hk' hc hfree, hfree'⟩
  | ask _ j ih =>
    rw [core_ask] at hs
    obtain ⟨k', p', hq, hc', hsize, hgk', hk', hfree'⟩ := ih hs
    exact ⟨k', p', hq, hc', hsize, hgk', .ask hk' j, hfree'⟩

/-- Where uses go stays as it is for a node that was asked, if only uses are appended. -/
theorem asked (huse : ∀ k p s, Cause k p s → s.category = .reference) (hgh : GrowsBy Cause g h)
    {i : Nat} (hi : i < g.size) (ha : g.Asked i) : h.Asked i ∧ h.landing i = g.landing i := by
  induction hgh with
  | refl => exact ⟨ha, rfl⟩
  | append hgk hc _ ih =>
    have hle := hgk.extends_.size_le
    obtain ⟨hk, hland⟩ := ih.1.append_reference (Nat.lt_of_lt_of_le hi hle) (huse _ _ _ hc)
    exact ⟨hk, hland.trans ih.2⟩
  | ask _ j ih =>
    obtain ⟨hk, hland⟩ := ih.1.ask j
    exact ⟨hk, hland.trans ih.2⟩

end GrowsBy

def IsDeclared (g : SymbolGraph) (i : Nat) : Prop :=
  ∃ s q, g.core i = some (s, q) ∧ s.category.declares = true

theorem IsDeclared.mono {g h : SymbolGraph} (he : g.Extends h) {i : Nat} (hi : g.IsDeclared i) :
    h.IsDeclared i := by
  obtain ⟨s, q, hs, hd⟩ := hi
  exact ⟨s, q, he.core hs, hd⟩

end SymbolGraph

open SymbolGraph (GrowsBy)

/-! ## The first pass -/

namespace Declarations

/-- A node that may enclose a declaration: the root, or something declared. -/
def Encloses (g : SymbolGraph) (p : Nat) : Prop := p = SymbolGraph.root ∨ g.IsDeclared p

/-- Why the first pass appends a node. -/
inductive Cause (lu : LocatedUnit) (tree : CursorTree) (k : SymbolGraph) : Nat → Symbol → Prop where
  | declared {id p : Nat} {l : Location} (hid : id ∈ tree.preorder)
      (hl : lu.place (tree.cursor id) = some l)
      (hd : (lu.unit.category (tree.cursor id)).declares = true)
      (hp : Encloses k p ∨ semanticOwner lu tree k id = some p) :
      Cause lu tree k p (lu.symbol (lu.unit.category (tree.cursor id)) (tree.cursor id) l)
  | expanded {id m p : Nat} {l : Location} (hid : id ∈ tree.preorder)
      (hk : lu.unit.kind (tree.cursor id) = .macroExpansion)
      (hl : lu.place (tree.cursor id) = some l) (hm : tree.MacroBeside lu id m)
      (hp : (lu.place (tree.cursor m)).bind k.nodeAt = some p) :
      Cause lu tree k p (lu.symbol .reference (tree.cursor id) l)

/-- A use of the tree with its location. -/
structure IsUse (lu : LocatedUnit) (tree : CursorTree) (e : Location × Nat) : Prop where
  mem : e.2 ∈ tree.preorder
  category : lu.unit.category (tree.cursor e.2) = .reference
  place : lu.place (tree.cursor e.2) = some e.1

/-- What the first pass does to its state. -/
structure Advances (lu : LocatedUnit) (tree : CursorTree)
    (s s' : Declarations SymbolGraph) : Prop where
  grows : GrowsBy (Cause lu tree) s.graph s'.graph
  pending : ∀ e ∈ s'.pending, e ∈ s.pending ∨ IsUse lu tree e
  kept : ∀ e ∈ s.pending, e ∈ s'.pending

variable {lu : LocatedUnit} {tree : CursorTree}

theorem Encloses.mono {g h : SymbolGraph} (he : g.Extends h) {p : Nat} (hp : Encloses g p) :
    Encloses h p :=
  hp.imp_right (·.mono he)

theorem Advances.refl (s : Declarations SymbolGraph) : Advances lu tree s s :=
  ⟨.refl, fun _ he => .inl he, fun _ he => he⟩

theorem Advances.trans {s t u : Declarations SymbolGraph} (hst : Advances lu tree s t)
    (htu : Advances lu tree t u) : Advances lu tree s u where
  grows := hst.grows.trans htu.grows
  pending e he := (htu.pending e he).elim (hst.pending e) .inr
  kept e he := htu.kept e (hst.kept e he)

theorem keep_graph (s : Declarations SymbolGraph) (l : Location) (id : Nat) :
    (s.keep l id).graph = s.graph := by
  unfold keep
  split
  · rfl
  · rfl

theorem keep_stats (s : Declarations SymbolGraph) (l : Location) (id : Nat) :
    (s.keep l id).stats = s.stats := by
  unfold keep
  split
  · rfl
  · rfl

theorem mem_pending_keep {s : Declarations SymbolGraph} {l : Location} {id : Nat}
    {e : Location × Nat}
    (he : e ∈ (s.keep l id).pending) : e ∈ s.pending ∨ e = (l, id) := by
  unfold keep at he
  split at he
  · exact .inl he
  · rwa [List.mem_append, List.mem_singleton] at he

theorem pending_keep {s : Declarations SymbolGraph} {l : Location} {id : Nat} {e : Location × Nat}
    (he : e ∈ s.pending) : e ∈ (s.keep l id).pending := by
  unfold keep
  split
  · exact he
  · exact List.mem_append_left _ he

theorem siblingMacro_eq_some {g : SymbolGraph} {siblings : List Nat} {id definition : Nat}
    (hsiblings : ∀ m ∈ siblings, tree.Siblings id m)
    (h : siblingMacro lu tree g siblings (lu.unit.spelling (tree.cursor id)) = some definition) :
    ∃ m, tree.MacroBeside lu id m ∧ (lu.place (tree.cursor m)).bind g.nodeAt = some definition := by
  obtain ⟨m, hm, hdefinition⟩ := List.exists_of_findSome?_eq_some h
  simp only at hdefinition
  split at hdefinition
  · rename_i hkind
    exact ⟨m, ⟨hsiblings m hm, hkind.1, hkind.2⟩, hdefinition⟩
  · cases hdefinition

theorem semanticOwner_eq_some {g : SymbolGraph} {id owner : Nat}
    (h : semanticOwner lu tree g id = some owner) :
    ∃ t around, lu.unit.semanticParent (tree.cursor id) = some t ∧
      (tree.node id).parent = some around ∧ lu.alike t (tree.cursor around) = false ∧
      (lu.place t).bind g.nodeAt = some owner := by
  unfold semanticOwner at h
  obtain ⟨t, ht, h⟩ := Option.bind_eq_some_iff.mp h
  obtain ⟨around, haround, h⟩ := Option.bind_eq_some_iff.mp h
  split at h
  · cases h
  · rename_i hne
    exact ⟨t, around, ht, haround, Bool.eq_false_iff.mpr hne, h⟩

/-- One step advances, and it goes on below a node that may enclose declarations. -/
theorem Enters.advances {siblings : List Nat} {owner id : Nat} {s : Declarations SymbolGraph}
    {done : Declarations SymbolGraph × Option Nat} (h : Enters lu tree siblings owner s id done)
    (hid : id ∈ tree.preorder) (hsiblings : ∀ m ∈ siblings, tree.Siblings id m)
    (howner : Encloses s.graph owner) :
    Advances lu tree s done.1 ∧ ∀ owner', done.2 = some owner' → Encloses done.1.graph owner' := by
  cases h with
  | passes _ => exact ⟨.refl s, fun o ho => by cases ho; exact howner⟩
  | skips _ _ => exact ⟨.refl s, fun o ho => by cases ho⟩
  | @keeps l hc hl _ _ =>
    refine ⟨⟨?_, fun e he => ?_, fun e he => ?_⟩, fun o ho => by cases ho⟩
    · rw [keep_graph]
      exact .refl
    · exact (mem_pending_keep he).imp_right fun heq => by rw [heq]; exact ⟨hid, hc, hl⟩
    · exact pending_keep he
  | @expands l definition hk hl hf hm =>
    obtain ⟨m, hbeside, hnode⟩ := siblingMacro_eq_some hsiblings hm
    refine ⟨⟨.append .refl ?_ ?_, fun e he => .inl he, fun e he => he⟩, fun o ho => by cases ho⟩
    · exact .expanded hid hk hl hbeside hnode
    · exact fun l' hl' => by cases hl'; exact hf
  | counts _ _ _ _ =>
    exact ⟨⟨.refl, fun e he => .inl he, fun e he => he⟩, fun o ho => by cases ho⟩
  | @adds l _ hd hl hf reparented =>
    refine ⟨⟨.append .refl (.declared hid hl hd ?_) ?_, fun e he => .inl he, fun e he => he⟩,
      fun o ho => ?_⟩
    · cases semanticOwner lu tree s.graph id with
      | none => exact .inl howner
      | some p => exact .inr rfl
    · exact fun l' hl' => by cases hl'; exact hf
    · cases ho
      refine .inr ⟨lu.symbol (lu.unit.category (tree.cursor id)) (tree.cursor id) l,
        some ((semanticOwner lu tree s.graph id).getD owner), ?_, hd⟩
      rw [SymbolGraph.core_append, if_pos rfl]

theorem visitInside_advances {id owner : Nat}
    (hinside : ∀ c ∈ tree.inside id, ∀ (siblings : List Nat) (s : Declarations SymbolGraph),
      (∀ m ∈ siblings, tree.Siblings c m) → Encloses s.graph owner →
        Advances lu tree s (visit lu tree siblings owner (tree.branchAt c) s))
    {s : Declarations SymbolGraph} (howner : Encloses s.graph owner) :
    Advances lu tree s (visitInside lu tree owner id s) :=
  List.foldlRecOn (motive := Advances lu tree s) _ _ (.refl s) fun t ht c hc =>
    ht.trans (hinside c hc _ t (fun _ hm => ⟨id, hc, hm⟩) (howner.mono ht.grows.extends_))

/-- Visiting a node advances. -/
theorem visit_advances (lu : LocatedUnit) (tree : CursorTree) (i : Nat) :
    ∀ (owner : Nat), i ∈ tree.preorder → ∀ (siblings : List Nat) (s : Declarations SymbolGraph),
      (∀ m ∈ siblings, tree.Siblings i m) → Encloses s.graph owner →
        Advances lu tree s (visit lu tree siblings owner (tree.branchAt i) s) := by
  induction i using tree.climb with
  | step i ih =>
    intro owner hi siblings s hsiblings howner
    have hstep := (enters lu tree siblings owner s i).advances hi hsiblings howner
    rw [visit_branchAt]
    split
    · rename_i s' he
      rw [he] at hstep
      exact hstep.1
    · rename_i s' owner' he
      rw [he] at hstep
      exact hstep.1.trans (visitInside_advances (fun c hc =>
        ih c hc owner' (CursorTree.mem_preorder_of_inside hi hc)) (hstep.2 owner' rfl))

/-- The first pass appends nodes for its causes only, and keeps uses only. -/
theorem build_advances (lu : LocatedUnit) (tree : CursorTree) (g : SymbolGraph) :
    GrowsBy (Cause lu tree) g (build lu tree g).graph ∧
      ∀ e ∈ (build lu tree g).pending, IsUse lu tree e := by
  have h := visit_advances lu tree 0 SymbolGraph.root (CursorTree.zero_mem_preorder tree) []
    { graph := g } (fun _ hm => by cases hm) (.inl rfl)
  exact ⟨h.grows, fun e he => (h.pending e he).resolve_left fun he => by cases he⟩

end Declarations

/-! ## The second pass -/

/-- The node is a use, or stands inside one. -/
def CursorTree.InsideUse (lu : LocatedUnit) (tree : CursorTree) (id : Nat) : Prop :=
  ∃ a ∈ Branch.lineage (links tree.nodes) id, lu.unit.category (tree.cursor a) = .reference

theorem CursorTree.InsideUse.of_inside {lu : LocatedUnit} {tree : CursorTree} {i c : Nat}
    (hu : tree.InsideUse lu i) (hc : c ∈ tree.inside i) : tree.InsideUse lu c := by
  obtain ⟨a, ha, hcategory⟩ := hu
  exact ⟨a, (Branch.mem_lineage_of_hangs (Branch.mem_directlyBelow.mp hc)).mpr (.inr ha), hcategory⟩

theorem CursorTree.InsideUse.of_category {lu : LocatedUnit} {tree : CursorTree} {id : Nat}
    (hc : lu.unit.category (tree.cursor id) = .reference) : tree.InsideUse lu id :=
  ⟨id, Branch.self_mem_lineage id, hc⟩

namespace References

/-- Why the second pass appends a node. -/
inductive Cause (lu : LocatedUnit) (tree : CursorTree) (k : SymbolGraph) : Nat → Symbol → Prop where
  | used {id t d : Nat} {l : Location} (hid : id ∈ tree.preorder) (hu : tree.InsideUse lu id)
      (hl : lu.place (tree.cursor id) = some l) (hm : lu.Means (tree.cursor id) t)
      (ha : lu.Admits (tree.cursor id) t) (hd : (lu.place t).bind k.nodeAt = some d)
      (hasked : k.Asked d) :
      Cause lu tree k (k.landing d) (lu.symbol .reference (tree.cursor id) l)

variable {lu : LocatedUnit} {tree : CursorTree}

theorem Cause.category_eq {k : SymbolGraph} {p : Nat} {s : Symbol} (h : Cause lu tree k p s) :
    s.category = .reference := by
  cases h with
  | used => rfl

/-- One step appends a use at most. -/
theorem Examines.grows {id : Nat} {s : References SymbolGraph}
    {done : References SymbolGraph × Bool}
    (h : Examines lu tree s id done) (hid : id ∈ tree.preorder) (hu : tree.InsideUse lu id) :
    GrowsBy (Cause lu tree) s.graph done.1.graph := by
  cases h with
  | passes _ _ => exact .refl
  | taken _ _ hg _ => rw [hg]; exact .refl
  | drops _ _ _ _ hg _ => rw [hg]; exact .refl
  | @attaches l t node _ hl hf _ hm ha hn hg _ =>
    -- the node is asked first, and the use appended to the graph after that
    obtain ⟨hasked, hland⟩ := s.graph.asked_ask node
    have hn' := (s.graph.extends_ask node).bind_nodeAt hn
    rw [hg, ← hland]
    refine .append (.ask .refl node) (.used hid hu hl hm ha hn' hasked) fun l' hl' => ?_
    cases hl'
    exact SymbolGraph.nodeAt_ask_eq_none hf node

theorem sweepInside_grows {id : Nat}
    (hinside : ∀ c ∈ tree.inside id, ∀ s : References SymbolGraph,
      GrowsBy (Cause lu tree) s.graph (resolveAt lu tree c s).graph) (s : References SymbolGraph) :
    GrowsBy (Cause lu tree) s.graph (sweepInside lu tree id s).graph :=
  List.foldlRecOn
    (motive := fun t : References SymbolGraph => GrowsBy (Cause lu tree) s.graph t.graph) _ _
    .refl fun t ht c hc => ht.trans (hinside c hc t)

/-- Resolving a use with its inside appends uses. -/
theorem resolveAt_grows (lu : LocatedUnit) (tree : CursorTree) (i : Nat) :
    i ∈ tree.preorder → tree.InsideUse lu i → ∀ s : References SymbolGraph,
      GrowsBy (Cause lu tree) s.graph (resolveAt lu tree i s).graph := by
  induction i using tree.climb with
  | step i ih =>
    intro hi hu s
    have hstep := (examines lu tree s i).grows hi hu
    rw [resolveAt_eq]
    split
    · rename_i s' he
      rw [he] at hstep
      exact hstep.trans (sweepInside_grows (fun c hc =>
        ih c hc (CursorTree.mem_preorder_of_inside hi hc) (hu.of_inside hc)) s')
    · rename_i s' he
      rw [he] at hstep
      exact hstep

/-- What the step at a node left is there when its inside was swept as well. -/
theorem site_extends {id : Nat} (hid : id ∈ tree.preorder) (hu : tree.InsideUse lu id)
    (s : References SymbolGraph) :
    (site lu tree s id (lu.place (tree.cursor id))).1.graph.Extends
      (resolveAt lu tree id s).graph := by
  rw [resolveAt_eq]
  split
  · rename_i s' he
    rw [he]
    exact (sweepInside_grows (fun c hc => resolveAt_grows lu tree c
      (CursorTree.mem_preorder_of_inside hid hc) (hu.of_inside hc)) s').extends_
  · rename_i s' he
    rw [he]
    exact SymbolGraph.Extends.refl _

theorem foldl_resolveAt_grows {pending : List (Location × Nat)}
    (hp : ∀ e ∈ pending, Declarations.IsUse lu tree e) (s : References SymbolGraph) :
    GrowsBy (Cause lu tree) s.graph
      (pending.foldl (fun s e => resolveAt lu tree e.2 s) s).graph := by
  refine List.foldlRecOn
    (motive := fun t : References SymbolGraph => GrowsBy (Cause lu tree) s.graph t.graph)
    _ _ .refl fun t ht e he => ht.trans ?_
  exact resolveAt_grows lu tree e.2 (hp e he).mem (.of_category (hp e he).category) t

/-- The second pass appends uses for its causes only. -/
theorem resolvePending_growsBy {pending : List (Location × Nat)}
    (hp : ∀ e ∈ pending, Declarations.IsUse lu tree e) (g : SymbolGraph) :
    GrowsBy (Cause lu tree) g (resolvePending lu tree g pending).graph := by
  rw [resolvePending_eq_foldl fun e he => (hp e he).place]
  exact foldl_resolveAt_grows hp { graph := g }

end References

/-! ## Units -/

/-- Why indexing a unit appends a node. -/
def LocatedUnit.Cause (lu : LocatedUnit) (k : SymbolGraph) (p : Nat) (s : Symbol) : Prop :=
  ∃ tree, CursorTree.reconstruct lu = .ok tree ∧
    (Declarations.Cause lu tree k p s ∨ References.Cause lu tree k p s)

/-- A unit is indexed exactly if its tree can be rebuilt. -/
theorem indexUnit_eq_ok_iff {lu : LocatedUnit} {g : SymbolGraph} {done : UnitReport × SymbolGraph} :
    indexUnit lu g = .ok done ↔
      ∃ tree, CursorTree.reconstruct lu = .ok tree ∧ indexTree lu tree g = done := by
  unfold indexUnit indexUnitInto indexTree
  cases CursorTree.reconstruct lu with
  | error e => simp [Except.map]
  | ok tree => simp [Except.map]

/-- What the second pass appends to what the first one leaves. -/
theorem indexTree_growsBy (lu : LocatedUnit) (tree : CursorTree) (g : SymbolGraph) :
    GrowsBy (References.Cause lu tree) (Declarations.build lu tree g).graph
      (indexTree lu tree g).2 :=
  References.resolvePending_growsBy (Declarations.build_advances lu tree g).2 _

/-- Indexing a unit is the first pass followed by the second. -/
theorem indexUnit_passes {lu : LocatedUnit} {g g' : SymbolGraph} {report : UnitReport}
    (h : indexUnit lu g = .ok (report, g')) :
    ∃ tree built, CursorTree.reconstruct lu = .ok tree ∧
      GrowsBy (Declarations.Cause lu tree) g built ∧
        GrowsBy (References.Cause lu tree) built g' := by
  obtain ⟨tree, ht, hdone⟩ := indexUnit_eq_ok_iff.mp h
  cases hdone
  exact ⟨tree, _, ht, (Declarations.build_advances lu tree g).1, indexTree_growsBy lu tree g⟩

/-- Indexing a unit appends nodes for its causes only. -/
theorem indexUnit_growsBy {lu : LocatedUnit} {g g' : SymbolGraph} {report : UnitReport}
    (h : indexUnit lu g = .ok (report, g')) : GrowsBy lu.Cause g g' := by
  obtain ⟨tree, built, ht, hbuild, hresolve⟩ := indexUnit_passes h
  exact (hbuild.mono fun k p s hc => ⟨tree, ht, .inl hc⟩).trans
    (hresolve.mono fun k p s hc => ⟨tree, ht, .inr hc⟩)

end SymbolAtlas
