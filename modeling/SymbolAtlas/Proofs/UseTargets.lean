import SymbolAtlas.Proofs.Provenance

/-!
# What uses find

The second pass goes through the uses that the first one kept.  A use may come before what it
stands for, since all declarations of the unit are in the graph by then; it may be dealt with while
another use is swept, and asking a method for its declaration changes where later uses go.

* `References.Lands` — a node is a use of the tree and hangs where uses of its target go.

Principal result: `References.resolvePending_attaches` — what the second pass adds are uses at their
targets, and no use is left out whose target is in the graph.
-/

set_option autoImplicit false

namespace SymbolAtlas.References

open SymbolGraph (GrowsBy)

variable {lu : LocatedUnit} {tree : CursorTree}

/-- The node is made from a cursor of the tree, and hangs below the node of what the cursor stands
    for, or below the declaration of that node if it defines a method. -/
def Lands (lu : LocatedUnit) (tree : CursorTree) (g : SymbolGraph) (n : GraphNode) : Prop :=
  ∃ id ∈ tree.preorder, ∃ l t d, lu.place (tree.cursor id) = some l ∧
    n.toSymbol = lu.symbol .reference (tree.cursor id) l ∧
    lu.Means (tree.cursor id) t ∧ lu.Admits (tree.cursor id) t ∧
    (lu.place t).bind g.nodeAt = some d ∧ n.parent = some (g.landing d)

/-- A use hangs where uses of its target go, also when the pass is over. -/
theorem lands_of_grows {g h : SymbolGraph} (hgh : GrowsBy (Cause lu tree) g h) {i : Nat}
    (hi : g.size ≤ i) {n : GraphNode} (hn : h.node? i = some n) : Lands lu tree h n := by
  have hcore := SymbolGraph.core_eq_some_iff.mpr ⟨n, hn, rfl, rfl⟩
  obtain ⟨k, p, hp, hcause, _, _, hrest, _⟩ := hgh.origin hi hcore
  unfold Lands
  generalize n.toSymbol = s at hcause hrest ⊢
  cases hcause with
  | @used id t d l hid hu hl hm ha hd hasked =>
    -- `d` was asked when the use went to its landing in `k`, so that the landing is the same now
    have hext := k.extends_append (k.landing d) (lu.symbol .reference (tree.cursor id) l)
    have hlt := SymbolGraph.bind_nodeAt_lt hd
    obtain ⟨hasked', hland⟩ := hasked.append_reference (p := k.landing d)
      (s := lu.symbol .reference (tree.cursor id) l) hlt rfl
    have hland' := (hrest.asked (fun _ _ _ hc => hc.category_eq)
      (Nat.lt_of_lt_of_le hlt hext.size_le) hasked').2
    refine ⟨id, hid, l, t, d, hl, rfl, hm, ha, (hext.trans hrest.extends_).bind_nodeAt hd, ?_⟩
    rw [hp, hland', hland]

theorem Found.mono {g h : SymbolGraph} (he : g.Extends h) {id : Nat} (hfound : Found lu tree g id) :
    Found lu tree h id := by
  obtain ⟨t, d, hm, ha, hd⟩ := hfound
  exact ⟨t, d, hm, ha, he.bind_nodeAt hd⟩

/-- A step at a use whose target is found leaves a node at its place. -/
theorem Examines.occupied {id : Nat} {s : References SymbolGraph}
    {done : References SymbolGraph × Bool}
    (h : Examines lu tree s id done) {l : Location} (hl : lu.place (tree.cursor id) = some l)
    (hc : lu.unit.category (tree.cursor id) = .reference) (hfound : Found lu tree s.graph id) :
    done.1.graph.occupied l = true := by
  cases h with
  | passes hp _ => exact absurd hp (not_passes hc hl)
  | taken hl' ho hg _ =>
    rw [hl] at hl'
    cases hl'
    rw [hg]
    exact ho
  | drops _ hnot _ _ _ _ => exact absurd hfound hnot
  | attaches hl' _ _ _ _ _ hg _ =>
    rw [hl] at hl'
    cases hl'
    rw [hg]
    exact SymbolGraph.occupied_append rfl

theorem resolveAt_occupied {e : Location × Nat} (he : Declarations.IsUse lu tree e)
    {s : References SymbolGraph} (hfound : Found lu tree s.graph e.2) :
    (resolveAt lu tree e.2 s).graph.occupied e.1 = true :=
  (site_extends he.mem (.of_category he.category) s).occupied
    ((examines lu tree s e.2).occupied he.place he.category hfound)

/-- No use is left out whose target is in the graph when the second pass starts. -/
theorem resolvePending_occupied {pending : List (Location × Nat)}
    (hp : ∀ e ∈ pending, Declarations.IsUse lu tree e) {g : SymbolGraph} {e : Location × Nat}
    (he : e ∈ pending) (hfound : Found lu tree g e.2) :
    (resolvePending lu tree g pending).graph.occupied e.1 = true := by
  rw [resolvePending_eq_foldl fun e he => (hp e he).place]
  obtain ⟨before, after, rfl⟩ := List.append_of_mem he
  have hbefore : ∀ e ∈ before, Declarations.IsUse lu tree e :=
    fun e' he' => hp e' (List.mem_append_left _ he')
  have hafter : ∀ e ∈ after, Declarations.IsUse lu tree e :=
    fun e' he' => hp e' (List.mem_append_right _ (List.mem_cons_of_mem _ he'))
  rw [List.foldl_append, List.foldl_cons]
  -- the target is still there when the turn comes to the use, and then the use stays
  have hgrown := foldl_resolveAt_grows hbefore { graph := g }
  have hturn := resolveAt_occupied (hp e he) (hfound.mono hgrown.extends_)
  exact (foldl_resolveAt_grows hafter _).extends_.occupied hturn

/-- **What the second pass adds are uses at their targets, and no use is left out whose target is
    in the graph when it starts.** -/
theorem resolvePending_attaches (lu : LocatedUnit) (tree : CursorTree) (g : SymbolGraph) :
    let built := Declarations.build lu tree g
    let done := resolvePending lu tree built.graph built.pending
    (∀ i n, built.graph.size ≤ i → done.graph.node? i = some n → Lands lu tree done.graph n) ∧
      ∀ e ∈ built.pending, Found lu tree built.graph e.2 → done.graph.occupied e.1 = true := by
  intro built done
  have hpending := (Declarations.build_advances lu tree g).2
  exact ⟨fun i n hi hn => lands_of_grows (resolvePending_growsBy hpending built.graph) hi hn,
    fun e he hfound => resolvePending_occupied hpending he hfound⟩

end SymbolAtlas.References
