import SymbolAtlas.Proofs.GraphRuns

/-!
# Graphs of units

`ofUnits` is the graph of units that are indexed one after another, in the order in which they are
given.  Every node of it but the root comes from a cursor of one of the units.

Principal results: `ofUnits_growsBy` — the graph grows for the causes of its units only;
`located_origin` — a node at a location stands for a cursor at that location, which declares
something or is a use of something elsewhere.
-/

set_option autoImplicit false

namespace SymbolAtlas

namespace SymbolGraph

/-! ## Nodes that are not the root -/

theorem WellFormed.pos_of_category {g : SymbolGraph} (hg : g.WellFormed) {i : Nat} {n : GraphNode}
    (hn : g.node? i = some n) (hc : n.category ≠ .root) : 0 < i := by
  rcases Nat.eq_zero_or_pos i with rfl | hpos
  · rw [hg.root] at hn
    cases hn
    exact absurd rfl hc
  · exact hpos

theorem WellFormed.exists_owner {g : SymbolGraph} (hg : g.WellFormed) {i : Nat} {n : GraphNode}
    (hn : g.node? i = some n) (hc : n.category ≠ .root) : ∃ p, n.parent = some p := by
  obtain ⟨p, hp, _⟩ := hg.owned i (hg.pos_of_category hn hc) (node?_eq_some_lt hn)
  obtain ⟨n', hn', howner⟩ := parent_eq_some_iff.mp hp
  rw [hn] at hn'
  cases hn'
  exact ⟨p, howner⟩

theorem WellFormed.pos_of_owner {g : SymbolGraph} (hg : g.WellFormed) {i p : Nat} {s : Symbol}
    (hi : g.core i = some (s, some p)) : 0 < i := by
  obtain ⟨n, hn, _, hparent⟩ := core_eq_some_iff.mp hi
  rcases Nat.eq_zero_or_pos i with rfl | hpos
  · rw [hg.root] at hn
    cases hn
    cases hparent
  · exact hpos

theorem WellFormed.owner_lt {g : SymbolGraph} (hg : g.WellFormed) {i p : Nat} {s : Symbol}
    (hi : g.core i = some (s, some p)) : p < i := by
  obtain ⟨n, hn, _, hparent⟩ := core_eq_some_iff.mp hi
  exact hg.parent_lt (parent_eq_some_iff.mpr ⟨n, hn, hparent⟩)

/-! ## Runs over units -/

/-- The graph of units that are indexed one after another. -/
def ofUnits (us : List LocatedUnit) : SymbolGraph :=
  us.foldl (fun g lu => (Operation.index lu).apply g) .empty

/-- Why indexing one of the units appends a node. -/
def RunCause (us : List LocatedUnit) (k : SymbolGraph) (p : Nat) (s : Symbol) : Prop :=
  ∃ lu ∈ us, lu.Cause k p s

variable {us : List LocatedUnit}

theorem index_apply_growsBy {lu : LocatedUnit} (hlu : lu ∈ us) (g : SymbolGraph) :
    GrowsBy (RunCause us) g ((Operation.index lu).apply g) := by
  unfold Operation.apply
  simp only
  split
  · rename_i report g' hi
    exact (indexUnit_growsBy hi).mono fun k p s hc => ⟨lu, hlu, hc⟩
  · exact .refl

/-- A graph of units grows for the causes of these units only. -/
theorem ofUnits_growsBy (us : List LocatedUnit) : GrowsBy (RunCause us) .empty (ofUnits us) :=
  List.foldlRecOn (motive := GrowsBy (RunCause us) .empty) _ _ .refl
    fun g hg _ hlu => hg.trans (index_apply_growsBy hlu g)

theorem ofUnits_concat (us : List LocatedUnit) (lu : LocatedUnit) :
    ofUnits (us ++ [lu]) = (Operation.index lu).apply (ofUnits us) := by
  rw [ofUnits, List.foldl_append]
  rfl

/-- A graph that grows from the empty one for the causes of units is well-formed. -/
theorem wellFormed_of_growsBy {k : SymbolGraph} (hk : GrowsBy (RunCause us) .empty k) :
    k.WellFormed := by
  refine wellFormed_empty.grows (hk.grows (fun h p s hh hc => ?_) wellFormed_empty)
  obtain ⟨lu, _, hcause⟩ := hc
  exact hcause.lt hh

end SymbolGraph

/-- What a node of the tree is a use of: what it stands for if it is inside a use, and a macro
    definition beside an expansion. -/
inductive CursorTree.Uses (lu : LocatedUnit) (tree : CursorTree) (id : Nat) : Nat → Prop where
  | target {t : Nat} (hu : tree.InsideUse lu id) (hm : lu.Means (tree.cursor id) t)
      (ha : lu.Admits (tree.cursor id) t) : Uses lu tree id t
  | macroDefinition {m : Nat} (hk : lu.unit.kind (tree.cursor id) = .macroExpansion)
      (hm : tree.MacroBeside lu id m) : Uses lu tree id (tree.cursor m)

/-- A node at `l` is a use of something that stands elsewhere. -/
def CursorTree.UsesElsewhere (lu : LocatedUnit) (tree : CursorTree) (id : Nat) (l : Location) :
    Prop :=
  lu.place (tree.cursor id) = some l ∧
    ∃ t lt, tree.Uses lu id t ∧ lu.place t = some lt ∧ (l == lt) = false

namespace SymbolGraph

variable {us : List LocatedUnit}

/-- What is found somewhere stands elsewhere than at a free location. -/
theorem elsewhere_of_free {lu : LocatedUnit} {tree : CursorTree} {k : SymbolGraph} {id t d : Nat}
    {l : Location} (hl : lu.place (tree.cursor id) = some l) (ht : tree.Uses lu id t)
    (hd : (lu.place t).bind k.nodeAt = some d) (hf : k.nodeAt l = none) :
    tree.UsesElsewhere lu id l := by
  obtain ⟨lt, hlt, hnode⟩ := Option.bind_eq_some_iff.mp hd
  refine ⟨hl, t, lt, ht, hlt, Bool.eq_false_iff.mpr fun heq => not_occupied hf ?_⟩
  rw [occupied_congr heq]
  exact Option.isSome_iff_exists.mpr ⟨d, hnode⟩

/-- A node at a location stands for a cursor at that location. -/
theorem located_origin {k : SymbolGraph} (hk : GrowsBy (RunCause us) .empty k) {d : Nat}
    {s : Symbol} {q : Option Nat} {l : Location} (hd : k.core d = some (s, q))
    (hl : s.location = some l) :
    ∃ lu ∈ us, ∃ tree, CursorTree.reconstruct lu = .ok tree ∧ ∃ id ∈ tree.preorder,
      lu.place (tree.cursor id) = some l ∧
        (s.category.declares = true ∨ s.category = .reference ∧ tree.UsesElsewhere lu id l) := by
  have hpos : empty.size ≤ d := by
    rcases Nat.eq_zero_or_pos d with rfl | hpos
    · rw [core, (wellFormed_of_growsBy hk).root] at hd
      cases hd
      cases hl
    · exact hpos
  obtain ⟨_, _, _, ⟨lu, hlu, tree, htree, hcause⟩, _, _, _, hfree⟩ := hk.origin hpos hd
  have hf := hfree l hl
  refine ⟨lu, hlu, tree, htree, ?_⟩
  rcases hcause with hcause | hcause
  · cases hcause with
    | declared hid hl' hdeclares _ =>
      cases hl
      exact ⟨_, hid, hl', .inl hdeclares⟩
    | expanded hid hkind hl' hm hnode =>
      cases hl
      exact ⟨_, hid, hl', .inr ⟨rfl, elsewhere_of_free hl' (.macroDefinition hkind hm) hnode hf⟩⟩
  · cases hcause with
    | used hid hu hl' hm ha hnode _ =>
      cases hl
      exact ⟨_, hid, hl', .inr ⟨rfl, elsewhere_of_free hl' (.target hu hm ha) hnode hf⟩⟩

end SymbolGraph

end SymbolAtlas
