import SymbolAtlas.Proofs.IndexingGrowth

/-!
# Runs on a graph

A graph starts empty and is changed by four operations: a node is inserted below an existing one,
a method is asked for its declaration, a unit is indexed, or everything is forgotten.  `Reached`
holds of the graphs that come of any finite run of these.

Principal results: `Reached.wellFormed` — the invariant holds after every run;
`WellFormed.nodeAt_eq_some_iff` — what is found at a location is what sits there;
`WellFormed.chain` — from owner to owner every node leads to the root.
-/

set_option autoImplicit false

namespace SymbolAtlas.SymbolGraph

/-! ## Operations -/

/-- What is done to a graph. -/
inductive Operation where
  | insert (parent : Nat) (s : Symbol)
  | clear
  | methodDeclaration (i : Nat)
  | index (lu : LocatedUnit)

/-- A node is inserted below an existing one. -/
def Operation.Allowed (g : SymbolGraph) : Operation → Prop
  | .insert parent _ => parent < g.size
  | _ => True

/-- The graph after an operation; one that fails leaves it as it was. -/
def Operation.apply (g : SymbolGraph) : Operation → SymbolGraph
  | .insert parent s =>
    match g.insert parent s with
    | .ok (_, g') => g'
    | .error _ => g
  | .clear => g.clear
  | .methodDeclaration i => (g.methodDeclaration i).2
  | .index lu =>
    match indexUnit lu g with
    | .ok (_, g') => g'
    | .error _ => g

/-- A graph that comes of a finite run of operations on the empty one. -/
inductive Reached : SymbolGraph → Prop where
  | empty : Reached .empty
  | step {g : SymbolGraph} (op : Operation) (hg : Reached g) (ha : op.Allowed g) :
      Reached (op.apply g)

theorem WellFormed.apply {g : SymbolGraph} (h : g.WellFormed) {op : Operation}
    (ha : op.Allowed g) : (op.apply g).WellFormed := by
  cases op with
  | insert parent s =>
    unfold Operation.apply
    simp only
    split
    · rename_i i g' hi
      exact h.grows (.insert .refl ha hi)
    · exact h
  | clear => exact wellFormed_empty
  | methodDeclaration i => exact h.methodDeclaration i
  | index lu =>
    unfold Operation.apply
    simp only
    split
    · rename_i report g' hi
      exact h.grows (indexUnit_grows h hi)
    · exact h

/-- The invariant holds after every run. -/
theorem Reached.wellFormed {g : SymbolGraph} (h : Reached g) : g.WellFormed := by
  induction h with
  | empty => exact wellFormed_empty
  | step op _ ha ih => exact ih.apply ha

/-! ## Lookups -/

/-- What sits at a location, in terms of places. -/
theorem place_beq_some_iff {g : SymbolGraph} {i : Nat} {l : Location} :
    (g.place i == some l) = true ↔ ∃ a, g.place i = some a ∧ (a == l) = true := by
  cases g.place i with
  | none => simp
  | some a => simp

namespace WellFormed

variable {g : SymbolGraph}

theorem nodeAt_eq_some_iff (h : g.WellFormed) {l : Location} {i : Nat} :
    g.nodeAt l = some i ↔ (g.place i == some l) = true := by
  rw [place_beq_some_iff]
  refine ⟨place_of_nodeAt, ?_⟩
  rintro ⟨a, ha, hal⟩
  cases hj : g.nodeAt l with
  | none =>
    have hfalse := nodeAt_eq_none_iff.mp hj i a ha
    rw [hal] at hfalse
    cases hfalse
  | some j =>
    obtain ⟨b, hb, hbl⟩ := place_of_nodeAt hj
    rw [h.apart i j a b ha hb (BEq.trans hal (BEq.symm hbl))]

theorem chain (h : g.WellFormed) (i : Nat) (hpos : 0 < i) (hi : i < g.size) :
    Relation.TransGen (fun p c => g.parent c = some p) SymbolGraph.root i := by
  induction i using Nat.strongRecOn with
  | _ i ih =>
    obtain ⟨p, hp, hlt⟩ := h.owned i hpos hi
    rcases Nat.eq_zero_or_pos p with rfl | hppos
    · exact .single hp
    · exact (ih p hlt hppos (by omega)).tail hp

end WellFormed

end SymbolAtlas.SymbolGraph
