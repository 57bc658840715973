import SymbolAtlas.Proofs.LocationOrder

/-!
# What holds of every graph

A graph changes in two ways only: a node is appended below an existing one at a free location, or a
method definition is linked to its declaration.  `Grows` is what comes of any number of such
changes.

* `WellFormed` — the root stands first and is no one's child, every other node hangs below an
  earlier one, no location holds two nodes, and a link leads from a method definition to a
  declaration of the same method.
* `Extends` — what a graph keeps while it grows: its nodes with their numbers, owners and links.

Principal results: `WellFormed.grows` — growing keeps a graph well-formed; `Grows.extends_` — a
graph that grows keeps its nodes; `declares_of_matchingDeclaration` — what is found for a method
definition is a declaration of it.
-/

set_option autoImplicit false

namespace SymbolAtlas.SymbolGraph

/-! ## Views -/

theorem node?_eq_some_lt {g : SymbolGraph} {i : Nat} {n : GraphNode} (h : g.node? i = some n) :
    i < g.size := by
  obtain ⟨hi, _⟩ := Array.getElem?_eq_some_iff.mp h
  exact hi

theorem mem_select {g : SymbolGraph} {test : GraphNode → Bool} {i : Nat} :
    i ∈ g.select test ↔ ∃ n, g.node? i = some n ∧ test n = true := by
  rw [select, List.mem_filter, List.mem_range, Option.any_eq_true]
  constructor
  · rintro ⟨_, n, hn, ht⟩
    exact ⟨n, hn, ht⟩
  · rintro ⟨n, hn, ht⟩
    exact ⟨node?_eq_some_lt hn, n, hn, ht⟩

theorem parent_eq_some_iff {g : SymbolGraph} {i p : Nat} :
    g.parent i = some p ↔ ∃ n, g.node? i = some n ∧ n.parent = some p :=
  Option.bind_eq_some_iff

theorem place_eq_some_iff {g : SymbolGraph} {i : Nat} {l : Location} :
    g.place i = some l ↔ ∃ n, g.node? i = some n ∧ n.location = some l :=
  Option.bind_eq_some_iff

theorem linkedDeclaration_eq_some_iff {g : SymbolGraph} {i c : Nat} :
    g.linkedDeclaration i = some c ↔ ∃ n, g.node? i = some n ∧ n.declaration = some c :=
  Option.bind_eq_some_iff

/-- The children of a node are the nodes that it owns. -/
theorem mem_children {g : SymbolGraph} {c i : Nat} :
    c ∈ g.children i ↔ g.parent c = some i := by
  rw [children, List.mem_mergeSort, List.mem_reverse, mem_select, parent_eq_some_iff]
  simp

theorem select_pairwise (g : SymbolGraph) (test : GraphNode → Bool) :
    (g.select test).Pairwise (· < ·) :=
  List.Pairwise.sublist List.filter_sublist List.pairwise_lt_range

theorem nodup_children (g : SymbolGraph) (i : Nat) : (g.children i).Nodup := by
  have hselect : (g.select fun n => n.parent == some i).Nodup :=
    (g.select_pairwise _).imp Nat.ne_of_lt
  have hperm := (List.mergeSort_perm (g.select fun n => n.parent == some i).reverse
    fun a b => placeLe (g.place a) (g.place b)).trans (List.reverse_perm _)
  exact hperm.nodup_iff.mpr hselect

/-- A node that sits at a location is found there, or another one is. -/
theorem nodeAt_eq_none_iff {g : SymbolGraph} {l : Location} :
    g.nodeAt l = none ↔ ∀ i a, g.place i = some a → (a == l) = false := by
  rw [nodeAt, Array.findIdx?_eq_none_iff]
  constructor
  · intro h i a ha
    obtain ⟨n, hn, hl⟩ := place_eq_some_iff.mp ha
    have hfalse := h n (Array.mem_of_getElem? hn)
    rw [hl] at hfalse
    exact hfalse
  · intro h n hn
    obtain ⟨i, hi⟩ := Array.getElem?_of_mem hn
    cases hl : n.location with
    | none => rfl
    | some a => exact h i a (place_eq_some_iff.mpr ⟨n, hi, hl⟩)

/-- What is found at a location sits there. -/
theorem place_of_nodeAt {g : SymbolGraph} {l : Location} {i : Nat} (h : g.nodeAt l = some i) :
    ∃ a, g.place i = some a ∧ (a == l) = true := by
  obtain ⟨hi, htest, _⟩ := Array.findIdx?_eq_some_iff_getElem.mp h
  rw [Option.any_eq_true] at htest
  obtain ⟨a, ha, hal⟩ := htest
  exact ⟨a, place_eq_some_iff.mpr ⟨g.nodes[i], Array.getElem?_eq_getElem hi, ha⟩, hal⟩

theorem nodeAt_lt {g : SymbolGraph} {l : Location} {i : Nat} (h : g.nodeAt l = some i) :
    i < g.size := by
  obtain ⟨a, ha, _⟩ := place_of_nodeAt h
  obtain ⟨n, hn, _⟩ := place_eq_some_iff.mp ha
  exact node?_eq_some_lt hn

theorem nodeAt_empty (l : Location) : empty.nodeAt l = none := by
  refine nodeAt_eq_none_iff.mpr fun i a ha => ?_
  cases i with
  | zero => cases ha
  | succ i => cases ha

/-! ## Changes -/

/-- The graph with one node more. -/
def append (g : SymbolGraph) (parent : Nat) (s : Symbol) : SymbolGraph :=
  ⟨g.nodes.push { s with parent := some parent }⟩

/-- The graph with a definition linked to a declaration. -/
def link (g : SymbolGraph) (definition declaration : Nat) : SymbolGraph :=
  ⟨g.nodes.modify definition fun n => { n with declaration := some declaration }⟩

theorem size_append (g : SymbolGraph) (p : Nat) (s : Symbol) :
    (g.append p s).size = g.size + 1 := by
  simp [append, size]

theorem size_link (g : SymbolGraph) (d c : Nat) : (g.link d c).size = g.size := by
  simp [link, size]

theorem node?_append (g : SymbolGraph) (p : Nat) (s : Symbol) (i : Nat) :
    (g.append p s).node? i =
      if i = g.size then some { s with parent := some p } else g.node? i := by
  unfold append node?
  rw [Array.getElem?_push]
  rfl

theorem node?_link (g : SymbolGraph) (d c i : Nat) :
    (g.link d c).node? i =
      if d = i then (g.node? i).map fun n => { n with declaration := some c }
      else g.node? i := by
  simp [link, node?, Array.getElem?_modify]

theorem place_append (g : SymbolGraph) (p : Nat) (s : Symbol) (i : Nat) :
    (g.append p s).place i = if i = g.size then s.location else g.place i := by
  rw [place, node?_append]
  split
  · rfl
  · rfl

/-- An insertion that goes through appends a node at a free location. -/
theorem insert_eq_ok_iff {g g' : SymbolGraph} {p i : Nat} {s : Symbol} :
    g.insert p s = .ok (i, g') ↔
      (∀ l, s.location = some l → g.nodeAt l = none) ∧ i = g.size ∧ g' = g.append p s := by
  constructor
  · intro h
    have hfree : ∀ l, s.location = some l → g.nodeAt l = none := fun l hl => by
      cases ha : g.nodeAt l with
      | none => rfl
      | some j =>
        rw [insert_of_nodeAt p hl ha] at h
        cases h
    rw [insert_of_free p hfree] at h
    cases h
    exact ⟨hfree, rfl, rfl⟩
  · rintro ⟨hfree, rfl, rfl⟩
    exact insert_of_free p hfree

/-- An insertion is refused exactly where a node sits, and names that node. -/
theorem insert_eq_error_iff {g : SymbolGraph} {p : Nat} {s : Symbol} {e : DuplicateLocation} :
    g.insert p s = .error e ↔
      s.location = some e.location ∧ g.nodeAt e.location = some e.existing := by
  constructor
  · intro h
    cases hl : s.location with
    | none =>
      rw [insert_of_free p fun l h' => by rw [hl] at h'; cases h'] at h
      cases h
    | some l =>
      cases ha : g.nodeAt l with
      | none =>
        have hfree : ∀ l', s.location = some l' → g.nodeAt l' = none := fun l' h' => by
          rw [hl] at h'
          cases h'
          exact ha
        rw [insert_of_free p hfree] at h
        cases h
      | some i =>
        rw [insert_of_nodeAt p hl ha] at h
        cases h
        exact ⟨rfl, ha⟩
  · rintro ⟨hl, ha⟩
    exact insert_of_nodeAt p hl ha

/-- Asking for the declaration of a method definition changes nothing, or links what matches if
    nothing is linked yet. -/
theorem methodDeclaration_graph (g : SymbolGraph) (i : Nat) :
    (g.methodDeclaration i).2 = g ∨
      ∃ c, g.linkedDeclaration i = none ∧ g.matchingDeclaration i = some c ∧
        (g.methodDeclaration i).2 = g.link i c := by
  unfold methodDeclaration
  split
  · exact Or.inl rfl
  · rename_i hl
    split
    · rename_i c hc
      exact Or.inr ⟨c, hl, hc, rfl⟩
    · exact Or.inl rfl

/-! ## Declarations of a method -/

/-- `c` declares the method that `i` defines: both have one owner and one name. -/
def Declares (g : SymbolGraph) (c i : Nat) : Prop :=
  ∃ n m, g.node? i = some n ∧ g.node? c = some m ∧ n.category = .methodDefinition ∧
    m.category = .methodDeclaration ∧ m.parent = n.parent ∧ m.name = n.name

/-- What is found for a method definition is a declaration of it. -/
theorem declares_of_matchingDeclaration {g : SymbolGraph} {i c : Nat}
    (h : g.matchingDeclaration i = some c) : g.Declares c i := by
  unfold matchingDeclaration at h
  obtain ⟨n, hn, h⟩ := Option.bind_eq_some_iff.mp h
  split at h
  · cases h
  · rename_i hcategory
    obtain ⟨owner, howner, h⟩ := Option.bind_eq_some_iff.mp h
    have hmem : c ∈ (g.children owner).filter fun c =>
        (g.node? c).any fun m => m.category == .methodDeclaration && m.name == n.name := by
      simp only at h
      split at h
      · rename_i c' hfind
        cases h
        exact List.mem_of_find?_eq_some hfind
      · rename_i c' hsole
        cases h
        rw [hsole]
        exact List.mem_singleton_self c
      · cases h
    obtain ⟨hchild, htest⟩ := List.mem_filter.mp hmem
    obtain ⟨m, hm, hpar⟩ := parent_eq_some_iff.mp (mem_children.mp hchild)
    obtain ⟨n', hn', hpar'⟩ := parent_eq_some_iff.mp howner
    rw [hn] at hn'
    cases hn'
    rw [hm, Option.any_some, Bool.and_eq_true, beq_iff_eq, beq_iff_eq] at htest
    exact ⟨n, m, hn, hm, Decidable.not_not.mp hcategory, htest.1, hpar.trans hpar'.symm, htest.2⟩

/-- A new node is not linked. -/
theorem linkedDeclaration_append (g : SymbolGraph) (p : Nat) (s : Symbol) :
    (g.append p s).linkedDeclaration = g.linkedDeclaration := by
  funext d
  unfold SymbolGraph.linkedDeclaration
  rw [node?_append]
  split
  · rename_i hlast
    have hnone : g.node? d = none := by
      rw [hlast]
      exact Array.getElem?_eq_none (Nat.le_refl _)
    rw [hnone]
    rfl
  · rfl

/-- What matches is linked by a link. -/
theorem linkedDeclaration_link {g : SymbolGraph} {d c : Nat}
    (hm : g.matchingDeclaration d = some c) : (g.link d c).linkedDeclaration d = some c := by
  obtain ⟨n, _, hn, _⟩ := declares_of_matchingDeclaration hm
  rw [linkedDeclaration, node?_link, if_pos rfl, hn]
  rfl

theorem linkedDeclaration_link_of_ne {g : SymbolGraph} {d i : Nat} (c : Nat) (h : d ≠ i) :
    (g.link d c).linkedDeclaration i = g.linkedDeclaration i := by
  unfold linkedDeclaration
  rw [node?_link, if_neg h]

/-! ## Growth -/

/-- Every node is still there with its number, its owner and its link. -/
def Extends (g g' : SymbolGraph) : Prop :=
  ∀ i n, g.node? i = some n → ∃ n', g'.node? i = some n' ∧ n'.toSymbol = n.toSymbol ∧
    n'.parent = n.parent ∧ ∀ c, n.declaration = some c → n'.declaration = some c

theorem Extends.refl (g : SymbolGraph) : g.Extends g :=
  fun _ n hn => ⟨n, hn, rfl, rfl, fun _ hc => hc⟩

theorem Extends.trans {g h k : SymbolGraph} (hgh : g.Extends h) (hhk : h.Extends k) :
    g.Extends k := by
  intro i n hn
  obtain ⟨n', hn', hsym, hpar, hdecl⟩ := hgh i n hn
  obtain ⟨n'', hn'', hsym', hpar', hdecl'⟩ := hhk i n' hn'
  exact ⟨n'', hn'', hsym'.trans hsym, hpar'.trans hpar, fun c hc => hdecl' c (hdecl c hc)⟩

theorem extends_append (g : SymbolGraph) (p : Nat) (s : Symbol) : g.Extends (g.append p s) := by
  intro i n hn
  refine ⟨n, ?_, rfl, rfl, fun _ hc => hc⟩
  rw [node?_append, if_neg (Nat.ne_of_lt (node?_eq_some_lt hn)), hn]

/-- A link does not replace another. -/
theorem extends_link {g : SymbolGraph} {d : Nat} (c : Nat) (h : g.linkedDeclaration d = none) :
    g.Extends (g.link d c) := by
  intro i n hn
  rw [node?_link, hn]
  split
  · rename_i heq
    subst heq
    refine ⟨_, rfl, rfl, rfl, fun c' hc' => ?_⟩
    have hsome := linkedDeclaration_eq_some_iff.mpr ⟨n, hn, hc'⟩
    rw [h] at hsome
    cases hsome
  · exact ⟨n, rfl, rfl, rfl, fun _ hc => hc⟩

theorem Declares.lt {g : SymbolGraph} {c i : Nat} (h : g.Declares c i) : c < g.size := by
  obtain ⟨_, m, _, hm, _⟩ := h
  exact node?_eq_some_lt hm

theorem Declares.mono {g g' : SymbolGraph} (he : g.Extends g') {c i : Nat} (h : g.Declares c i) :
    g'.Declares c i := by
  obtain ⟨n, m, hn, hm, hnc, hmc, hpar, hname⟩ := h
  obtain ⟨n', hn', hnsym, hnpar, _⟩ := he i n hn
  obtain ⟨m', hm', hmsym, hmpar, _⟩ := he c m hm
  refine ⟨n', m', hn', hm', ?_, ?_, ?_, ?_⟩
  · rw [hnsym]; exact hnc
  · rw [hmsym]; exact hmc
  · rw [hmpar, hnpar]; exact hpar
  · rw [hmsym, hnsym]; exact hname

/-- What a graph may become while nodes are inserted below existing ones and methods are asked for
    their declarations. -/
inductive Grows (g : SymbolGraph) : SymbolGraph → Prop where
  | refl : Grows g g
  | insert {h h' : SymbolGraph} {p i : Nat} {s : Symbol} (hgh : Grows g h) (hp : p < h.size)
      (hi : h.insert p s = .ok (i, h')) : Grows g h'
  | methodDeclaration {h : SymbolGraph} (hgh : Grows g h) (i : Nat) :
      Grows g (h.methodDeclaration i).2

theorem extends_methodDeclaration (g : SymbolGraph) (i : Nat) :
    g.Extends (g.methodDeclaration i).2 := by
  rcases g.methodDeclaration_graph i with hsame | ⟨c, hl, _, hlink⟩
  · rw [hsame]
    exact Extends.refl g
  · rw [hlink]
    exact extends_link c hl

/-- A graph that grows keeps its nodes. -/
theorem Grows.extends_ {g h : SymbolGraph} (hgh : g.Grows h) : g.Extends h := by
  induction hgh with
  | refl => exact Extends.refl g
  | insert _ _ hi ih =>
    obtain ⟨_, _, rfl⟩ := insert_eq_ok_iff.mp hi
    exact ih.trans (extends_append _ _ _)
  | methodDeclaration _ i ih => exact ih.trans (extends_methodDeclaration _ i)

theorem Extends.size_le {g h : SymbolGraph} (he : g.Extends h) : g.size ≤ h.size := by
  refine Classical.byContradiction fun hn => ?_
  have hlast : h.size < g.size := Nat.lt_of_not_le hn
  obtain ⟨n, hn', _⟩ := he h.size g.nodes[h.size] (Array.getElem?_eq_getElem hlast)
  exact Nat.lt_irrefl _ (node?_eq_some_lt hn')

/-! ## The invariant -/

/-- What holds of a graph whatever was done to it. -/
structure WellFormed (g : SymbolGraph) : Prop where
  /-- The root stands first. -/
  root : g.node? 0 = some rootNode
  /-- Every other node has an owner, which stands earlier. -/
  owned : ∀ i, 0 < i → i < g.size → ∃ p, g.parent i = some p ∧ p < i
  /-- No location holds two nodes. -/
  apart : ∀ i j a b, g.place i = some a → g.place j = some b → (a == b) = true → i = j
  /-- Links lead from a definition to a declaration of the same method. -/
  linked : ∀ i c, g.linkedDeclaration i = some c → g.Declares c i

/-- An owner stands before what it owns. -/
theorem WellFormed.parent_lt {g : SymbolGraph} (h : g.WellFormed) {i p : Nat}
    (hp : g.parent i = some p) : p < i := by
  obtain ⟨n, hn, hn'⟩ := parent_eq_some_iff.mp hp
  rcases Nat.eq_zero_or_pos i with rfl | hpos
  · rw [h.root] at hn
    cases hn
    cases hn'
  · obtain ⟨q, hq, hlt⟩ := h.owned i hpos (node?_eq_some_lt hn)
    rw [hp] at hq
    cases hq
    exact hlt

theorem wellFormed_empty : WellFormed empty where
  root := rfl
  owned i hpos hi := absurd hi (Nat.not_lt.mpr hpos)
  apart i j a b ha hb _ := by
    have hnone : ∀ k l, (empty).place k ≠ some l := fun k l hk => by
      obtain ⟨n, hn, hl⟩ := place_eq_some_iff.mp hk
      have hk0 : k = 0 := Nat.lt_one_iff.mp (node?_eq_some_lt hn)
      subst hk0
      cases hn
      cases hl
    exact absurd ha (hnone i a)
  linked i c hc := by
    obtain ⟨n, hn, hd⟩ := linkedDeclaration_eq_some_iff.mp hc
    have hi0 : i = 0 := Nat.lt_one_iff.mp (node?_eq_some_lt hn)
    subst hi0
    cases hn
    cases hd

theorem WellFormed.size_pos {g : SymbolGraph} (h : g.WellFormed) : 0 < g.size :=
  node?_eq_some_lt h.root

theorem WellFormed.append {g : SymbolGraph} (h : g.WellFormed) {p : Nat} (hp : p < g.size)
    {s : Symbol} (hfree : ∀ l, s.location = some l → g.nodeAt l = none) :
    (g.append p s).WellFormed where
  root := by
    rw [node?_append, if_neg (Nat.ne_of_lt h.size_pos), h.root]
  owned i hpos hi := by
    rw [size_append] at hi
    by_cases hlast : i = g.size
    · refine ⟨p, ?_, by omega⟩
      rw [parent, node?_append, if_pos hlast]
      rfl
    · obtain ⟨q, hq, hlt⟩ := h.owned i hpos (by omega)
      refine ⟨q, ?_, hlt⟩
      rw [parent, node?_append, if_neg hlast]
      exact hq
  apart i j a b ha hb hab := by
    -- a node is old, and then its place is, or it is the new one and nothing old sits there
    have hplace : ∀ k l, (g.append p s).place k = some l →
        k = g.size ∧ s.location = some l ∨ g.place k = some l := fun k l hk => by
      rw [place_append] at hk
      split at hk
      · rename_i heq
        exact Or.inl ⟨heq, hk⟩
      · exact Or.inr hk
    rcases hplace i a ha with ⟨rfl, ha'⟩ | ha' <;> rcases hplace j b hb with ⟨rfl, hb'⟩ | hb'
    · rfl
    · have hnone := nodeAt_eq_none_iff.mp (hfree a ha') j b hb'
      rw [BEq.symm hab] at hnone
      cases hnone
    · have hnone := nodeAt_eq_none_iff.mp (hfree b hb') i a ha'
      rw [hab] at hnone
      cases hnone
    · exact h.apart i j a b ha' hb' hab
  linked i c hc := by
    obtain ⟨n, hn, hd⟩ := linkedDeclaration_eq_some_iff.mp hc
    rw [node?_append] at hn
    split at hn
    · cases hn
      cases hd
    · exact (h.linked i c (linkedDeclaration_eq_some_iff.mpr ⟨n, hn, hd⟩)).mono
        (extends_append g p s)

/-- A link changes nothing that is read off a node but its link. -/
theorem bind_node?_link {α : Type} (g : SymbolGraph) (d c i : Nat) {f : GraphNode → Option α}
    (hf : ∀ n, f { n with declaration := some c } = f n) :
    ((g.link d c).node? i).bind f = (g.node? i).bind f := by
  rw [node?_link]
  split
  · cases g.node? i with
    | none => rfl
    | some n => exact hf n
  · rfl

theorem parent_link (g : SymbolGraph) (d c i : Nat) : (g.link d c).parent i = g.parent i :=
  bind_node?_link g d c i fun _ => rfl

theorem place_link (g : SymbolGraph) (d c i : Nat) : (g.link d c).place i = g.place i :=
  bind_node?_link g d c i fun _ => rfl

theorem WellFormed.link {g : SymbolGraph} (h : g.WellFormed) {d c : Nat}
    (hd : g.linkedDeclaration d = none) (hc : g.Declares c d) : (g.link d c).WellFormed where
  root := by
    obtain ⟨n, _, hn, _, hcategory, _⟩ := hc
    have hne : d ≠ 0 := by
      rintro rfl
      rw [h.root] at hn
      cases hn
      cases hcategory
    rw [node?_link, if_neg hne, h.root]
  owned i hpos hi := by
    rw [size_link] at hi
    rw [parent_link]
    exact h.owned i hpos hi
  apart i j a b ha hb hab := by
    rw [place_link] at ha hb
    exact h.apart i j a b ha hb hab
  linked i c' hc' := by
    obtain ⟨n, hn, hdecl⟩ := linkedDeclaration_eq_some_iff.mp hc'
    rw [node?_link] at hn
    split at hn
    · rename_i heq
      subst heq
      obtain ⟨n₀, hn₀, rfl⟩ := Option.map_eq_some_iff.mp hn
      cases hdecl
      exact hc.mono (extends_link c hd)
    · exact (h.linked i c' (linkedDeclaration_eq_some_iff.mpr ⟨n, hn, hdecl⟩)).mono
        (extends_link c hd)

theorem WellFormed.methodDeclaration {g : SymbolGraph} (h : g.WellFormed) (i : Nat) :
    (g.methodDeclaration i).2.WellFormed := by
  rcases g.methodDeclaration_graph i with hsame | ⟨c, hl, hc, hlink⟩
  · rw [hsame]
    exact h
  · rw [hlink]
    exact h.link hl (declares_of_matchingDeclaration hc)

/-- What is told for a method definition is a declaration of it. -/
theorem WellFormed.declares_of_methodDeclaration {g : SymbolGraph} (h : g.WellFormed) {i c : Nat}
    (hc : (g.methodDeclaration i).1 = some c) : g.Declares c i := by
  unfold SymbolGraph.methodDeclaration at hc
  split at hc
  · rename_i c' hl
    cases hc
    exact h.linked i c hl
  · split at hc
    · rename_i c' hm
      cases hc
      exact declares_of_matchingDeclaration hm
    · cases hc

/-- Growing keeps a graph well-formed. -/
theorem WellFormed.grows {g h : SymbolGraph} (hg : g.WellFormed) (hgh : g.Grows h) :
    h.WellFormed := by
  induction hgh with
  | refl => exact hg
  | insert _ hp hi ih =>
    obtain ⟨hfree, _, rfl⟩ := insert_eq_ok_iff.mp hi
    exact ih.append hp hfree
  | methodDeclaration _ i ih => exact ih.methodDeclaration i

end SymbolAtlas.SymbolGraph
