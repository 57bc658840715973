import Mathlib.Data.List.Basic
import SymbolAtlas.GraphStore
import SymbolAtlas.Proofs.MethodLinks

/-!
# The stores of a graph and the list of its nodes

The stores of a graph are changed one by one, and its nodes, as a list, are changed at one end.
`Represents` says what the one has to do with the other: the symbols and the edges are those of the
list, and the indices hold what a search of the list finds.

* `SymbolGraph.ownerEdges` — the edges that go with the owners in a list of nodes.
* `GraphStore.added` — the stores after an insertion that goes through.

Principal results: `insert_of_taken`, `insert_of_free` — what an insertion does to the stores;
`Represents.insert`, `Represents.methodDeclaration` — every operation keeps the stores and the list
together and answers from both alike.
-/

set_option autoImplicit false

namespace SymbolAtlas

/-! ## Edges of a list of nodes -/

namespace SymbolGraph

variable (g : SymbolGraph)

/-- The locations of the nodes with their numbers. -/
def locations : List (Location × Nat) :=
  (List.range g.size).filterMap fun i => (g.place i).map fun l => (l, i)

/-- The edge to a node from its owner. -/
def ownerEdge? (i : Nat) : Option Edge := (g.parent i).map fun p => ⟨.contains, p, i⟩

/-- The edges to the first nodes from their owners, the latest first. -/
def ownerEdgesTo : Nat → List Edge
  | 0 => []
  | n + 1 => (g.ownerEdge? n).toList ++ ownerEdgesTo n

/-- The edges from the owners, the latest first. -/
def ownerEdges : List Edge := g.ownerEdgesTo g.size

theorem parent_append (p : Nat) (s : Symbol) (i : Nat) :
    (g.append p s).parent i = if i = g.size then some p else g.parent i := by
  rw [parent, node?_append]
  split
  · rfl
  · rfl

/-- What is found at a location after an insertion. -/
theorem nodeAt_append (p : Nat) (s : Symbol) (l : Location) :
    (g.append p s).nodeAt l =
      (g.nodeAt l).or (if s.location.any (· == l) then some g.size else none) := by
  unfold append nodeAt
  rw [Array.findIdx?_push]
  rfl

/-- What is found under a name after an insertion. -/
theorem named_append (p : Nat) (s : Symbol) (name : String) :
    (g.append p s).named name =
      g.named name ++ if s.name = name ∧ name ≠ "" then [g.size] else [] := by
  unfold named
  by_cases hname : name = ""
  · rw [if_pos hname, if_pos hname, if_neg fun h => h.2 hname, List.append_nil]
  · rw [if_neg hname, if_neg hname, select, select,
      size_append, List.range_succ, List.filter_append]
    congr 1
    · refine List.filter_congr fun i hi => ?_
      rw [node?_append, if_neg (Nat.ne_of_lt (List.mem_range.mp hi))]
    · rw [List.filter_cons, node?_append, if_pos rfl]
      simp [hname]

/-- A link changes no symbol. -/
theorem symbols_link (d c : Nat) :
    (g.link d c).nodes.map (·.toSymbol) = g.nodes.map (·.toSymbol) := by
  refine Array.ext_getElem? fun i => ?_
  rw [Array.getElem?_map, Array.getElem?_map]
  show ((g.link d c).node? i).map _ = (g.node? i).map _
  rw [node?_link]
  split
  · rw [Option.map_map]
    rfl
  · rfl

theorem nodeAt_link (d c : Nat) (l : Location) : (g.link d c).nodeAt l = g.nodeAt l := by
  have hsymbols : ∀ g : SymbolGraph, g.nodeAt l =
      (g.nodes.map (·.toSymbol)).findIdx? fun s => s.location.any (· == l) := fun g => by
    rw [Array.findIdx?_map]
    rfl
  rw [hsymbols, symbols_link, ← hsymbols]

theorem named_link (d c : Nat) (name : String) : (g.link d c).named name = g.named name := by
  have hselect : ((g.link d c).select fun n => n.name == name) =
      g.select fun n => n.name == name := by
    rw [select, select, size_link]
    refine List.filter_congr fun i _ => ?_
    rw [node?_link]
    split
    · rw [Option.any_map]
    · rfl
  rw [named, named, hselect]

theorem place_of_mem_locations {e : Location × Nat} (he : e ∈ g.locations) :
    g.place e.2 = some e.1 := by
  obtain ⟨i, -, hi⟩ := List.mem_filterMap.mp he
  obtain ⟨l, hl, rfl⟩ := Option.map_eq_some_iff.mp hi
  exact hl

theorem locations_append (p : Nat) (s : Symbol) :
    (g.append p s).locations =
      g.locations ++ (s.location.map fun l => (l, g.size)).toList := by
  rw [locations, size_append, List.range_succ, List.filterMap_append]
  congr 1
  · refine List.filterMap_congr fun i hi => ?_
    rw [place_append, if_neg (Nat.ne_of_lt (List.mem_range.mp hi))]
  · rw [List.filterMap_cons, place_append, if_pos rfl]
    cases s.location with
    | none => rfl
    | some l => rfl

theorem locations_link (d c : Nat) : (g.link d c).locations = g.locations := by
  rw [locations, size_link]
  exact List.filterMap_congr fun i _ => by rw [place_link]

theorem ownerEdgesTo_congr {g h : SymbolGraph} {n : Nat} (hp : ∀ i < n, h.parent i = g.parent i) :
    h.ownerEdgesTo n = g.ownerEdgesTo n := by
  induction n with
  | zero => rfl
  | succ n ih =>
    rw [ownerEdgesTo, ownerEdgesTo, ih fun i hi => hp i (Nat.lt_succ_of_lt hi), ownerEdge?,
      ownerEdge?, hp n (Nat.lt_succ_self n)]

theorem ownerEdges_append (p : Nat) (s : Symbol) :
    (g.append p s).ownerEdges = ⟨.contains, p, g.size⟩ :: g.ownerEdges := by
  have hold : (g.append p s).ownerEdgesTo g.size = g.ownerEdges :=
    ownerEdgesTo_congr fun i hi => by rw [parent_append, if_neg (Nat.ne_of_lt hi)]
  rw [ownerEdges, size_append, ownerEdgesTo, hold, ownerEdge?, parent_append, if_pos rfl]
  rfl

theorem ownerEdges_link (d c : Nat) : (g.link d c).ownerEdges = g.ownerEdges := by
  rw [ownerEdges, size_link]
  exact ownerEdgesTo_congr fun i _ => g.parent_link d c i

theorem kind_of_ownerEdge? {i : Nat} {e : Edge} (h : g.ownerEdge? i = some e) :
    e.kind = .contains ∧ e.target = i ∧ g.parent i = some e.source := by
  obtain ⟨p, hp, rfl⟩ := Option.map_eq_some_iff.mp h
  exact ⟨rfl, rfl, hp⟩

/-- The edges that leave a node lead to the nodes that it owns. -/
theorem map_target_ownerEdges (i : Nat) :
    (g.ownerEdges.filter fun e => e.source == i).map (·.target) =
      (g.select fun n => n.parent == some i).reverse := by
  have hto : ∀ n, ((g.ownerEdgesTo n).filter fun e => e.source == i).map (·.target) =
      ((List.range n).filter fun k => (g.node? k).any fun n => n.parent == some i).reverse := by
    intro n
    induction n with
    | zero => rfl
    | succ n ih =>
      have hone : ((g.ownerEdge? n).toList.filter fun e => e.source == i).map (·.target) =
          if (g.node? n).any fun n => n.parent == some i then [n] else [] := by
        unfold ownerEdge? parent
        cases g.node? n with
        | none => rfl
        | some m =>
          cases hp : m.parent with
          | none => simp [hp]
          | some p =>
            by_cases hpi : p = i
            · simp [hp, hpi]
            · simp [hp, hpi]
      rw [ownerEdgesTo, List.filter_append, List.map_append, ih, hone, List.range_succ,
        List.filter_append, List.reverse_append, List.filter_cons]
      split
      · rfl
      · rfl
  exact hto g.size

/-- One edge arrives at a node that has an owner, and none at any other. -/
theorem filter_target_ownerEdges (i : Nat) :
    (g.ownerEdges.filter fun e => e.target == i) = (g.ownerEdge? i).toList := by
  have hto : ∀ n, ((g.ownerEdgesTo n).filter fun e => e.target == i) =
      if i < n then (g.ownerEdge? i).toList else [] := by
    intro n
    induction n with
    | zero => rfl
    | succ n ih =>
      have hone : ((g.ownerEdge? n).toList.filter fun e => e.target == i) =
          if n = i then (g.ownerEdge? n).toList else [] := by
        cases he : g.ownerEdge? n with
        | none => simp
        | some e =>
          rw [← (g.kind_of_ownerEdge? he).2.1]
          simp [List.filter_cons]
      rw [ownerEdgesTo, List.filter_append, hone, ih]
      by_cases hni : n = i
      · subst hni
        simp
      · rw [if_neg hni, List.nil_append]
        have hiff : i < n ↔ i < n + 1 := by omega
        simp only [hiff]
  have hnone : g.size ≤ i → g.ownerEdge? i = none := fun hle => by
    rw [ownerEdge?, parent, show g.node? i = none from Array.getElem?_eq_none hle]
    rfl
  rw [ownerEdges, hto]
  split
  · rfl
  · rename_i hle
    rw [hnone (Nat.le_of_not_lt hle)]
    rfl

theorem mem_ownerEdges {e : Edge} :
    e ∈ g.ownerEdges ↔ e.kind = .contains ∧ g.parent e.target = some e.source := by
  constructor
  · intro h
    have hmem : e ∈ g.ownerEdges.filter fun f => f.target == e.target :=
      List.mem_filter.mpr ⟨h, beq_self_eq_true _⟩
    rw [filter_target_ownerEdges, Option.mem_toList] at hmem
    exact ⟨(g.kind_of_ownerEdge? hmem).1, (g.kind_of_ownerEdge? hmem).2.2⟩
  · rintro ⟨hkind, hp⟩
    have hmem : e ∈ g.ownerEdges.filter fun f => f.target == e.target := by
      rw [filter_target_ownerEdges, Option.mem_toList, ownerEdge?, hp, ← hkind]
      rfl
    exact (List.mem_filter.mp hmem).1

end SymbolGraph

namespace GraphStore

/-! ## Stores that hold a list of nodes -/

/-- The stores hold the nodes of a list. -/
structure Represents (st : GraphStore) (g : SymbolGraph) : Prop where
  /-- The symbols are those of the nodes. -/
  weights : st.weights = g.nodes.map (·.toSymbol)
  /-- The edges of owners lead from the owners of the nodes. -/
  owners : (st.edges.filter fun e => e.kind == .contains) = g.ownerEdges
  /-- The edges of links lead from each definition to its declaration. -/
  links : ∀ i, (st.outgoing .declaration i).map (·.target) = (g.linkedDeclaration i).toList
  /-- The index of locations holds what is found at each. -/
  located : ∀ l, st.nodeAt l = g.nodeAt l
  /-- Its entries stand in the order of the nodes. -/
  entered : st.byLocation.entries = g.locations
  /-- The index of names holds what is found under each. -/
  named : ∀ name, st.named name = g.named name

namespace Represents

variable {st : GraphStore} {g : SymbolGraph}

theorem size (h : st.Represents g) : st.size = g.size := by
  rw [GraphStore.size, h.weights, Array.size_map]
  rfl

theorem symbol? (h : st.Represents g) (i : Nat) :
    st.symbol? i = (g.node? i).map (·.toSymbol) := by
  rw [GraphStore.symbol?, h.weights, Array.getElem?_map]
  rfl

theorem place (h : st.Represents g) : st.place = g.place := by
  funext i
  rw [GraphStore.place, h.symbol?, Option.bind_map]
  rfl

theorem outgoing (h : st.Represents g) (i : Nat) :
    st.outgoing .contains i = g.ownerEdges.filter fun e => e.source == i := by
  rw [← h.owners, List.filter_filter]
  exact List.filter_congr fun e _ => Bool.and_comm _ _

theorem incoming (h : st.Represents g) (i : Nat) :
    st.incoming .contains i = (g.ownerEdge? i).toList := by
  rw [← g.filter_target_ownerEdges, ← h.owners, List.filter_filter]
  exact List.filter_congr fun e _ => Bool.and_comm _ _

theorem children (h : st.Represents g) (i : Nat) : st.children i = g.children i := by
  rw [GraphStore.children, h.outgoing, g.map_target_ownerEdges, h.place]
  rfl

theorem parent (h : st.Represents g) (i : Nat) : st.parent i = g.parent i := by
  rw [GraphStore.parent, h.incoming, SymbolGraph.ownerEdge?]
  cases g.parent i with
  | none => rfl
  | some p => rfl

theorem linkedDeclaration (h : st.Represents g) (i : Nat) :
    st.linkedDeclaration i = g.linkedDeclaration i := by
  rw [GraphStore.linkedDeclaration, ← List.head?_map, h.links]
  cases g.linkedDeclaration i with
  | none => rfl
  | some c => rfl

/-- A test of a symbol has one answer. -/
theorem any_symbol? (h : st.Represents g) (i : Nat) (test : Symbol → Bool) :
    (st.symbol? i).any test = (g.node? i).any fun n => test n.toSymbol := by
  rw [h.symbol?, Option.any_map]

theorem outline (h : st.Represents g) (file : Path) : st.outline file = g.outline file := by
  have hselect : ((g.locations.filter fun e =>
      e.1.path == file && !(st.symbol? e.2).any (·.category.isReference)).map (·.2)) =
      g.select fun n => n.location.any (·.path == file) && !n.category.isReference := by
    rw [SymbolGraph.locations, List.filter_filterMap, List.map_filterMap, SymbolGraph.select,
      ← List.filterMap_eq_filter]
    refine List.filterMap_congr fun i _ => ?_
    unfold SymbolGraph.place
    cases hn : g.node? i with
    | none => simp [Option.guard, hn]
    | some n =>
      cases hl : n.location with
      | none => simp [Option.guard, hn, hl]
      | some l => simp [Option.guard, Option.filter, h.any_symbol?, hn, hl]
  unfold GraphStore.outline SymbolGraph.outline
  rw [h.entered, List.map_mergeSort, hselect]
  intro a ha b hb
  rw [g.place_of_mem_locations (List.mem_filter.mp ha).1,
    g.place_of_mem_locations (List.mem_filter.mp hb).1]
  rfl

theorem matchingDeclaration (h : st.Represents g) (i : Nat) :
    st.matchingDeclaration i = g.matchingDeclaration i := by
  unfold GraphStore.matchingDeclaration SymbolGraph.matchingDeclaration
  rw [h.symbol?]
  cases g.node? i with
  | none => rfl
  | some d =>
    simp only [Option.map_some, Option.bind_eq_bind, Option.bind_some, h.parent, h.children,
      h.any_symbol?]
    all_goals rfl

end Represents

/-! ## Insertions -/

section Insert

variable {st : GraphStore} {s : Symbol}

/-- The stores after a symbol was added as a child of a node. -/
def added (st : GraphStore) (parent : Nat) (s : Symbol) : GraphStore where
  weights := st.weights.push s
  edges := ⟨.contains, parent, st.size⟩ :: st.edges
  byLocation := s.location.elim st.byLocation fun l => st.byLocation.set l st.size
  byName := if s.name = "" then st.byName else st.byName.set s.name (st.named s.name ++ [st.size])

/-- An insertion at a taken location names the node there and changes no store. -/
theorem insert_of_taken {l : Location} {i : Nat} (parent : Nat) (hl : s.location = some l)
    (h : st.nodeAt l = some i) : (insert parent s).run st = (.error ⟨l, i⟩, st) := by
  unfold insert
  simp [hl, h]
  rfl

/-- An insertion at a free location changes all stores. -/
theorem insert_of_free (parent : Nat) (h : ∀ l, s.location = some l → st.nodeAt l = none) :
    (insert parent s).run st = (.ok st.size, st.added parent s) := by
  unfold insert added
  cases hl : s.location with
  | none =>
    by_cases hname : s.name = ""
    · simp [hname]
      rfl
    · simp [hname]
      rfl
  | some l =>
    by_cases hname : s.name = ""
    · simp [hname, h l hl]
      rfl
    · simp [hname, h l hl]
      rfl

/-- An insertion is refused exactly at a taken location, and it names the node there. -/
theorem insert_eq_error_iff {p : Nat} {e : DuplicateLocation} :
    ((insert p s).run st).1 = .error e ↔
      s.location = some e.location ∧ st.nodeAt e.location = some e.existing := by
  constructor
  · intro h
    cases hl : s.location with
    | none =>
      rw [insert_of_free p fun l h' => by rw [hl] at h'; cases h'] at h
      cases h
    | some l =>
      cases hi : st.nodeAt l with
      | none =>
        rw [insert_of_free p fun l' h' => by rw [hl] at h'; cases h'; exact hi] at h
        cases h
      | some i =>
        rw [insert_of_taken p hl hi] at h
        cases h
        exact ⟨rfl, hi⟩
  · rintro ⟨hl, hi⟩
    rw [insert_of_taken p hl hi]

/-- An insertion that is refused changes no store. -/
theorem insert_refused {p : Nat} {e : DuplicateLocation}
    (h : ((insert p s).run st).1 = .error e) : ((insert p s).run st).2 = st := by
  obtain ⟨hl, hi⟩ := insert_eq_error_iff.mp h
  rw [insert_of_taken p hl hi]

end Insert

/-! ## Links -/

/-- The stores with a definition linked to a declaration. -/
def linked (st : GraphStore) (d c : Nat) : GraphStore :=
  { st with edges := ⟨.declaration, d, c⟩ :: st.edges }

/-- A question for a declaration adds an edge where one is found and none was there. -/
theorem methodDeclaration_eq (st : GraphStore) (i : Nat) :
    (methodDeclaration i).run st =
      match st.linkedDeclaration i, st.matchingDeclaration i with
      | some c, _ => (some c, st)
      | none, some c => (some c, st.linked i c)
      | none, none => (none, st) := by
  unfold methodDeclaration
  cases hl : st.linkedDeclaration i with
  | some c =>
    simp [hl]
    rfl
  | none =>
    cases hm : st.matchingDeclaration i with
    | some c =>
      simp [hl, hm]
      rfl
    | none =>
      simp [hl, hm]
      rfl

/-! ## Agreement -/

/-- A graph that only has its root: nothing is found in it. -/
theorem represents_empty : empty.Represents .empty where
  weights := by simp [empty, SymbolGraph.empty]
  owners := rfl
  links i := by
    cases hl : SymbolGraph.empty.linkedDeclaration i with
    | none => rfl
    | some c =>
      obtain ⟨_, m, _, hm, _, hcategory, _⟩ := SymbolGraph.wellFormed_empty.linked i c hl
      obtain rfl : c = 0 := Nat.lt_one_iff.mp (SymbolGraph.node?_eq_some_lt hm)
      cases hm
      cases hcategory
  located l := (SymbolGraph.nodeAt_empty l).symm
  entered := rfl
  named name := by
    refine (List.eq_nil_iff_forall_not_mem.mpr fun i hi => ?_).symm
    unfold SymbolGraph.named at hi
    split at hi
    · cases hi
    · rename_i hname
      obtain ⟨n, hn, htest⟩ := SymbolGraph.mem_select.mp hi
      obtain rfl : i = 0 := Nat.lt_one_iff.mp (SymbolGraph.node?_eq_some_lt hn)
      cases hn
      exact hname (beq_iff_eq.mp htest).symm

namespace Represents

variable {st : GraphStore} {g : SymbolGraph} {s : Symbol}

/-- Adding a symbol to the stores is appending a node to the list. -/
theorem added (h : st.Represents g) (p : Nat)
    (hfree : ∀ l, s.location = some l → g.nodeAt l = none) :
    (st.added p s).Represents (g.append p s) where
  weights := by
    rw [GraphStore.added, h.weights, SymbolGraph.append, Array.map_push]
  owners := by
    rw [g.ownerEdges_append, ← h.owners, ← h.size]
    rfl
  links i := by
    rw [g.linkedDeclaration_append, ← h.links]
    rfl
  located l := by
    rw [g.nodeAt_append]
    unfold GraphStore.added GraphStore.nodeAt
    cases hs : s.location with
    | none =>
      rw [Option.any_none, if_neg Bool.false_ne_true, Option.or_none]
      exact h.located l
    | some a =>
      rw [Option.elim_some, Table.get?_set, Option.any_some, h.size]
      by_cases hal : (a == l) = true
      · -- The location was free, and equal locations are free together.
        have hnone : g.nodeAt l = none := by
          rw [SymbolGraph.nodeAt_eq_none_iff]
          intro i b hb
          rw [← BEq.congr_right hal]
          exact SymbolGraph.nodeAt_eq_none_iff.mp (hfree a hs) i b hb
        rw [if_pos hal, if_pos hal, hnone]
        rfl
      · rw [if_neg hal, if_neg hal, Option.or_none]
        exact h.located l
  entered := by
    rw [g.locations_append, ← h.entered, ← h.size]
    unfold GraphStore.added
    cases hs : s.location with
    | none => exact (List.append_nil _).symm
    | some a => exact Table.entries_set _ _ ((h.located a).trans (hfree a hs))
  named name := by
    unfold GraphStore.added GraphStore.named
    rw [g.named_append, ← h.named, ← h.size]
    by_cases hs : s.name = ""
    · rw [if_pos hs, if_neg fun hboth => hboth.2 (hboth.1.symm.trans hs), List.append_nil]
      rfl
    · rw [if_neg hs, Table.get?_set]
      by_cases hname : s.name = name
      · subst hname
        rw [if_pos (beq_self_eq_true _), if_pos ⟨rfl, hs⟩]
        rfl
      · rw [if_neg fun heq => hname (beq_iff_eq.mp heq), if_neg fun hboth => hname hboth.1,
          List.append_nil]
        rfl

/-- Adding an edge to the stores is linking a node of the list. -/
theorem linked (h : st.Represents g) {d c : Nat} (hnone : g.linkedDeclaration d = none)
    (hm : g.matchingDeclaration d = some c) : (st.linked d c).Represents (g.link d c) where
  weights := by
    rw [g.symbols_link, ← h.weights]
    rfl
  owners := by
    rw [g.ownerEdges_link, ← h.owners]
    rfl
  links i := by
    by_cases hdi : d = i
    · subst hdi
      have hnone' : (st.outgoing .declaration d).map (·.target) = [] := by
        rw [h.links, hnone]
        rfl
      rw [SymbolGraph.linkedDeclaration_link hm]
      unfold GraphStore.outgoing at hnone' ⊢
      simp [GraphStore.linked, hnone']
    · rw [SymbolGraph.linkedDeclaration_link_of_ne c hdi, ← h.links]
      simp [GraphStore.linked, GraphStore.outgoing, hdi]
  located l := by
    rw [g.nodeAt_link, ← h.located]
    rfl
  entered := by
    rw [g.locations_link, ← h.entered]
    rfl
  named name := by
    rw [g.named_link, ← h.named]
    rfl

/-- An insertion is answered alike and leads to stores that hold the list again. -/
theorem insert (h : st.Represents g) (p : Nat) (s : Symbol) :
    (GraphAccess.insert st p s).1 = (GraphAccess.insert g p s).1 ∧
      (GraphAccess.insert st p s).2.Represents (GraphAccess.insert g p s).2 := by
  cases hi : g.insert p s with
  | error e =>
    obtain ⟨hl, htaken⟩ := SymbolGraph.insert_eq_error_iff.mp hi
    have hstore := insert_of_taken p hl ((h.located _).trans htaken)
    rw [SymbolGraph.access_insert_of_error hi]
    exact ⟨congrArg Prod.fst hstore, by
      show ((GraphStore.insert p s).run st).2.Represents g
      rw [hstore]
      exact h⟩
  | ok r =>
    obtain ⟨hfree, hnumber, happend⟩ := SymbolGraph.insert_eq_ok_iff.mp hi
    have hstore : (GraphStore.insert p s).run st = _ :=
      insert_of_free p fun l hl => (h.located l).trans (hfree l hl)
    rw [SymbolGraph.access_insert_of_ok hi]
    refine ⟨(congrArg Prod.fst hstore).trans ?_, ?_⟩
    · show Except.ok st.size = Except.ok r.1
      rw [h.size, hnumber]
    · show ((GraphStore.insert p s).run st).2.Represents r.2
      rw [hstore, happend]
      exact h.added p hfree

/-- A question for the declaration of a method is answered alike. -/
theorem methodDeclaration (h : st.Represents g) (i : Nat) :
    (GraphAccess.methodDeclaration st i).1 = (GraphAccess.methodDeclaration g i).1 ∧
      (GraphAccess.methodDeclaration st i).2.Represents (GraphAccess.methodDeclaration g i).2 := by
  have hstore : GraphAccess.methodDeclaration st i = _ := GraphStore.methodDeclaration_eq st i
  have hlist : GraphAccess.methodDeclaration g i = g.methodDeclaration i := rfl
  rw [hstore, hlist, h.linkedDeclaration, h.matchingDeclaration, SymbolGraph.methodDeclaration]
  cases hl : g.linkedDeclaration i with
  | some c => exact ⟨rfl, h⟩
  | none =>
    cases hm : g.matchingDeclaration i with
    | none => exact ⟨rfl, h⟩
    | some c => exact ⟨rfl, h.linked hl hm⟩

end Represents

end GraphStore

end SymbolAtlas
