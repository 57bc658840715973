import SymbolAtlas.Proofs.GraphRuns
import SymbolAtlas.Proofs.GraphStores
import SymbolAtlas.Proofs.StoredPasses

/-!
# Runs on the stores of a graph

The stores of a graph go through the same runs as the list of its nodes: insertions below a node
that exists, questions for the declaration of a method, units, and new starts.  Each of these
changes several stores one by one, and a unit does so at every node of its tree.

Whatever the run, the stores hold some list of nodes that comes of a run of its own.  What is known
of the list is thereby known of the stores: `Consistent` says, of the edges and the indices as they
are kept, that they agree.

Principal results: `simulation` — no access tells the stores from the list; `Reached.represents` —
the stores hold a list after every run; `reached_consistent` — so symbols, edges and both indices
agree after every run, and an insertion that is refused changes none of them.
-/

set_option autoImplicit false

namespace SymbolAtlas.GraphStore

/-- No access tells the stores from the list of nodes that they hold. -/
theorem simulation : GraphAccess.Simulation Represents where
  size h := h.size
  nodeAt h := funext h.located
  symbol? h := funext h.symbol?
  insert h := h.insert
  methodDeclaration h := h.methodDeclaration

/-! ## Operations -/

/-- A node is inserted below an existing one. -/
def Allowed (st : GraphStore) : SymbolGraph.Operation → Prop
  | .insert parent _ => parent < st.size
  | _ => True

/-- The stores after an operation.  A unit that is no tree leaves them as they were. -/
def apply (st : GraphStore) : SymbolGraph.Operation → GraphStore
  | .insert parent s => ((insert parent s).run st).2
  | .clear => (clear.run st).2
  | .methodDeclaration i => ((methodDeclaration i).run st).2
  | .index lu =>
    match indexUnitInto lu st with
    | .ok (_, st') => st'
    | .error _ => st

/-- Stores that come of a finite run of operations on those of the empty graph. -/
inductive Reached : GraphStore → Prop where
  | empty : Reached .empty
  | step {st : GraphStore} (op : SymbolGraph.Operation) (hst : Reached st) (ha : st.Allowed op) :
      Reached (st.apply op)

/-- An operation on the stores is the operation on the list that they hold. -/
theorem Represents.apply {st : GraphStore} {g : SymbolGraph} (h : st.Represents g)
    (op : SymbolGraph.Operation) : (st.apply op).Represents (op.apply g) := by
  cases op with
  | insert parent s =>
    have hlist : (GraphAccess.insert g parent s).2 =
        (SymbolGraph.Operation.insert parent s).apply g := by
      unfold SymbolGraph.Operation.apply
      cases hi : g.insert parent s with
      | ok r => simp only [SymbolGraph.access_insert_of_ok hi, hi]
      | error e => simp only [SymbolGraph.access_insert_of_error hi, hi]
    rw [← hlist]
    exact (h.insert parent s).2
  | clear => exact represents_empty
  | methodDeclaration i => exact (h.methodDeclaration i).2
  | index lu =>
    rcases indexUnitInto_alike lu simulation h with ⟨e, he, he'⟩ | ⟨report, st', g', hs, hg, hrel⟩
    · unfold GraphStore.apply SymbolGraph.Operation.apply indexUnit
      simp only [he, he']
      exact h
    · unfold GraphStore.apply SymbolGraph.Operation.apply indexUnit
      simp only [hs, hg]
      exact hrel

/-- After every run the stores hold a list of nodes that comes of a run. -/
theorem Reached.represents {st : GraphStore} (h : Reached st) :
    ∃ g, SymbolGraph.Reached g ∧ st.Represents g := by
  induction h with
  | empty => exact ⟨.empty, .empty, represents_empty⟩
  | step op _ ha ih =>
    obtain ⟨g, hg, hrep⟩ := ih
    refine ⟨op.apply g, hg.step op ?_, hrep.apply op⟩
    cases op with
    | insert parent s =>
      show parent < g.size
      rw [← hrep.size]
      exact ha
    | clear => trivial
    | methodDeclaration i => trivial
    | index lu => trivial

/-! ## Agreement -/

/-- Symbols, edges and indices agree. -/
structure Consistent (st : GraphStore) : Prop where
  /-- Nodes are numbered 0, 1, 2, … -/
  numbered : ∀ i, (st.symbol? i).isSome = true ↔ i < st.size
  /-- Node 0 is the root, which nothing owns. -/
  root : st.symbol? SymbolGraph.root = some SymbolGraph.rootNode.toSymbol ∧
    st.incoming .contains SymbolGraph.root = []
  /-- Edges stand between nodes. -/
  ends : ∀ e ∈ st.edges, e.source < st.size ∧ e.target < st.size
  /-- One edge of an owner arrives at every other node, and it comes from an earlier one. -/
  owner : ∀ i, 0 < i → i < st.size → ∃ p < i, st.incoming .contains i = [⟨.contains, p, i⟩]
  /-- Against these edges every node leads to the root. -/
  chain : ∀ i, 0 < i → i < st.size →
    Relation.TransGen (fun p c => ⟨.contains, p, c⟩ ∈ st.edges) SymbolGraph.root i
  /-- The index of locations has a node exactly where it sits. -/
  located : ∀ l i, st.nodeAt l = some i ↔ (st.place i == some l) = true
  /-- No two nodes sit at one location. -/
  apart : ∀ l i j, (st.place i == some l) = true → (st.place j == some l) = true → i = j
  /-- The index of names has the nodes of each name, ascending. -/
  found : ∀ name, name ≠ "" → (st.named name).Pairwise (· < ·) ∧
    ∀ i, i ∈ st.named name ↔ ∃ s, st.symbol? i = some s ∧ s.name = name
  /-- The children of a node are those that it owns, once each, by location. -/
  members : ∀ i, (st.children i).Nodup ∧ (∀ c, c ∈ st.children i ↔ st.parent c = some i) ∧
    (st.children i).Pairwise fun a b => SymbolGraph.placeLe (st.place a) (st.place b) = true
  /-- At most one edge of a link leaves a node. -/
  single : ∀ i, (st.outgoing .declaration i).length ≤ 1
  /-- It leads from a method definition to a declaration with its owner and its name. -/
  links : ∀ e ∈ st.edges, e.kind = .declaration → ∃ d m, st.symbol? e.source = some d ∧
    st.symbol? e.target = some m ∧ d.category = .methodDefinition ∧
    m.category = .methodDeclaration ∧ st.parent e.target = st.parent e.source ∧ m.name = d.name

namespace Represents

variable {st : GraphStore} {g : SymbolGraph}

/-- The edges of owners are the owners of the list. -/
theorem contains_mem_edges (h : st.Represents g) {p i : Nat} :
    ⟨.contains, p, i⟩ ∈ st.edges ↔ g.parent i = some p := by
  have hfilter : (⟨.contains, p, i⟩ : Edge) ∈ st.edges ↔ ⟨.contains, p, i⟩ ∈ g.ownerEdges := by
    rw [← h.owners]
    simp
  rw [hfilter, SymbolGraph.mem_ownerEdges]
  simp

/-- The edges of links are the links of the list. -/
theorem declaration_mem_edges (h : st.Represents g) {d c : Nat} :
    ⟨.declaration, d, c⟩ ∈ st.edges ↔ g.linkedDeclaration d = some c := by
  have houtgoing : c ∈ (st.outgoing .declaration d).map (·.target) ↔
      (⟨.declaration, d, c⟩ : Edge) ∈ st.edges := by
    unfold GraphStore.outgoing
    simp only [List.mem_map, List.mem_filter, Bool.and_eq_true, beq_iff_eq]
    constructor
    · rintro ⟨⟨kind, source, target⟩, ⟨he, rfl, rfl⟩, rfl⟩
      exact he
    · exact fun he => ⟨_, ⟨he, rfl, rfl⟩, rfl⟩
  rw [← houtgoing, h.links, Option.mem_toList]

theorem symbol?_eq_some_iff (h : st.Represents g) {i : Nat} {s : Symbol} :
    st.symbol? i = some s ↔ ∃ n, g.node? i = some n ∧ n.toSymbol = s := by
  rw [h.symbol?, Option.map_eq_some_iff]

/-- Stores that hold a well-formed list of nodes agree. -/
theorem consistent (h : st.Represents g) (hwf : g.WellFormed) : st.Consistent where
  numbered i := by
    unfold GraphStore.symbol? GraphStore.size
    simp
  root := by
    refine ⟨by rw [h.symbol?, show g.node? SymbolGraph.root = _ from hwf.root]; rfl, ?_⟩
    rw [h.incoming, SymbolGraph.ownerEdge?, SymbolGraph.parent,
      show g.node? SymbolGraph.root = _ from hwf.root]
    rfl
  ends e he := by
    obtain ⟨kind, a, b⟩ := e
    rw [h.size]
    cases kind with
    | contains =>
      have hp := h.contains_mem_edges.mp he
      obtain ⟨n, hn, -⟩ := SymbolGraph.parent_eq_some_iff.mp hp
      have hb := SymbolGraph.node?_eq_some_lt hn
      have hlt := hwf.parent_lt hp
      exact ⟨Nat.lt_trans hlt hb, hb⟩
    | declaration =>
      obtain ⟨n, m, hn, hm, -⟩ := hwf.linked a b (h.declaration_mem_edges.mp he)
      exact ⟨SymbolGraph.node?_eq_some_lt hn, SymbolGraph.node?_eq_some_lt hm⟩
  owner i hpos hi := by
    rw [h.size] at hi
    obtain ⟨p, hp, hlt⟩ := hwf.owned i hpos hi
    refine ⟨p, hlt, ?_⟩
    rw [h.incoming, SymbolGraph.ownerEdge?, hp]
    rfl
  chain i hpos hi := by
    have hedges : ∀ k, Relation.TransGen (fun p c => g.parent c = some p) SymbolGraph.root k →
        Relation.TransGen (fun p c => ⟨.contains, p, c⟩ ∈ st.edges) SymbolGraph.root k := by
      intro k hk
      induction hk with
      | single hp => exact .single (h.contains_mem_edges.mpr hp)
      | tail _ hp ih => exact .tail ih (h.contains_mem_edges.mpr hp)
    exact hedges i (hwf.chain i hpos (by rwa [← h.size]))
  located l i := by
    rw [h.located, h.place]
    exact hwf.nodeAt_eq_some_iff
  apart l i j hi hj := by
    rw [h.place, ← hwf.nodeAt_eq_some_iff] at hi hj
    rw [hi] at hj
    exact Option.some.inj hj
  found name hname := by
    have hnamed : g.named name = g.select fun n => n.name == name := if_neg hname
    rw [h.named, hnamed]
    refine ⟨g.select_pairwise _, fun i => ?_⟩
    rw [SymbolGraph.mem_select]
    simp [h.symbol?_eq_some_iff]
  members i := by
    rw [h.children, h.place]
    refine ⟨g.nodup_children i, fun c => ?_, g.children_sorted i⟩
    rw [h.parent]
    exact SymbolGraph.mem_children
  single i := by
    have hlength := congrArg List.length (h.links i)
    rw [List.length_map] at hlength
    rw [hlength]
    exact Option.length_toList_le
  links e he hkind := by
    obtain ⟨kind, d, c⟩ := e
    obtain rfl : kind = .declaration := hkind
    obtain ⟨n, m, hn, hm, hdef, hdecl, hparent, hname⟩ :=
      hwf.linked d c (h.declaration_mem_edges.mp he)
    refine ⟨n.toSymbol, m.toSymbol, h.symbol?_eq_some_iff.mpr ⟨n, hn, rfl⟩,
      h.symbol?_eq_some_iff.mpr ⟨m, hm, rfl⟩, hdef, hdecl, ?_, hname⟩
    rw [h.parent, h.parent, SymbolGraph.parent, SymbolGraph.parent, hn, hm]
    exact hparent

end Represents

/-- **After every run symbols, edges and indices agree.**  An insertion is refused exactly where a
    node sits; it names that node and leaves every store as it was. -/
theorem reached_consistent {st : GraphStore} (h : Reached st) :
    st.Consistent ∧ ∀ parent s e,
      (((insert parent s).run st).1 = .error e ↔
        s.location = some e.location ∧ (st.place e.existing == some e.location) = true) ∧
      (((insert parent s).run st).1 = .error e → ((insert parent s).run st).2 = st) := by
  obtain ⟨g, hg, hrep⟩ := h.represents
  have hconsistent := hrep.consistent hg.wellFormed
  refine ⟨hconsistent, fun parent s e => ?_⟩
  rw [← hconsistent.located]
  exact ⟨insert_eq_error_iff, insert_refused⟩

/-- A file with two variables, the second of which uses the first. -/
def variablesUnit : LocatedUnit :=
  .ofUnit {} {
    mainFile := ⟨"/a.cpp"⟩
    cursors := #[
      { kind := .translationUnit, spelling := "/a.cpp", position := .none },
      { kind := .varDecl, spelling := "v", position := ⟨some ⟨"/a.cpp"⟩, 1, 5⟩,
        isDefinition := true, parent := some 0 },
      { kind := .varDecl, spelling := "w", position := ⟨some ⟨"/a.cpp"⟩, 2, 5⟩,
        isDefinition := true, parent := some 0 },
      { kind := .declRefExpr, spelling := "v", position := ⟨some ⟨"/a.cpp"⟩, 2, 9⟩,
        parent := some 2, referenced := some 1 }] }

/-- A use of the first variable at a place of that file. -/
def useAt (line column : Nat) : Symbol :=
  { category := .reference, kind := .declRefExpr, name := "v", displayName := "v",
    location := some ⟨⟨"/a.cpp"⟩, line, column⟩ }

/-- The stores of these variables with one use more. -/
def variablesStore : GraphStore :=
  [SymbolGraph.Operation.insert 0 (useAt 7 1), .clear, .index variablesUnit, .insert 1 (useAt 3 1),
    .methodDeclaration 2].foldl apply .empty

theorem reached_variablesStore : Reached variablesStore := by
  have hfirst := (Reached.empty.step (.insert 0 (useAt 7 1)) Nat.one_pos).step .clear trivial
  have hindexed := hfirst.step (.index variablesUnit) trivial
  have howner : Allowed (apply .empty (.index variablesUnit)) (.insert 1 (useAt 3 1)) := by
    show 1 < _
    decide +kernel
  exact (hindexed.step (.insert 1 (useAt 3 1)) howner).step (.methodDeclaration 2) trivial

theorem variablesStore_consistent :
    Reached variablesStore ∧ variablesStore.Consistent ∧ variablesStore.size = 5 ∧
      ∃ e, ((insert 0 (useAt 2 9)).run variablesStore).1 = .error e ∧ e.existing = 3 ∧
        ((insert 0 (useAt 2 9)).run variablesStore).2 = variablesStore := by
  have hboth := reached_consistent reached_variablesStore
  have hnode : variablesStore.nodeAt ⟨⟨"/a.cpp"⟩, 2, 9⟩ = some 3 := by decide +kernel
  have hrefused := congrArg Prod.fst (insert_of_taken (s := useAt 2 9) 0 rfl hnode)
  exact ⟨reached_variablesStore, hboth.1, by decide +kernel, _, hrefused, rfl,
    (hboth.2 0 (useAt 2 9) _).2 hrefused⟩

end SymbolAtlas.GraphStore
