import SymbolAtlas.SymbolGraph

/-!
# The stores behind a graph

A graph is kept in four stores.  Two of them hold the graph itself: the symbols by number, and the
edges between nodes, those of owners and those of links.  The other two are indices: the node at
each location, and the nodes of each name.  An insertion changes all four, one after the other, and
a link adds an edge; every lookup reads one store.

Nothing here makes the stores agree but the order of their changes: an operation first looks for a
reason to refuse, and changes a store only behind that.

* `Table` — values under keys, one for each key.
* `GraphStore` — the four stores, with the operations on them.

Main facts: `Table.get?_set` — what is set is found, under every key that equals the one it was set
under; `Table.entries_set` — under a new key it stands behind all else.
-/

set_option autoImplicit false

namespace SymbolAtlas

/-! ## Tables -/

/-- Values under keys. -/
structure Table (κ ν : Type) where
  entries : List (κ × ν) := []

namespace Table

variable {κ ν : Type} [BEq κ]

/-- The value under a key. -/
def get? (t : Table κ ν) (k : κ) : Option ν := (t.entries.find? (·.1 == k)).map (·.2)

/-- Puts a value under a key, in place of what is there. -/
def set (t : Table κ ν) (k : κ) (v : ν) : Table κ ν :=
  ⟨t.entries.filter (fun e => !(e.1 == k)) ++ [(k, v)]⟩

/-- A value under a new key stands behind all others. -/
theorem entries_set (t : Table κ ν) {k : κ} (v : ν) (h : t.get? k = none) :
    (t.set k v).entries = t.entries ++ [(k, v)] := by
  have hnone := List.find?_eq_none.mp (Option.map_eq_none_iff.mp h)
  have hfilter : (t.entries.filter fun e => !(e.1 == k)) = t.entries :=
    List.filter_eq_self.mpr fun e he => by simpa using hnone e he
  rw [set, hfilter]

theorem get?_set [EquivBEq κ] (t : Table κ ν) (k l : κ) (v : ν) :
    (t.set k v).get? l = if k == l then some v else t.get? l := by
  have hrest : ∀ entries : List (κ × ν), (k == l) = false →
      (entries.filter fun e => !(e.1 == k)).find? (·.1 == l) = entries.find? (·.1 == l) :=
    fun entries hne => by
      induction entries with
      | nil => rfl
      | cons e entries ih =>
        cases hk : e.1 == k with
        | true =>
          have hl : (e.1 == l) = false := by rw [BEq.congr_left hk, hne]
          rw [List.filter_cons_of_neg (by simp [hk]), List.find?_cons, hl]
          exact ih
        | false =>
          rw [List.filter_cons_of_pos (by simp [hk]), List.find?_cons, List.find?_cons, ih]
  unfold get? set
  rw [List.find?_append]
  cases hkl : k == l with
  | true =>
    have hnone : (t.entries.filter fun e => !(e.1 == k)).find? (·.1 == l) = none := by
      rw [List.find?_eq_none]
      intro e he
      have hek := (List.mem_filter.mp he).2
      rw [← BEq.congr_right hkl]
      simpa using hek
    simp [hnone, hkl]
  | false => simp [hrest t.entries hkl, hkl]

end Table

/-! ## Stores -/

/-- What an edge says of its ends. -/
inductive EdgeKind where
  /-- The source owns the target. -/
  | contains
  /-- The source defines the method that the target declares. -/
  | declaration
deriving DecidableEq, Repr

/-- An edge between two nodes. -/
structure Edge where
  kind : EdgeKind
  source : Nat
  target : Nat
deriving DecidableEq, Repr

/-- The stores of a graph. -/
structure GraphStore where
  /-- The symbol of each node. -/
  weights : Array Symbol
  /-- The edges, the latest first. -/
  edges : List Edge := []
  /-- The node at each location that holds one. -/
  byLocation : Table Location Nat := {}
  /-- The nodes of each name that some node has, in the order in which they came. -/
  byName : Table String (List Nat) := {}

namespace GraphStore

/-- The stores of a graph without symbols. -/
def empty : GraphStore := { weights := #[SymbolGraph.rootNode.toSymbol] }

/-! ### Lookups -/

/-- Number of nodes, the root included. -/
def size (g : GraphStore) : Nat := g.weights.size

/-- The symbol of a node. -/
def symbol? (g : GraphStore) (i : Nat) : Option Symbol := g.weights[i]?

/-- The node at a location. -/
def nodeAt (g : GraphStore) (l : Location) : Option Nat := g.byLocation.get? l

/-- The nodes with a name. -/
def named (g : GraphStore) (name : String) : List Nat := (g.byName.get? name).getD []

/-- The edges of a kind that leave a node, the latest first. -/
def outgoing (g : GraphStore) (kind : EdgeKind) (i : Nat) : List Edge :=
  g.edges.filter fun e => e.kind == kind && e.source == i

/-- The edges of a kind that arrive at a node, the latest first. -/
def incoming (g : GraphStore) (kind : EdgeKind) (i : Nat) : List Edge :=
  g.edges.filter fun e => e.kind == kind && e.target == i

/-- The location of a node. -/
def place (g : GraphStore) (i : Nat) : Option Location := (g.symbol? i).bind (·.location)

/-- The nodes owned by a node, by location. -/
def children (g : GraphStore) (i : Nat) : List Nat :=
  ((g.outgoing .contains i).map (·.target)).mergeSort
    fun a b => SymbolGraph.placeLe (g.place a) (g.place b)

/-- The owner of a node. -/
def parent (g : GraphStore) (i : Nat) : Option Nat :=
  (g.incoming .contains i).head?.map (·.source)

/-- The declaration already linked to a method definition. -/
def linkedDeclaration (g : GraphStore) (i : Nat) : Option Nat :=
  (g.outgoing .declaration i).head?.map (·.target)

/-- The declarations and definitions in the file with a canonical path, by location. -/
def outline (g : GraphStore) (file : Path) : List Nat :=
  ((g.byLocation.entries.filter fun e =>
      e.1.path == file && !(g.symbol? e.2).any (·.category.isReference)).mergeSort
    fun a b => a.1.le b.1).map (·.2)

/-! ### Changes -/

/-- Adds a node; its number is the next one. -/
def addNode (s : Symbol) : StateM GraphStore Nat :=
  modifyGet fun g => (g.size, { g with weights := g.weights.push s })

/-- Adds an edge. -/
def addEdge (e : Edge) : StateM GraphStore Unit :=
  modify fun g => { g with edges := e :: g.edges }

/-- Enters a node at a location. -/
def enterLocation (l : Location) (i : Nat) : StateM GraphStore Unit :=
  modify fun g => { g with byLocation := g.byLocation.set l i }

/-- Enters a node under a name, behind those that have it already. -/
def enterName (name : String) (i : Nat) : StateM GraphStore Unit :=
  modify fun g => { g with byName := g.byName.set name (g.named name ++ [i]) }

/-- Adds a symbol as a child of `parent`, unless its location is taken. -/
def insert (parent : Nat) (s : Symbol) : StateM GraphStore (Except DuplicateLocation Nat) := do
  if let some l := s.location then
    if let some existing := (← get).nodeAt l then
      return .error ⟨l, existing⟩
  let i ← addNode s
  addEdge ⟨.contains, parent, i⟩
  if let some l := s.location then
    enterLocation l i
  if s.name ≠ "" then
    enterName s.name i
  return .ok i

/-- Forgets every symbol. -/
def clear : StateM GraphStore Unit := set empty

/-- The declaration that belongs to a method definition among the members of its owner: the one
    with the same display name, or else the only one with the same name. -/
def matchingDeclaration (g : GraphStore) (i : Nat) : Option Nat := do
  let d ← g.symbol? i
  if d.category ≠ .methodDefinition then none
  else
    let owner ← g.parent i
    let candidates := (g.children owner).filter fun c =>
      (g.symbol? c).any fun n => n.category == .methodDeclaration && n.name == d.name
    let same := candidates.find? fun c => (g.symbol? c).any (·.displayName == d.displayName)
    match same, candidates with
    | some c, _ => some c
    | none, [c] => some c
    | none, _ => none

/-- The declaration of a method definition; it is linked when it is found for the first time. -/
def methodDeclaration (i : Nat) : StateM GraphStore (Option Nat) := do
  if let some c := (← get).linkedDeclaration i then
    return some c
  let some c := (← get).matchingDeclaration i | return none
  addEdge ⟨.declaration, i, c⟩
  return some c

instance : GraphAccess GraphStore where
  size := size
  nodeAt := nodeAt
  symbol? := symbol?
  insert g parent s := (insert parent s).run g
  methodDeclaration g i := (methodDeclaration i).run g

end GraphStore

end SymbolAtlas
