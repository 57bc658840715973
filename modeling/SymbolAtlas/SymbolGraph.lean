import SymbolAtlas.Category

/-!
# The symbol graph

Every node sits at a location of its own.  Declarations own their members, and every use is a
reference node owned by the declaration it names, so "find references" lists children and "go to
definition" asks for the parent.  A method definition can be linked to its declaration.

The graph is the list of its nodes in the order of their numbers; node 0 is the root.  Every
lookup (by location, by name, by owner) is a search of that list.  Nodes are never removed one by
one: the graph grows while files are indexed and is cleared as a whole.

What the passes over a unit need of a graph is `GraphAccess`; they run on this list and on the
stores of `GraphStore`, where edges and indices are kept up to date one by one.

Main facts: inserting at an occupied location names the holder and changes nothing
(`SymbolGraph.insert_of_nodeAt`), and inserting at a free one appends exactly one node
(`SymbolGraph.insert_of_free`).
-/

set_option autoImplicit false

namespace SymbolAtlas

/-- A declaration, a definition or a use. -/
structure Symbol where
  category : Category
  /-- Kind of the cursor the node was made from. -/
  kind : CursorKind
  name : String
  displayName : String
  location : Option Location
deriving Inhabited

/-- A symbol with its links to other nodes. -/
structure GraphNode extends Symbol where
  /-- The owner; only the root has none. -/
  parent : Option Nat
  /-- The declaration that a method definition belongs to, once found. -/
  declaration : Option Nat := none
deriving Inhabited

/-- The symbols found so far. -/
structure SymbolGraph where
  nodes : Array GraphNode
deriving Inhabited

/-- A node already sits at a location. -/
structure DuplicateLocation where
  location : Location
  existing : Nat

/-- The wording of a duplicate location. -/
def DuplicateLocation.message (e : DuplicateLocation) : String :=
  s!"a node already exists at {e.location.text}"

/-- Node counts, the root left out. -/
structure GraphStats where
  nodes : Nat
  references : Nat
  /-- Categories that occur, in their order. -/
  byCategory : List (Category × Nat)

/-- What the passes over a unit ask of a graph and do to it, however the graph is kept. -/
class GraphAccess (γ : Type) where
  /-- Number of nodes, the root included. -/
  size : γ → Nat
  /-- The node at a location. -/
  nodeAt : γ → Location → Option Nat
  /-- The symbol of a node. -/
  symbol? : γ → Nat → Option Symbol
  /-- Adds a symbol as a child of a node, unless its location is taken. -/
  insert : γ → Nat → Symbol → Except DuplicateLocation Nat × γ
  /-- The declaration of a method definition; it is linked when it is found for the first time. -/
  methodDeclaration : γ → Nat → Option Nat × γ

namespace SymbolGraph

/-- The node that owns everything at the top level. -/
def rootNode : GraphNode :=
  { category := .root, kind := .translationUnit, name := "", displayName := "", location := none,
    parent := none }

/-- A graph without symbols. -/
def empty : SymbolGraph := ⟨#[rootNode]⟩

/-- The number of the root. -/
def root : Nat := 0

/-- Number of nodes, the root included. -/
def size (g : SymbolGraph) : Nat := g.nodes.size

/-- The node with a number. -/
def node? (g : SymbolGraph) (i : Nat) : Option GraphNode := g.nodes[i]?

/-- The numbers of the nodes that satisfy a test, ascending. -/
def select (g : SymbolGraph) (test : GraphNode → Bool) : List Nat :=
  (List.range g.size).filter fun i => (g.node? i).any test

/-- The node at a location. -/
def nodeAt (g : SymbolGraph) (l : Location) : Option Nat :=
  g.nodes.findIdx? fun n => n.location.any (· == l)

/-- Some node sits at the location. -/
def occupied (g : SymbolGraph) (l : Location) : Bool := (g.nodeAt l).isSome

/-- The nodes with a name; nobody is found by the empty name. -/
def named (g : SymbolGraph) (name : String) : List Nat :=
  if name = "" then [] else g.select fun n => n.name == name

/-! ### Changes -/

/-- Adds a symbol as a child of `parent`, unless its location is taken. -/
def insert (g : SymbolGraph) (parent : Nat) (s : Symbol) :
    Except DuplicateLocation (Nat × SymbolGraph) :=
  match s.location.bind fun l => (g.nodeAt l).map (l, ·) with
  | some (l, existing) => .error ⟨l, existing⟩
  | none => .ok (g.size, ⟨g.nodes.push { s with parent := some parent }⟩)

/-- Forgets every symbol. -/
def clear (_ : SymbolGraph) : SymbolGraph := empty

/-! ### Owners and members -/

/-- A missing location comes first. -/
def placeLe (a b : Option Location) : Bool :=
  match a, b with
  | none, _ => true
  | some _, none => false
  | some x, some y => x.le y

/-- The location of a node. -/
def place (g : SymbolGraph) (i : Nat) : Option Location := (g.node? i).bind (·.location)

/-- The nodes owned by a node, by location; those without one stand first, the latest leading. -/
def children (g : SymbolGraph) (i : Nat) : List Nat :=
  (g.select fun n => n.parent == some i).reverse.mergeSort
    fun a b => placeLe (g.place a) (g.place b)

/-- The owner of a node. -/
def parent (g : SymbolGraph) (i : Nat) : Option Nat := (g.node? i).bind (·.parent)

/-- The node is a reference. -/
def isReference (g : SymbolGraph) (i : Nat) : Bool := (g.node? i).any (·.category.isReference)

/-- The uses of a node. -/
def referencesTo (g : SymbolGraph) (i : Nat) : List Nat := (g.children i).filter g.isReference

/-- The declaration that a reference names. -/
def targetOf (g : SymbolGraph) (i : Nat) : Option Nat :=
  if g.isReference i then g.parent i else none

/-- The declarations and definitions in the file with a canonical path, by location. -/
def outline (g : SymbolGraph) (file : Path) : List Nat :=
  (g.select fun n => n.location.any (·.path == file) && !n.category.isReference).mergeSort
    fun a b => placeLe (g.place a) (g.place b)

/-! ### Methods -/

/-- The declaration already linked to a method definition. -/
def linkedDeclaration (g : SymbolGraph) (i : Nat) : Option Nat :=
  (g.node? i).bind (·.declaration)

/-- The declaration that belongs to a method definition among the members of its owner: the one
    with the same display name, or else the only one with the same name. -/
def matchingDeclaration (g : SymbolGraph) (i : Nat) : Option Nat := do
  let d ← g.node? i
  if d.category ≠ .methodDefinition then none
  else
    let owner ← g.parent i
    let candidates := (g.children owner).filter fun c =>
      (g.node? c).any fun n => n.category == .methodDeclaration && n.name == d.name
    let same := candidates.find? fun c => (g.node? c).any (·.displayName == d.displayName)
    match same, candidates with
    | some c, _ => some c
    | none, [c] => some c
    | none, _ => none

/-- The declaration of a method definition; it is linked when it is found for the first time. -/
def methodDeclaration (g : SymbolGraph) (i : Nat) : Option Nat × SymbolGraph :=
  match g.linkedDeclaration i with
  | some c => (some c, g)
  | none =>
    match g.matchingDeclaration i with
    | some c => (some c, ⟨g.nodes.modify i fun n => { n with declaration := some c }⟩)
    | none => (none, g)

/-! ### Counting -/

/-- Node counts. -/
def stats (g : SymbolGraph) : GraphStats :=
  let counted := g.nodes.toList.filter fun n => n.category != .root
  let count := fun (c : Category) => (counted.filter fun n => n.category == c).length
  { nodes := counted.length
    references := count .reference
    byCategory := (Category.all.map fun c => (c, count c)).filter fun e => e.2 != 0 }

/-! ### Access -/

instance : GraphAccess SymbolGraph where
  size := size
  nodeAt := nodeAt
  symbol? g i := (g.node? i).map (·.toSymbol)
  insert g parent s :=
    match g.insert parent s with
    | .ok (i, g') => (.ok i, g')
    | .error e => (.error e, g)
  methodDeclaration := methodDeclaration

/-! ### Facts -/

theorem insert_of_nodeAt {g : SymbolGraph} {s : Symbol} {l : Location} {i : Nat} (parent : Nat)
    (hl : s.location = some l) (h : g.nodeAt l = some i) : g.insert parent s = .error ⟨l, i⟩ := by
  simp [insert, hl, h]

theorem insert_of_free {g : SymbolGraph} {s : Symbol} (parent : Nat)
    (h : ∀ l, s.location = some l → g.nodeAt l = none) :
    g.insert parent s = .ok (g.size, ⟨g.nodes.push { s with parent := some parent }⟩) := by
  unfold insert
  cases hl : s.location with
  | none => simp
  | some l => simp [h l hl]

theorem access_nodeAt (g : SymbolGraph) : GraphAccess.nodeAt g = g.nodeAt := rfl

theorem access_methodDeclaration (g : SymbolGraph) (i : Nat) :
    GraphAccess.methodDeclaration g i = g.methodDeclaration i := rfl

theorem access_insert_of_ok {g : SymbolGraph} {parent : Nat} {s : Symbol} {r : Nat × SymbolGraph}
    (h : g.insert parent s = .ok r) : GraphAccess.insert g parent s = (.ok r.1, r.2) := by
  simp only [GraphAccess.insert, h]

theorem access_insert_of_error {g : SymbolGraph} {parent : Nat} {s : Symbol}
    {e : DuplicateLocation} (h : g.insert parent s = .error e) :
    GraphAccess.insert g parent s = (.error e, g) := by
  simp only [GraphAccess.insert, h]

end SymbolGraph

end SymbolAtlas
