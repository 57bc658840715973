import SymbolAtlas.SymbolGraph

/-!
# Queries

Questions about a symbol graph: which symbols have a name, where a symbol is used, and how the
declarations of a file are nested.

Main facts: an answer by name holds only symbols of that name (`SymbolGraph.named_of_mem_symbols`),
and every entry of an outline is told its depth (`SymbolGraph.map_snd_nested`).
-/

set_option autoImplicit false

namespace SymbolAtlas

/-- Why a place names no symbol. -/
inductive PlaceError where
  | nothingThere (place : Location)
  | unresolved (place : Location)

/-- The wording of a place error. -/
def PlaceError.message : PlaceError → String
  | .nothingThere place => s!"Nothing indexed at {place.text}"
  | .unresolved place => s!"Reference at {place.text} is unresolved"

namespace SymbolGraph

/-- The nodes with a name by location; references count only if they are asked for. -/
def symbols (g : SymbolGraph) (name : String) (withReferences : Bool) : List Nat :=
  ((g.named name).filter fun i => withReferences || !g.isReference i).mergeSort
    fun a b => placeLe (g.place a) (g.place b)

/-- The symbol that a place names: the node there or, if that is a reference, what it names. -/
def symbolAt (g : SymbolGraph) (place : Location) : Except PlaceError Nat :=
  match g.nodeAt place with
  | none => .error (.nothingThere place)
  | some i =>
    if g.isReference i then
      match g.targetOf i with
      | some target => .ok target
      | none => .error (.unresolved place)
    else .ok i

/-- Where a symbol is used.  The uses of its declaration count as uses of a method definition that
    is linked to it. -/
def uses (g : SymbolGraph) (i : Nat) : List Location :=
  Location.sortDedup
    (((i :: (g.linkedDeclaration i).toList).flatMap g.referencesTo).filterMap g.place)

/-- The owners above a node, the nearest first.  The number bounds how many are looked at. -/
def ownersFrom (g : SymbolGraph) : Nat → Nat → List Nat
  | 0, _ => []
  | n + 1, i =>
    match g.parent i with
    | some p => p :: ownersFrom g n p
    | none => []

/-- The owners above a node, the nearest first. -/
def owners (g : SymbolGraph) (i : Nat) : List Nat := g.ownersFrom g.size i

/-- Nodes with their depths: how many of their owners are among them. -/
def nested (g : SymbolGraph) (nodes : List Nat) : List (Nat × Nat) :=
  nodes.map fun i => ((g.owners i).countP nodes.contains, i)

/-- A line that presents a node. -/
def describe (g : SymbolGraph) (i : Nat) : String :=
  match g.node? i with
  | none => "?"
  | some n =>
    let place := match n.location with
      | some l => l.text
      | none => ""
    let name := if n.displayName = "" then n.name else n.displayName
    if n.category.isReference then s!"{name} ({n.kind.name}) {place}"
    else s!"{n.category.name} {name} {place}"

/-! ### Facts -/

theorem named_of_mem_symbols {g : SymbolGraph} {name : String} {r : Bool} {i : Nat}
    (h : i ∈ g.symbols name r) : (g.node? i).any (·.name == name) = true := by
  have h : i ∈ (g.named name).filter fun i => r || !g.isReference i :=
    List.mem_mergeSort.mp h
  have h := (List.mem_filter.mp h).1
  unfold named at h
  split at h
  · simp at h
  · exact (List.mem_filter.mp h).2

theorem map_snd_nested (g : SymbolGraph) (nodes : List Nat) :
    (g.nested nodes).map (·.2) = nodes := by
  simp [nested, Function.comp_def]

end SymbolGraph

end SymbolAtlas
