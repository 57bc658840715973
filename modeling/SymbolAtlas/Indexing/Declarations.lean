import SymbolAtlas.CursorTree
import SymbolAtlas.SymbolGraph

/-!
# Declarations of a unit

The first pass over a tree of cursors adds a node for every declaration at a free location.  What
is already in the graph is left alone together with its inside.  A declaration goes below the node
of its semantic parent when that differs from the cursor around it, and below the nearest
declaration around it otherwise.

Uses are not followed here, since what they name may come later: they are kept as pending
references, the first one at each location.  Only a macro expansion whose definition stands beside
it is attached at once.

The graph is used through `GraphAccess` only, however it is kept.

Main facts: `Declarations.enter` decides what happens at one cursor and whether its inside is
visited; where the location of a declaration is taken it only counts
(`Declarations.add_of_occupied`).
-/

set_option autoImplicit false

namespace SymbolAtlas

/-- What the declaration pass did. -/
structure BuildStats where
  declarations : Nat := 0
  macroReferences : Nat := 0
  duplicates : Nat := 0
  reparented : Nat := 0
deriving DecidableEq, Repr, Inhabited

/-- The state of the declaration pass. -/
structure Declarations (γ : Type) where
  graph : γ
  /-- Uses to resolve, in the order found: location and tree node. -/
  pending : List (Location × Nat) := []
  stats : BuildStats := {}

/-- The symbol of a cursor. -/
def LocatedUnit.symbol (lu : LocatedUnit) (category : Category) (cursor : Nat)
    (location : Location) : Symbol :=
  { category, kind := lu.unit.kind cursor, name := lu.unit.spelling cursor,
    displayName := lu.unit.displayName cursor, location := some location }

namespace Declarations

variable {γ : Type}

/-- Keeps a use for later, unless one at the same location is already kept. -/
def keep (s : Declarations γ) (location : Location) (id : Nat) : Declarations γ :=
  if s.pending.any (·.1 == location) then s
  else { s with pending := s.pending ++ [(location, id)] }

/-- Counts a declaration that is already in the graph. -/
def countDuplicate (s : Declarations γ) : Declarations γ :=
  { s with stats := { s.stats with duplicates := s.stats.duplicates + 1 } }

variable [GraphAccess γ]

/-- Some node sits at a location. -/
def occupied (s : Declarations γ) (location : Location) : Bool :=
  (GraphAccess.nodeAt s.graph location).isSome

/-- The node that owns a cursor by meaning, when that is not the cursor around it. -/
def semanticOwner (lu : LocatedUnit) (tree : CursorTree) (g : γ) (id : Nat) : Option Nat := do
  let semantic ← lu.unit.semanticParent (tree.cursor id)
  let around ← (tree.node id).parent
  if lu.alike semantic (tree.cursor around) then none
  else (lu.place semantic).bind (GraphAccess.nodeAt g)

/-- The node of the first macro definition of this name among the siblings that has one. -/
def siblingMacro (lu : LocatedUnit) (tree : CursorTree) (g : γ) (siblings : List Nat)
    (name : String) : Option Nat :=
  siblings.findSome? fun id =>
    let c := tree.cursor id
    if lu.unit.kind c = .macroDefinition ∧ lu.unit.spelling c = name then
      (lu.place c).bind (GraphAccess.nodeAt g)
    else none

/-- Handles a macro expansion at a location: nothing to do if the location is taken, a reference
    if the definition stands beside it, `none` otherwise. -/
def expandMacro (lu : LocatedUnit) (tree : CursorTree) (siblings : List Nat) (s : Declarations γ)
    (cursor : Nat) (location : Location) : Option (Declarations γ) :=
  if s.occupied location then some s
  else
    match siblingMacro lu tree s.graph siblings (lu.unit.spelling cursor) with
    | none => none
    | some definition =>
      match GraphAccess.insert s.graph definition (lu.symbol .reference cursor location) with
      | (.ok _, graph) =>
        some { s with
          graph, stats := { s.stats with macroReferences := s.stats.macroReferences + 1 } }
      | (.error _, graph) => some { s with graph }

/-- Adds the node of a declaration; `none` in place of its number means that its location is
    taken. -/
def add (lu : LocatedUnit) (tree : CursorTree) (owner : Nat) (s : Declarations γ) (id : Nat)
    (category : Category) (location : Location) : Declarations γ × Option Nat :=
  if s.occupied location then (s.countDuplicate, none)
  else
    let owner' := (semanticOwner lu tree s.graph id).getD owner
    let reparented := s.stats.reparented + if owner' = owner then 0 else 1
    match GraphAccess.insert s.graph owner' (lu.symbol category (tree.cursor id) location) with
    | (.ok node, graph) =>
      ({ s with
          graph
          stats := { s.stats with declarations := s.stats.declarations + 1, reparented } },
        some node)
    | (.error _, graph) =>
      ({ s with graph, stats := { s.stats with reparented } }.countDuplicate, none)

/-- Handles one tree node whose enclosing declaration is `owner`.  The result tells below which
    graph node its inside is visited, or that it is not. -/
def enter (lu : LocatedUnit) (tree : CursorTree) (siblings : List Nat) (owner : Nat)
    (s : Declarations γ) (id : Nat) : Declarations γ × Option Nat :=
  let cursor := tree.cursor id
  let place := lu.place cursor
  let expanded :=
    if lu.unit.kind cursor = .macroExpansion then
      place.bind (expandMacro lu tree siblings s cursor)
    else none
  match expanded with
  | some s' => (s', none)
  | none =>
    match lu.unit.category cursor, (tree.node id).parent, place with
    | .reference, _, some location =>
      (if s.occupied location then s else s.keep location id, none)
    | .reference, _, none => (s, none)
    | .invalid, _, _ => (s, some owner)
    | category, some _, some location => add lu tree owner s id category location
    | _, _, _ => (s, some owner)

mutual

/-- Visits a tree node and, where it should be, its inside.  `siblings` are the nodes beside it,
    itself included. -/
def visit (lu : LocatedUnit) (tree : CursorTree) (siblings : List Nat) (owner : Nat) :
    Branch → Declarations γ → Declarations γ
  | .node id below, s =>
    match enter lu tree siblings owner s id with
    | (s', none) => s'
    | (s', some owner') => visitAll lu tree (below.map Branch.item) owner' below s'

/-- Visits several tree nodes in turn. -/
def visitAll (lu : LocatedUnit) (tree : CursorTree) (siblings : List Nat) (owner : Nat) :
    List Branch → Declarations γ → Declarations γ
  | [], s => s
  | b :: bs, s => visitAll lu tree siblings owner bs (visit lu tree siblings owner b s)

end

/-- Adds the declarations of a unit to a graph. -/
def build (lu : LocatedUnit) (tree : CursorTree) (g : γ) : Declarations γ :=
  visit lu tree [] SymbolGraph.root tree.branch { graph := g }

/-! ### Facts -/

theorem add_of_occupied {s : Declarations γ} {location : Location} (lu : LocatedUnit)
    (tree : CursorTree) (owner id : Nat) (category : Category)
    (h : s.occupied location = true) :
    add lu tree owner s id category location = (s.countDuplicate, none) := by
  simp [add, h]

end Declarations

end SymbolAtlas
