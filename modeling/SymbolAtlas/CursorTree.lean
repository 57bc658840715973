import SymbolAtlas.LocatedUnit

/-!
# Trees of cursors

A parser hands out cursors one at a time in pre-order, together with the parent it claims for
each.  Cursors cannot be told apart by identity, so the tree is rebuilt from the kinds and
locations alone: a cursor goes below the last node if that one looks like the claimed parent, and
otherwise below the nearest open ancestor that does.

Main facts: nodes are numbered in the order in which cursors were visited, and a rebuilt tree
always has the unit's own cursor as node 0 (`CursorTree.node_zero`).
-/

set_option autoImplicit false

namespace SymbolAtlas

/-- A visited cursor and the node it hangs below. -/
structure TreeNode where
  cursor : Nat
  parent : Option Nat
deriving DecidableEq, Repr, Inhabited

/-- A claimed parent that is neither the last cursor nor any open ancestor. -/
structure TreeError where
  cursor : String
  parent : String
  last : String
deriving DecidableEq, Repr

/-- The wording of a tree error. -/
def TreeError.message (e : TreeError) : String :=
  s!"structural inconsistency: cursor {e.cursor} reports parent {e.parent}, "
    ++ s!"last visited was {e.last}"

/-- The visited cursors of a unit, each below the one that contains it. -/
structure CursorTree where
  nodes : Array TreeNode
deriving Repr, Inhabited

namespace CursorTree

/-- Number of nodes, the unit's own included. -/
def size (t : CursorTree) : Nat := t.nodes.size

/-- The node with a number. -/
def node (t : CursorTree) (id : Nat) : TreeNode := t.nodes.getD id default

/-- The cursor of a node. -/
def cursor (t : CursorTree) (id : Nat) : Nat := (t.node id).cursor

/-- For every node the branches directly below it. -/
def branches (t : CursorTree) : Array (List Branch) := Branch.table (t.nodes.map (·.parent))

/-- The whole tree. -/
def branch (t : CursorTree) : Branch := .rooted (t.nodes.map (·.parent)) 0

/-- Node numbers in pre-order. -/
def preorder (t : CursorTree) : List Nat := t.branch.preorder

/-- The state of a reconstruction: the nodes made, the open ancestors with the innermost first,
    the node made last, and the failure that ended it. -/
structure Progress where
  nodes : Array TreeNode
  open_ : List Nat
  last : Option Nat
  failure : Option TreeError

namespace Progress

/-- Nothing visited: the unit's own cursor is the only open ancestor. -/
def start : Progress := { nodes := #[⟨0, none⟩], open_ := [0], last := none, failure := none }

/-- The node looks like the cursor. -/
def nodeAlike (lu : LocatedUnit) (p : Progress) (cursor node : Nat) : Bool :=
  lu.alike (p.nodes.getD node default).cursor cursor

/-- The open ancestors once the claimed parent is the innermost: the last node is opened if it
    looks like it, else ancestors are closed until one does. -/
def reopen (lu : LocatedUnit) (p : Progress) (reported : Nat) : List Nat :=
  let close := p.open_.dropWhile fun n => !p.nodeAlike lu reported n
  match p.last with
  | some n => if p.nodeAlike lu reported n then n :: p.open_ else close
  | none => close

/-- Takes in one visited cursor with its claimed parent. -/
def visit (lu : LocatedUnit) (p : Progress) (cursor reported : Nat) : Progress × Verdict :=
  if !lu.unit.hasFile cursor then (p, .skip)
  else
    match p.reopen lu reported with
    | [] =>
      let last := match p.last with
        | some n => lu.unit.describe (p.nodes.getD n default).cursor
        | none => "<none>"
      let failure := ⟨lu.unit.describe cursor, lu.unit.describe reported, last⟩
      ({ p with open_ := [], failure := some failure }, .stop)
    | top :: rest =>
      ({ p with
          nodes := p.nodes.push ⟨cursor, some top⟩
          open_ := top :: rest
          last := some p.nodes.size },
        lu.unit.verdict cursor)

end Progress

/-- Rebuilds the tree of a unit; cursors that come from no file are left out with everything
    inside them. -/
def reconstruct (lu : LocatedUnit) : Except TreeError CursorTree :=
  let done := lu.unit.visit 0 (Progress.visit lu) .start
  match done.failure with
  | some e => .error e
  | none => .ok ⟨done.nodes⟩

/-! ### Showing a tree -/

/-- One line of a dump. -/
def dumpLine (lu : LocatedUnit) (t : CursorTree) (depth id : Nat) : String :=
  let c := t.cursor id
  let indent := String.ofList (List.replicate (2 * depth) ' ')
  let location := ((lu.place c).map Location.text).getD "<no location>"
  let definition := if lu.unit.isDefinition c then " [definition]" else ""
  let owner := match lu.unit.semanticParent c with
    | some p => s!" (semantic parent: {lu.unit.describe p})"
    | none => ""
  s!"{indent}{(lu.unit.kind c).name} {lu.unit.spelling c} {location}{definition}{owner}\n"

mutual

/-- The lines of a branch, two blanks further in at every level. -/
def dumpBranch (lu : LocatedUnit) (t : CursorTree) (depth : Nat) : Branch → String
  | .node id cs => t.dumpLine lu depth id ++ dumpBranches lu t (depth + 1) cs

/-- The lines of several branches. -/
def dumpBranches (lu : LocatedUnit) (t : CursorTree) (depth : Nat) : List Branch → String
  | [] => ""
  | b :: bs => t.dumpBranch lu depth b ++ dumpBranches lu t depth bs

end

/-- An indented picture of the tree, one line for every node. -/
def dump (lu : LocatedUnit) (t : CursorTree) : String := t.dumpBranch lu 0 t.branch

/-! ### Facts -/

theorem Progress.visit_node_zero (lu : LocatedUnit) (p : Progress) (c r : Nat)
    (h : p.nodes[0]? = some ⟨0, none⟩) : (p.visit lu c r).1.nodes[0]? = some ⟨0, none⟩ := by
  have hpos : 0 < p.nodes.size := by
    rcases Nat.eq_zero_or_pos p.nodes.size with h0 | h0
    · simp [Array.getElem?_eq_none (Nat.le_of_eq h0)] at h
    · exact h0
  unfold Progress.visit
  split
  · exact h
  · split
    · exact h
    · simp only [Array.getElem?_push, Nat.ne_of_lt hpos, if_false]
      exact h

theorem node_zero {lu : LocatedUnit} {t : CursorTree} (h : reconstruct lu = .ok t) :
    t.nodes[0]? = some ⟨0, none⟩ := by
  have hk : (lu.unit.visit 0 (Progress.visit lu) .start).nodes[0]? = some ⟨0, none⟩ :=
    lu.unit.visit_keeps 0 (fun p c r => Progress.visit_node_zero lu p c r) rfl
  simp only [reconstruct] at h
  split at h
  · cases h
  · cases h
    exact hk

end CursorTree

end SymbolAtlas
