/-!
# Syntax trees

A `SyntaxNode` is a node of a concrete syntax tree: what the grammar calls it, the bytes it spans,
and its children.  Some children play a named role (`Field`); a role may be filled by a deeper
descendant where the grammar folds the nodes in between into the parent.

Main facts: a child is lower than its parent (`SyntaxNode.height_lt_of_mem`), and so is whatever
fills a role (`SyntaxNode.height_child?`, `SyntaxNode.height_fieldChildren`).
-/

set_option autoImplicit false

namespace SymbolAtlas

/-- A role that a child plays in its parent. -/
inductive Field where
  | path
  | name
  | body
  | type
  | declarator
  | directive
  | argument
  | parameters
  | defaultValue
  | value
  | size
  | arguments
  | scope
  | function
  | field
  | indices
  | index
  | right
  | defaultType
deriving DecidableEq, Repr

/-- A node of a concrete syntax tree.  `named` tells nodes of the grammar's rules from bare tokens;
    `first` gives for each role the way to the first node that plays it, as indices from child to
    child; `lists` gives the indices of all children that play a role, where they are not just that
    first one. -/
inductive SyntaxNode where
  | node (kind : String) (named : Bool) (start stop : Nat) (first : List (Field × List Nat))
      (lists : List (Field × List Nat)) (children : List SyntaxNode)

namespace SyntaxNode

instance : Inhabited SyntaxNode := ⟨.node "ERROR" true 0 0 [] [] []⟩

/-- What the grammar calls the node. -/
def kind : SyntaxNode → String
  | .node k .. => k

/-- The node stands for a rule of the grammar. -/
def isNamed : SyntaxNode → Bool
  | .node _ n .. => n

/-- The byte at which the node begins. -/
def start : SyntaxNode → Nat
  | .node _ _ s .. => s

/-- The byte behind the node. -/
def stop : SyntaxNode → Nat
  | .node _ _ _ e .. => e

/-- The ways to the first node of each role. -/
def first : SyntaxNode → List (Field × List Nat)
  | .node _ _ _ _ f .. => f

/-- The indices of all children of a role. -/
def lists : SyntaxNode → List (Field × List Nat)
  | .node _ _ _ _ _ l _ => l

/-- The nodes directly inside. -/
def children : SyntaxNode → List SyntaxNode
  | .node _ _ _ _ _ _ c => c

mutual

/-- Number of levels of the tree under a node. -/
def height : SyntaxNode → Nat
  | .node _ _ _ _ _ _ children => heights children + 1

/-- Number of levels of the highest of some trees. -/
def heights : List SyntaxNode → Nat
  | [] => 0
  | n :: rest => max n.height (heights rest)

end

/-- The node at the end of a way down, which takes at least one step. -/
def descendant? : List Nat → SyntaxNode → Option SyntaxNode
  | [], _ => none
  | [i], n => n.children[i]?
  | i :: is, n =>
    match n.children[i]? with
    | some c => descendant? is c
    | none => none

/-- The first node that plays a role. -/
def child? (n : SyntaxNode) (f : Field) : Option SyntaxNode :=
  match n.first.find? (·.1 = f) with
  | some (_, way) => descendant? way n
  | none => none

/-- All nodes that play a role, in order. -/
def fieldChildren (n : SyntaxNode) (f : Field) : List SyntaxNode :=
  match n.lists.find? (·.1 = f) with
  | some (_, is) => is.filterMap (n.children[·]?)
  | none => (n.child? f).toList

/-- The children that stand for rules. -/
def namedChildren (n : SyntaxNode) : List SyntaxNode := n.children.filter (·.isNamed)

/-- The first child that stands for a rule. -/
def firstNamed? (n : SyntaxNode) : Option SyntaxNode := n.namedChildren.head?

/-! ### Facts -/

theorem height_le_heights {n : SyntaxNode} {ns : List SyntaxNode} (h : n ∈ ns) :
    n.height ≤ heights ns := by
  induction ns with
  | nil => cases h
  | cons m rest ih =>
    rw [heights]
    cases h with
    | head => exact Nat.le_max_left _ _
    | tail _ h => exact Nat.le_trans (ih h) (Nat.le_max_right _ _)

theorem height_lt_of_mem {c n : SyntaxNode} (h : c ∈ n.children) : c.height < n.height := by
  cases n with
  | node k b s e f l cs =>
    rw [height]
    exact Nat.lt_succ_of_le (height_le_heights h)

theorem height_descendant? {way : List Nat} {n c : SyntaxNode} (h : descendant? way n = some c) :
    c.height < n.height := by
  fun_induction descendant? way n with
  | case1 => cases h
  | case2 n i => exact height_lt_of_mem (List.mem_of_getElem? h)
  | case3 n i is _ d hd ih =>
    exact Nat.lt_trans (ih h) (height_lt_of_mem (List.mem_of_getElem? hd))
  | case4 => cases h

theorem height_child? {n c : SyntaxNode} {f : Field} (h : n.child? f = some c) :
    c.height < n.height := by
  unfold child? at h
  split at h
  · exact height_descendant? h
  · cases h

theorem height_fieldChildren {n c : SyntaxNode} {f : Field} (h : c ∈ n.fieldChildren f) :
    c.height < n.height := by
  unfold fieldChildren at h
  split at h
  · obtain ⟨i, _, hi⟩ := List.mem_filterMap.mp h
    exact height_lt_of_mem (List.mem_of_getElem? hi)
  · exact height_child? (Option.mem_toList.mp h)

theorem height_namedChildren {n c : SyntaxNode} (h : c ∈ n.namedChildren) :
    c.height < n.height :=
  height_lt_of_mem (List.mem_filter.mp h).1

end SyntaxNode

end SymbolAtlas
