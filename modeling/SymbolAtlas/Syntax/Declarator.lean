import SymbolAtlas.Syntax.Name

/-!
# Declarators

A declarator wraps the name it declares in pointers, references, arrays, parameter lists and
initialisers.  `Declarator.ofNode?` peels the wrappers off and keeps what they say about the name.

Main facts: everything a declarator holds lies in the tree it was read from
(`Declarator.within_ofNode?`).
-/

set_option autoImplicit false

namespace SymbolAtlas

/-- A declared name and what is wrapped around it. -/
structure Declarator where
  name : SyntaxNode
  /-- The declarator with the parameter list, if a function is declared. -/
  function : Option SyntaxNode := none
  /-- The initial value. -/
  value : Option SyntaxNode := none
  /-- The bounds of arrays, outermost first. -/
  sizes : List SyntaxNode := []

namespace Declarator

/-- How a node wraps the declarator inside it. -/
inductive Wrapper where
  | initialised
  | pointer
  | array
  | bracket
  | function
  | bare
  | foreign
deriving DecidableEq

/-- The wrapper that a node is; a name is bare. -/
def Wrapper.ofNode (n : SyntaxNode) : Wrapper :=
  if n.isName then .bare
  else match n.kind with
    | "init_declarator" => .initialised
    | "pointer_declarator" => .pointer
    | "array_declarator" => .array
    | "reference_declarator" | "parenthesized_declarator" | "attributed_declarator" => .bracket
    | "function_declarator" => .function
    | _ => .foreign

/-- The declarator directly inside a wrapper. -/
def inner? (n : SyntaxNode) : Option SyntaxNode :=
  match Wrapper.ofNode n with
  | .initialised | .pointer | .array | .function => n.child? .declarator
  | .bracket => n.firstNamed?
  | .bare | .foreign => none

theorem height_inner? {n c : SyntaxNode} (h : inner? n = some c) : c.height < n.height := by
  unfold inner? at h
  split at h <;> try exact SyntaxNode.height_child? h
  · exact SyntaxNode.height_namedChildren (List.mem_of_mem_head? h)
  · cases h
  · cases h

/-- Keeps what a wrapper around `inner` says: the innermost initialiser, the outermost function
    declarator that directly wraps a name, and all array bounds. -/
def note (found : Declarator) (n inner : SyntaxNode) : Declarator :=
  match Wrapper.ofNode n with
  | .initialised => { found with value := n.child? .value }
  | .array => { found with sizes := found.sizes ++ (n.child? .size).toList }
  | .function =>
    if found.function.isNone && inner.isName then { found with function := some n } else found
  | _ => found

/-- Peels the wrappers of a node, given what the wrappers outside say. -/
def peel (found : Declarator) (n : SyntaxNode) : Option Declarator :=
  if Wrapper.ofNode n = .bare then some { found with name := n }
  else match _h : inner? n with
    | some inner => peel (found.note n inner) inner
    | none => none
termination_by n.height
decreasing_by exact height_inner? _h

/-- The declarator that a node holds. -/
def ofNode? (n : SyntaxNode) : Option Declarator := peel { name := n } n

/-- The marks of the pointers, references and arrays around a possibly missing name. -/
def suffix (n : SyntaxNode) : String :=
  let mark :=
    if n.kind.contains "pointer_declarator" then "*"
    else if n.kind.contains "reference_declarator" then "&"
    else if n.kind.contains "array_declarator" then "[]"
    else ""
  match _h : n.child? .declarator with
  | some inner => mark ++ suffix inner
  | none =>
    match _h' : n.namedChildren with
    | inner :: _ => if inner.kind.endsWith "declarator" then mark ++ suffix inner else mark
    | [] => mark
termination_by n.height
decreasing_by
  · exact SyntaxNode.height_child? _h
  · exact SyntaxNode.height_namedChildren (_h' ▸ List.mem_cons_self)

/-! ### Facts -/

/-- All that a declarator holds is at most this high. -/
def Within (N : Nat) (d : Declarator) : Prop :=
  d.name.height ≤ N ∧ (∀ f ∈ d.function, f.height ≤ N) ∧ (∀ v ∈ d.value, v.height ≤ N) ∧
    ∀ s ∈ d.sizes, s.height ≤ N

theorem within_note {N : Nat} {found : Declarator} (hf : found.Within N) {n inner : SyntaxNode}
    (hn : n.height ≤ N) : (found.note n inner).Within N := by
  obtain ⟨h₁, h₂, h₃, h₄⟩ := hf
  have child : ∀ {f c}, n.child? f = some c → c.height ≤ N := fun h =>
    Nat.le_of_lt (Nat.lt_of_lt_of_le (SyntaxNode.height_child? h) hn)
  unfold note
  split
  · exact ⟨h₁, h₂, fun v hv => child hv, h₄⟩
  · refine ⟨h₁, h₂, h₃, fun s hs => ?_⟩
    rcases List.mem_append.mp hs with hs | hs
    · exact h₄ s hs
    · exact child (Option.mem_toList.mp hs)
  · split
    · exact ⟨h₁, fun f hf => by cases hf; exact hn, h₃, h₄⟩
    · exact ⟨h₁, h₂, h₃, h₄⟩
  · exact ⟨h₁, h₂, h₃, h₄⟩

theorem within_peel {N : Nat} {found d : Declarator} {n : SyntaxNode} (hf : found.Within N)
    (hn : n.height ≤ N) (h : peel found n = some d) : d.Within N := by
  fun_induction peel found n with
  | case1 found n =>
    cases h
    exact ⟨hn, hf.2⟩
  | case2 found n _ inner hi ih =>
    exact ih (within_note hf hn)
      (Nat.le_of_lt (Nat.lt_of_lt_of_le (height_inner? hi) hn)) h
  | case3 => cases h

theorem within_ofNode? {n : SyntaxNode} {d : Declarator} (h : ofNode? n = some d) :
    d.Within n.height :=
  within_peel ⟨Nat.le_refl _, by simp, by simp, by simp⟩ (Nat.le_refl _) h

end Declarator

namespace SyntaxNode

/-- The declarator in the role of that name. -/
def declarator? (n : SyntaxNode) : Option Declarator :=
  (n.child? .declarator).bind Declarator.ofNode?

end SyntaxNode

end SymbolAtlas
