import SymbolAtlas.Syntax.Tree

/-!
# Names in syntax trees

Where the name stands in a node that spells one: behind scopes, template arguments, member access
and parentheses.

Main facts: none of these functions leaves the tree under its node (`SyntaxNode.height_nameToken`,
`SyntaxNode.height_splitQualified`).
-/

set_option autoImplicit false

namespace SymbolAtlas.SyntaxNode

/-- The node qualifies a name or gives it template arguments. -/
def wrapsName (n : SyntaxNode) : Bool :=
  n.kind ∈ ["qualified_identifier", "template_type", "template_function", "template_method"]

/-- The node can be the name that a declarator declares. -/
def isName (n : SyntaxNode) : Bool :=
  n.kind ∈ ["identifier", "field_identifier", "type_identifier", "qualified_identifier",
    "destructor_name", "operator_name", "template_function", "template_method"]

/-- The token that carries the name of a possibly qualified or templated name. -/
def nameToken (n : SyntaxNode) : SyntaxNode :=
  if n.wrapsName then
    match _h : n.child? .name with
    | some name => nameToken name
    | none => n
  else n
termination_by n.height
decreasing_by exact height_child? _h

/-- The token that names the function a call invokes. -/
def calleeToken (n : SyntaxNode) : SyntaxNode :=
  if n.kind = "field_expression" then
    match n.child? .field with
    | some field => field.nameToken
    | none => n
  else if n.kind = "parenthesized_expression" then
    match _h : n.namedChildren with
    | inner :: _ => calleeToken inner
    | [] => n
  else n.nameToken
termination_by n.height
decreasing_by exact height_namedChildren (_h ▸ List.mem_cons_self)

/-- Splits `a::b::c` into the scopes in front and the name at the end. -/
def splitQualified (n : SyntaxNode) : List SyntaxNode × SyntaxNode :=
  if n.kind = "qualified_identifier" then
    match _h : n.child? .name with
    | some name =>
      let (scopes, last) := splitQualified name
      ((n.child? .scope).toList ++ scopes, last)
    | none => ((n.child? .scope).toList, n)
  else ([], n)
termination_by n.height
decreasing_by exact height_child? _h

/-! ### Facts -/

theorem height_nameToken (n : SyntaxNode) : n.nameToken.height ≤ n.height := by
  fun_induction nameToken n with
  | case1 n _ name h ih => exact Nat.le_of_lt (Nat.lt_of_le_of_lt ih (height_child? h))
  | case2 => exact Nat.le_refl _
  | case3 => exact Nat.le_refl _

theorem height_splitQualified (n : SyntaxNode) :
    (∀ s ∈ n.splitQualified.1, s.height < n.height) ∧ n.splitQualified.2.height ≤ n.height := by
  fun_induction splitQualified n with
  | case1 n _ name h scopes last split ih =>
    rw [split] at ih
    have lower := height_child? h
    refine ⟨fun s hs => ?_, Nat.le_of_lt (Nat.lt_of_le_of_lt ih.2 lower)⟩
    rcases List.mem_append.mp hs with hs | hs
    · exact height_child? (Option.mem_toList.mp hs)
    · exact Nat.lt_trans (ih.1 s hs) lower
  | case2 n =>
    exact ⟨fun s hs => height_child? (Option.mem_toList.mp hs), Nat.le_refl _⟩
  | case3 => exact ⟨fun s hs => absurd hs List.not_mem_nil, Nat.le_refl _⟩

end SymbolAtlas.SyntaxNode
