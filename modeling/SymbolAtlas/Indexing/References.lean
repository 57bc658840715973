import SymbolAtlas.Indexing.Declarations

/-!
# References of a unit

The second pass attaches every pending use to the node of what it names.  It runs when all
declarations of the unit are in the graph, so a use may come before its declaration.  What stands
inside a use was not visited by the first pass; it is swept here, after the use itself has found
its target.

Nothing is attached at a location that is taken.  As in the first pass, the graph is used through
`GraphAccess` only, however it is kept.
-/

set_option autoImplicit false

namespace SymbolAtlas

/-- What the reference pass did. -/
structure ResolveStats where
  created : Nat := 0
  alreadyPresent : Nat := 0
  unresolved : Nat := 0
  filtered : Nat := 0
  missingTarget : Nat := 0
  redirected : Nat := 0
deriving DecidableEq, Repr, Inhabited

/-- What is worth telling about a reference. -/
inductive ReferenceNotice where
  /-- Its location already holds a node. -/
  | alreadyIndexed (kind : CursorKind) (name : String) (location : Location)
      (category : Category) (existing : String)
  /-- The parser knows nothing that it names. -/
  | nothingReferenced (kind : CursorKind) (name : String) (location : Location)
      (parent : Option CursorKind)
  /-- Its location was taken while it was being attached. -/
  | duplicate (error : DuplicateLocation)

/-- The wording of a notice. -/
def ReferenceNotice.message : ReferenceNotice → String
  | .alreadyIndexed kind name location category existing =>
    s!"Reference {kind.name} '{name}' at {location.text} already indexed as "
      ++ s!"{category.name} '{existing}'"
  | .nothingReferenced kind name location parent =>
    let around := (parent.map CursorKind.name).getD ""
    s!"No referenced cursor for {kind.name} '{name}' at {location.text} (child of {around})"
  | .duplicate error => error.message

/-- The state of the reference pass. -/
structure References (γ : Type) where
  graph : γ
  stats : ResolveStats := {}
  notices : List ReferenceNotice := []

/-- Kinds that an expression may name; types and templates are named by other cursors. -/
def CursorKind.isValueDecl : CursorKind → Bool
  | .parmDecl | .varDecl | .fieldDecl | .method | .enumConstantDecl | .functionDecl => true
  | _ => false

namespace References

/-- The cursor a use refers to.  A record that is declared without a body and names itself or
    nothing stands for its definition. -/
def target (lu : LocatedUnit) (cursor : Nat) (location : Location) : Option Nat :=
  let kind := lu.unit.kind cursor
  let named := lu.unit.referenced cursor
  let namesItself : Bool := match named with
    | none => true
    | some r => lu.unit.kind r == kind && lu.place r == some location
  if kind.isForwardable && namesItself then
    lu.unit.definition cursor <|> named
  else named

/-- Uses of these kinds commonly name nothing and pass without a notice. -/
def silentWhenUnresolved : CursorKind → Bool
  | .macroExpansion | .classDecl | .structDecl => true
  | _ => false

variable {γ : Type} [GraphAccess γ]

/-- Attaches a use below a node, or below the declaration of a method when the node defines it. -/
def insertBelow (lu : LocatedUnit) (s : References γ) (cursor : Nat) (location : Location)
    (node : Nat) : References γ :=
  let (owner, graph, redirected) :=
    if (GraphAccess.symbol? s.graph node).any (·.category == .methodDefinition) then
      match GraphAccess.methodDeclaration s.graph node with
      | (some declaration, graph) => (declaration, graph, s.stats.redirected + 1)
      | (none, graph) => (node, graph, s.stats.redirected)
    else (node, s.graph, s.stats.redirected)
  match GraphAccess.insert graph owner (lu.symbol .reference cursor location) with
  | (.ok _, graph) =>
    { s with graph, stats := { s.stats with created := s.stats.created + 1, redirected } }
  | (.error e, graph) =>
    { graph
      stats := { s.stats with alreadyPresent := s.stats.alreadyPresent + 1, redirected }
      notices := s.notices ++ [.duplicate e] }

/-- Attaches the use of a tree node at a free location; the flag tells whether it found its
    target. -/
def attach (lu : LocatedUnit) (tree : CursorTree) (s : References γ) (id : Nat)
    (location : Location) : References γ × Bool :=
  let cursor := tree.cursor id
  let kind := lu.unit.kind cursor
  match target lu cursor location with
  | none =>
    let around := (tree.node id).parent.map fun p => lu.unit.kind (tree.cursor p)
    let notices :=
      if silentWhenUnresolved kind then s.notices
      else s.notices ++ [.nothingReferenced kind (lu.unit.spelling cursor) location around]
    ({ s with notices, stats := { s.stats with unresolved := s.stats.unresolved + 1 } }, false)
  | some t =>
    if kind = .declRefExpr ∧ !(lu.unit.kind t).isValueDecl then
      ({ s with stats := { s.stats with filtered := s.stats.filtered + 1 } }, false)
    else
      match (lu.place t).bind (GraphAccess.nodeAt s.graph) with
      | none =>
        ({ s with stats := { s.stats with missingTarget := s.stats.missingTarget + 1 } }, false)
      | some node => (insertBelow lu s cursor location node, true)

/-- Handles one tree node at `location`; the flag tells whether its inside is swept. -/
def site (lu : LocatedUnit) (tree : CursorTree) (s : References γ) (id : Nat)
    (location : Option Location) : References γ × Bool :=
  let cursor := tree.cursor id
  match location with
  | none => (s, true)
  | some l =>
    match GraphAccess.nodeAt s.graph l with
    | some existing =>
      let notices := match GraphAccess.symbol? s.graph existing with
        | some n =>
          s.notices
            ++ [.alreadyIndexed (lu.unit.kind cursor) (lu.unit.spelling cursor) l n.category n.name]
        | none => s.notices
      ({ s with
          notices, stats := { s.stats with alreadyPresent := s.stats.alreadyPresent + 1 } }, false)
    | none =>
      if lu.unit.category cursor = .invalid then (s, true) else attach lu tree s id l

mutual

/-- Resolves a tree node and sweeps its inside. -/
def resolve (lu : LocatedUnit) (tree : CursorTree) (location : Option Location) :
    Branch → References γ → References γ
  | .node id below, s =>
    match site lu tree s id location with
    | (s', true) => sweep lu tree below s'
    | (s', false) => s'

/-- Resolves several tree nodes in turn, each at its own location. -/
def sweep (lu : LocatedUnit) (tree : CursorTree) : List Branch → References γ → References γ
  | [], s => s
  | b :: bs, s =>
    sweep lu tree bs (resolve lu tree (lu.place (tree.cursor b.item)) b s)

end

/-- Resolves the pending references of a unit in order. -/
def resolvePending (lu : LocatedUnit) (tree : CursorTree) (g : γ)
    (pending : List (Location × Nat)) : References γ :=
  let below := tree.branches
  pending.foldl
    (fun s (location, id) =>
      resolve lu tree (some location) (.node id (below.getD id [])) s)
    { graph := g }

end References

end SymbolAtlas
