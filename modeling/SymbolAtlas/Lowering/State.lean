import SymbolAtlas.TranslationUnit
import SymbolAtlas.Lowering.Scopes
import SymbolAtlas.Syntax.Source

/-!
# The state of a lowering

Lowering turns the syntax tree of a file, and of every header it reaches, into the cursors of one
unit.  While it runs, `Lowering` holds the unit so far, the scopes with their names, and the uses
that are bound to declarations once the whole unit is known.
-/

set_option autoImplicit false

namespace SymbolAtlas

/-- How the declaration that a use names is found. -/
inductive Binding where
  /-- From the inside out through the scopes around the use. -/
  | lexical
  /-- In the scope that these names lead to; in the global scope if there are none. -/
  | qualified (path : List String)
  /-- Among the members of the value that a cursor names. -/
  | member (base : Option Nat)

/-- A use of a name, waiting for its declaration. -/
structure UseSite where
  cursor : Nat
  name : String
  scope : Nat
  binding : Binding

/-- A record declared without a body, waiting for its definition. -/
structure Forward where
  cursor : Nat
  name : String
  scope : Nat

/-- What tells the record behind a value or an alias. -/
inductive TypeHint where
  | named (name : String) (scope : Nat)
  | cursor (id : Nat)

/-- A use of a macro that has not been written to the unit yet. -/
structure Expansion where
  position : Position
  name : String
  definition : Nat

/-- What lowering knows and has made so far. -/
structure Lowering where
  unit : TranslationUnit
  /-- Canonical paths of the main file and all headers met. -/
  included : List Path
  scopes : Scopes := {}
  /-- The scope with the members of a record or namespace. -/
  memberScopes : List (Nat × Nat) := []
  /-- The macros in effect, by their definitions. -/
  macros : List (String × Nat) := []
  expansions : Array Expansion := #[]
  sites : Array UseSite := #[]
  forwards : Array Forward := #[]
  /-- The types of values and the targets of aliases. -/
  types : List (Nat × TypeHint) := []

/-- Where lowering stands: the file it reads, how deeply that file is included, and the cursor and
    scope that receive what is found. -/
structure Here where
  source : Source
  depth : Nat
  parent : Nat
  scope : Nat

namespace Here

/-- The same place with another cursor to receive what is found. -/
def under (here : Here) (parent : Nat) : Here := { here with parent }

/-- The same place inside a new scope. -/
def within (here : Here) (parent scope : Nat) : Here := { here with parent, scope }

/-- What a node spells. -/
def spelling (here : Here) (n : SyntaxNode) : String := here.source.spelling n

end Here

/-- A step of a lowering. -/
abbrev Lower := StateM Lowering

namespace Lowering

/-- The state before anything is lowered. -/
def init (mainFile canonical : Path) : Lowering :=
  { unit := .empty mainFile, included := [canonical] }

/-- Adds a cursor that stands at a token. -/
def push (here : Here) (kind : CursorKind) (spelling : String) (token : SyntaxNode)
    (isDefinition : Bool) (displayName : Option String := none) : Lower Nat :=
  modifyGet fun s =>
    let position := here.source.position token
    let c : Cursor := { kind, spelling, displayName, position, isDefinition }
    (s.unit.size, { s with unit := s.unit.push here.parent c })

/-- Opens a scope inside another. -/
def openScope (parent : Nat) (record : Option String) : Lower Nat :=
  modifyGet fun s => (s.scopes.size, { s with scopes := s.scopes.openIn parent record })

/-- Names the scope with the members of a cursor. -/
def setMembers (cursor scope : Nat) : Lower Unit :=
  modify fun s => { s with memberScopes := (cursor, scope) :: s.memberScopes }

/-- The first declaration of a name keeps it, but a record's definition takes it over from a record
    declared without a body. -/
def takesOver (u : TranslationUnit) (old new : Nat) : Bool :=
  (u.kind old).isRecord && !u.isDefinition old && u.isDefinition new

/-- Declares a name in a scope; a nameless thing is not declared. -/
def declare (scope : Nat) (name : String) (cursor : Nat) : Lower Unit :=
  modify fun s =>
    if name.isEmpty then s
    else
      let free := match s.scopes.named? scope name with
        | none => true
        | some old => takesOver s.unit old cursor
      if free then { s with scopes := s.scopes.bind scope name cursor } else s

/-- Leaves a use to be bound. -/
def addSite (cursor : Nat) (name : String) (scope : Nat) (binding : Binding) : Lower Unit :=
  modify fun s => { s with sites := s.sites.push { cursor, name, scope, binding } }

/-- Leaves a record without a body to be linked to its definition. -/
def addForward (cursor : Nat) (name : String) (scope : Nat) : Lower Unit :=
  modify fun s => { s with forwards := s.forwards.push { cursor, name, scope } }

/-- Notes the type of a value, if it is known. -/
def setType (cursor : Nat) (hint : Option TypeHint) : Lower Unit :=
  match hint with
  | some hint => modify fun s => { s with types := (cursor, hint) :: s.types }
  | none => pure ()

/-- What tells the record that a type names. -/
def typeHint? (here : Here) (type : SyntaxNode) : Option TypeHint :=
  (here.source.typeName? type).map fun name => .named name here.scope

/-- Leaves an expansion if a name is a macro, and tells whether it is. -/
def expandIfMacro (here : Here) (name : String) (token : SyntaxNode) : Lower Bool :=
  modifyGet fun s =>
    match s.macros.lookup name with
    | some definition =>
      let position := here.source.position token
      (true, { s with expansions := s.expansions.push { position, name, definition } })
    | none => (false, s)

/-- Adds the cursor of one expansion at the level of the unit. -/
def addExpansion (u : TranslationUnit) (e : Expansion) : TranslationUnit :=
  u.push 0
    { kind := .macroExpansion, spelling := e.name, position := e.position,
      referenced := some e.definition }

/-- Adds the cursors of the expansions left so far. -/
def flushExpansions : Lower Unit :=
  modify fun s => { s with unit := s.expansions.foldl addExpansion s.unit, expansions := #[] }

/-! ### Looking names up -/

/-- The record or namespace that names lead to from a scope. -/
def owner? (s : Lowering) (scope : Nat) : List String → Option Nat
  | [] => none
  | first :: rest =>
    (s.scopes.lookup scope first).bind fun start =>
      rest.foldlM
        (fun owner name => (s.memberScopes.lookup owner).bind fun inner =>
          s.scopes.named? inner name)
        start

/-- The scope that names lead to from a scope. -/
def qualifiedScope? (s : Lowering) (scope : Nat) (path : List String) : Option Nat :=
  if path.isEmpty then some Scopes.global
  else (s.owner? scope path).bind fun owner => s.memberScopes.lookup owner

/-- How many aliases are followed to find the record behind a value. -/
def maxAliases : Nat := 8

/-- The scope with the members of the record that a hint leads to, over at most this many
    cursors. -/
def hintScope? (s : Lowering) : Nat → TypeHint → Option Nat
  | 0, _ => none
  | n + 1, hint =>
    let cursor := match hint with
      | .named name scope => s.scopes.lookup scope name
      | .cursor id => some id
    cursor.bind fun id =>
      if (s.unit.kind id).isRecord then s.memberScopes.lookup id
      else (s.types.lookup id).bind (s.hintScope? n)

/-- The scope with the members of a value's record. -/
def recordScope? (s : Lowering) (value : Nat) : Option Nat :=
  (s.types.lookup value).bind (s.hintScope? maxAliases)

/-- The member that is meant by a name behind a value: one of the value's record, or else the first
    member of any record that is named so. -/
def member? (s : Lowering) (base : Option Nat) (name : String) : Option Nat :=
  let typed := (base.bind s.unit.referenced).bind fun value =>
    (s.recordScope? value).bind fun scope => s.scopes.named? scope name
  typed <|> s.scopes.anyMember? name

/-- The declaration that a use names. -/
def target? (s : Lowering) (site : UseSite) : Option Nat :=
  match site.binding with
  | .lexical => s.scopes.lookup site.scope site.name
  | .qualified path =>
    (s.qualifiedScope? site.scope path).bind fun scope => s.scopes.named? scope site.name
  | .member base => s.member? base site.name

/-! ### Binding -/

/-- Binds a use to its declaration; a scope in front of `::` turns out to be a type if it names a
    record, and a use without a declaration is not exposed. -/
def bindSite (s : Lowering) (site : UseSite) : Lowering :=
  match s.target? site with
  | some target =>
    let kind := fun (c : Cursor) =>
      if c.kind = .namespaceRef ∧ (s.unit.kind target).isRecord then CursorKind.typeRef else c.kind
    { s with unit := s.unit.modify site.cursor fun c =>
        { c with referenced := some target, kind := kind c } }
  | none => { s with unit := s.unit.modify site.cursor fun c => { c with kind := .unexposed } }

/-- Links a record without a body to its definition.  Classes and structs are followed through
    that link; other records name their definition, or themselves. -/
def linkForward (s : Lowering) (f : Forward) : Lowering :=
  let definition := (s.scopes.lookup f.scope f.name).filter fun d =>
    (s.unit.kind d).isRecord && s.unit.isDefinition d
  let followed := match s.unit.kind f.cursor with
    | .classDecl | .structDecl => true
    | _ => false
  { s with unit := s.unit.modify f.cursor fun c =>
      { c with
        definition := definition <|> c.definition
        referenced := if followed then c.referenced else some (definition.getD f.cursor) } }

/-- Binds all uses in the order they were met, then links the records without a body. -/
def bindAll (s : Lowering) : Lowering := s.forwards.foldl linkForward (s.sites.foldl bindSite s)

end Lowering

end SymbolAtlas
