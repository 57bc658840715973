import SymbolAtlas.Lowering.State

/-!
# Lowering names and types

`Descent` holds the ways to lower the nodes below the one at hand; each step of a lowering is
written against it and hands over strict descendants only.  This module has the steps for names:
plain, qualified and templated ones, in types and in expressions.
-/

set_option autoImplicit false

namespace SymbolAtlas

/-- Ways to lower what lies below a node. -/
structure Descent where
  /-- Lowers the items of a whole file. -/
  file : Here → Lower Unit
  /-- Lowers an item: a declaration, a definition or a directive. -/
  item : SyntaxNode → Here → Lower Unit
  /-- Lowers the names in a type. -/
  type : SyntaxNode → Here → Lower Unit
  /-- Lowers a statement or an expression, and tells the cursor that names its value. -/
  expr : SyntaxNode → Here → Lower (Option Nat)

/-- Lowers nothing. -/
def Descent.idle : Descent where
  file _ := pure ()
  item _ _ := pure ()
  type _ _ := pure ()
  expr _ _ := pure none

namespace Descent

open Lowering

/-- A use of a type by its bare name, unless the name is a macro. -/
def typeReference (token : SyntaxNode) (here : Here) : Lower Unit := do
  let name := here.spelling token
  if ← expandIfMacro here name token then return
  let id ← push here .typeRef name token false
  addSite id name here.scope .lexical

/-- Lowers the arguments of a template: types as types, everything else as expressions. -/
def templateArguments (d : Descent) (arguments : SyntaxNode) (here : Here) : Lower Unit :=
  arguments.namedChildren.forM fun a =>
    if a.kind = "type_descriptor" then d.type a here else discard (d.expr a here)

/-- Lowers the template arguments that a node carries, if it carries any. -/
def argumentsOf (d : Descent) (n : SyntaxNode) (here : Here) : Lower Unit :=
  match n.child? .arguments with
  | some arguments => d.templateArguments arguments here
  | none => pure ()

/-- A use of a class template with its arguments. -/
def templateReference (d : Descent) (n : SyntaxNode) (here : Here) : Lower Unit := do
  match n.child? .name with
  | some token =>
    let name := here.spelling token
    let id ← push here .templateRef name token false
    addSite id name here.scope .lexical
  | none => pure ()
  d.argumentsOf n here

/-- What a scope in front of `::` is taken for before it is bound. -/
def qualifierKind (scope : SyntaxNode) : CursorKind :=
  match scope.kind with
  | "namespace_identifier" => .namespaceRef
  | "template_type" => .templateRef
  | _ => .typeRef

/-- Uses of the scopes in front of a name; each is found through those before it.  `path` names
    the scopes already passed; the names of all of them are handed back. -/
def qualifiers (d : Descent) (here : Here) (path : List String) :
    List SyntaxNode → Lower (List String)
  | [] => pure path
  | scope :: rest => do
    let token := scope.nameToken
    let name := here.spelling token
    let id ← push here (qualifierKind scope) name token false
    addSite id name here.scope (if path.isEmpty then .lexical else .qualified path)
    d.argumentsOf scope here
    d.qualifiers here (path ++ [name]) rest

/-- A use of a qualified name, after the uses of the scopes in front of it. -/
def qualifiedReference (d : Descent) (n : SyntaxNode) (here : Here) (kind : CursorKind) :
    Lower (Option Nat) := do
  let (scopes, last) := n.splitQualified
  let path ← d.qualifiers here [] scopes
  let token := last.nameToken
  let name := here.spelling token
  if name.isEmpty then return none
  let id ← push here kind name token false
  addSite id name here.scope (.qualified path)
  d.argumentsOf last here
  return some id

end Descent

end SymbolAtlas
