import SymbolAtlas.Lowering.Headers
import SymbolAtlas.Lowering.Declarations

/-!
# Lowering items

The step for what stands at the level of a file, a namespace or a record: directives, namespaces
and declarations.  An include directive is expanded where it stands.
-/

set_option autoImplicit false

namespace SymbolAtlas

/-- What an item is. -/
inductive ItemForm where
  | inclusion
  | macroDefinition
  | directive
  | group
  | linkage
  | space
  | record
  | enumeration
  | function
  | declaration
  | typedefinition
  | typeAlias
  | template
  | other
deriving DecidableEq

/-- The form of a node that stands as an item. -/
def ItemForm.ofNode (n : SyntaxNode) : ItemForm :=
  match n.kind with
  | "preproc_include" => .inclusion
  | "preproc_def" | "preproc_function_def" => .macroDefinition
  | "preproc_call" => .directive
  | "preproc_ifdef" | "preproc_if" | "preproc_else" | "preproc_elif" | "preproc_elifdef"
  | "declaration_list" => .group
  | "linkage_specification" => .linkage
  | "namespace_definition" => .space
  | "class_specifier" | "struct_specifier" | "union_specifier" => .record
  | "enum_specifier" => .enumeration
  | "function_definition" => .function
  | "declaration" | "field_declaration" => .declaration
  | "type_definition" => .typedefinition
  | "alias_declaration" => .typeAlias
  | "template_declaration" => .template
  | _ => .other

namespace Descent

open Lowering

/-- Lowers an include directive: its cursor, then the items of the header if it is found, met for
    the first time and readable. -/
def inclusion (d : Descent) (headers : Headers) (n : SyntaxNode) (here : Here) : Lower Unit := do
  match n.child? .path with
  | none => pure ()
  | some token =>
    let name := Headers.spelledName (here.spelling token)
    discard (push here .inclusionDirective name n false)
    match headers.find? name (token.kind = "string_literal") here.source.path with
    | none => pure ()
    | some header =>
      if ← Headers.enter header (here.depth + 1) then
        match headers.load header with
        | some source => d.file { here with source, depth := here.depth + 1 }
        | none => pure ()

/-- Lowers a macro definition; it is in effect from here on. -/
def macroDefinition (n : SyntaxNode) (here : Here) : Lower Unit := do
  match n.child? .name with
  | some token =>
    let name := here.spelling token
    let id ← push here .macroDefinition name token true
    modify fun s => { s with macros := (name, id) :: s.macros }
  | none => pure ()

/-- Lowers a directive of another kind: an undefined macro is no longer in effect. -/
def directive (n : SyntaxNode) (here : Here) : Lower Unit :=
  let undefines := (n.child? .directive).any fun word => here.spelling word = "#undef"
  match undefines, n.child? .argument with
  | true, some argument =>
    let name := Text.strip (here.spelling argument)
    modify fun s => { s with macros := s.macros.filter fun m => m.1 != name }
  | _, _ => pure ()

/-- The scope of a namespace that stands in a scope already. -/
def reopened? (s : Lowering) (scope : Nat) (name : String) : Option Nat :=
  ((s.scopes.named? scope name).filter fun id => s.unit.kind id = .namespaceDecl).bind
    fun id => s.memberScopes.lookup id

/-- Lowers a namespace.  All parts of a named one share a scope. -/
def space (d : Descent) (n : SyntaxNode) (here : Here) : Lower Unit := do
  let token := n.child? .name
  let name := (token.map here.spelling).getD ""
  let id ← push here .namespaceDecl name (token.getD n) true
  let s ← get
  let scope ← match reopened? s here.scope name with
    | some scope => pure scope
    | none => openScope here.scope none
  setMembers id scope
  declare here.scope name id
  match n.child? .body with
  | some body => d.items body (here.within id scope)
  | none => pure ()

/-- Lowers an item. -/
def itemStep (d : Descent) (headers : Headers) (n : SyntaxNode) (here : Here) : Lower Unit :=
  match ItemForm.ofNode n with
  | .inclusion => d.inclusion headers n here
  | .macroDefinition => macroDefinition n here
  | .directive => directive n here
  | .group => d.items n here
  | .linkage =>
    match n.child? .body with
    | some body => if body.kind = "declaration_list" then d.items body here else d.item body here
    | none => pure ()
  | .space => d.space n here
  | .record => discard (d.record n here none true)
  | .enumeration => discard (d.enumeration n here)
  | .function => d.functionDefinition n here none
  | .declaration => d.declaration n here none
  | .typedefinition => d.typedefinition n here
  | .typeAlias => d.typeAlias n here
  | .template => d.template n here
  | .other => pure ()

end Descent

end SymbolAtlas
