import SymbolAtlas.Lowering.Declarations

/-!
# Lowering types, statements and expressions

The steps for what stands inside a declaration.  Every use of a name becomes a cursor; a step on an
expression tells the cursor that names the expression's value, so that a member access can find the
record it looks into.
-/

set_option autoImplicit false

namespace SymbolAtlas

/-- What a type is. -/
inductive TypeForm where
  | name
  | qualified
  | templated
  | record
  | enumeration
  | descriptor
  | nameless
  | compound
deriving DecidableEq

/-- The form of a node that stands as a type. -/
def TypeForm.ofNode (n : SyntaxNode) : TypeForm :=
  match n.kind with
  | "type_identifier" => .name
  | "qualified_identifier" => .qualified
  | "template_type" => .templated
  | "class_specifier" | "struct_specifier" | "union_specifier" => .record
  | "enum_specifier" => .enumeration
  | "type_descriptor" => .descriptor
  | "primitive_type" | "sized_type_specifier" | "auto" | "placeholder_type_specifier"
  | "type_qualifier" => .nameless
  | _ => .compound

/-- What a statement or an expression is. -/
inductive ExprForm where
  | name
  | qualified
  | member
  | call
  | templated
  | parenthesized
  | element
  | rangeLoop
  | closure
  | block
  | declaration
  | type
  | leaf
  | compound
deriving DecidableEq

/-- The form of a node that stands as a statement or an expression. -/
def ExprForm.ofNode (n : SyntaxNode) : ExprForm :=
  match n.kind with
  | "identifier" => .name
  | "qualified_identifier" => .qualified
  | "field_expression" => .member
  | "call_expression" => .call
  | "template_function" => .templated
  | "parenthesized_expression" => .parenthesized
  | "pointer_expression" | "subscript_expression" => .element
  | "for_range_loop" => .rangeLoop
  | "lambda_expression" => .closure
  | "compound_statement" => .block
  | "declaration" => .declaration
  | "type_descriptor" | "type_identifier" | "template_type" => .type
  | "this" | "string_literal" | "raw_string_literal" | "concatenated_string" | "number_literal"
  | "char_literal" | "true" | "false" | "null" | "nullptr" | "comment" | "field_identifier"
  | "statement_identifier" | "primitive_type" => .leaf
  | _ => .compound

namespace Descent

open Lowering

/-- Lowers a type. -/
def typeStep (d : Descent) (n : SyntaxNode) (here : Here) : Lower Unit :=
  match TypeForm.ofNode n with
  | .name => typeReference n here
  | .qualified => discard (d.qualifiedReference n here .typeRef)
  | .templated => d.templateReference n here
  | .record => discard (d.record n here none false)
  | .enumeration => discard (d.enumeration n here)
  | .descriptor => d.typeOf (n.child? .type) here
  | .nameless => pure ()
  | .compound => n.namedChildren.forM fun c => d.type c here

/-- Lowers an expression if there is one, and tells the cursor that names its value. -/
def exprOf (d : Descent) (n : Option SyntaxNode) (here : Here) : Lower (Option Nat) :=
  match n with
  | some n => d.expr n here
  | none => pure none

/-- Lowers a plain name, unless it is a macro. -/
def nameUse (n : SyntaxNode) (here : Here) : Lower (Option Nat) := do
  let name := here.spelling n
  if ← expandIfMacro here name n then return none
  let id ← push here .declRefExpr name n false
  addSite id name here.scope .lexical
  return some id

/-- Lowers a member access: the value in front, then the member beside it.  A member of the object
    itself is looked up like a plain name. -/
def memberUse (d : Descent) (n : SyntaxNode) (here : Here) : Lower (Option Nat) := do
  match n.child? .field with
  | none => return none
  | some field =>
    let token := field.nameToken
    let name := here.spelling token
    let argument := n.child? .argument
    let base ← d.exprOf argument here
    let id ← push here .memberRefExpr name token false
    let own := argument.any fun a => a.kind = "this"
    addSite id name here.scope (if own then .lexical else .member base)
    return some id

/-- Lowers a call: the function called and the arguments stand under the call. -/
def call (d : Descent) (n : SyntaxNode) (here : Here) : Lower Unit := do
  match n.child? .function with
  | none => pure ()
  | some function =>
    let id ← push here .callExpr (here.spelling function.calleeToken) function false
    discard (d.expr function (here.under id))
    discard (d.exprOf (n.child? .arguments) (here.under id))

/-- Lowers a loop over a range.  Its variable is declared around it. -/
def rangeLoop (d : Descent) (n : SyntaxNode) (here : Here) : Lower Unit := do
  let type := n.child? .type
  match n.declarator? with
  | some shape =>
    let id ← declareNamed here .varDecl shape.name
    setType id (type.bind (typeHint? here))
    d.typeOf type (here.under id)
  | none => pure ()
  discard (d.exprOf (n.child? .right) here)
  discard (d.exprOf (n.child? .body) here)

/-- Lowers a statement or an expression, and tells the cursor that names its value. -/
def exprStep (d : Descent) (n : SyntaxNode) (here : Here) : Lower (Option Nat) := do
  match ExprForm.ofNode n with
  | .name => nameUse n here
  | .qualified => d.qualifiedReference n here .declRefExpr
  | .member => d.memberUse n here
  | .call =>
    d.call n here
    return none
  | .templated =>
    let value ← d.exprOf (n.child? .name) here
    d.argumentsOf n here
    return value
  | .parenthesized => n.namedChildren.foldlM (fun _ c => d.expr c here) none
  | .element =>
    let value ← d.exprOf (n.child? .argument) here
    (n.fieldChildren .indices).forM fun i => discard (d.expr i here)
    discard (d.exprOf (n.child? .index) here)
    return value
  | .rangeLoop =>
    d.rangeLoop n here
    return none
  | .closure =>
    match n.child? .body with
    | some body => d.block body here
    | none => pure ()
    return none
  | .block =>
    d.block n here
    return none
  | .declaration =>
    d.declaration n here none
    return none
  | .type =>
    d.typeStep n here
    return none
  | .leaf => return none
  | .compound =>
    n.namedChildren.forM fun c => discard (d.expr c here)
    return none

end Descent

end SymbolAtlas
