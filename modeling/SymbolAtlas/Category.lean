import SymbolAtlas.Cursor

/-!
# Categories

What a node of the symbol graph is.  A cursor's kind decides its category; a record without a body
counts as a reference to the record's definition, and a method is a declaration or a definition.

Main facts: every category is known by its name (`Category.ofName?_name`), and a use is a reference
whether or not it is marked as a definition (`Category.ofCursor_of_isReference`).
-/

set_option autoImplicit false

namespace SymbolAtlas

/-- What a node of the symbol graph is. -/
inductive Category where
  | root
  | namespaceScope
  | classType
  | structType
  | unionType
  | enumType
  | enumerator
  | function
  | methodDeclaration
  | methodDefinition
  | field
  | variable
  | parameter
  | typedef
  | classTemplate
  | functionTemplate
  | macroDefinition
  | reference
  /-- Cursors that never become nodes: statements, calls, the unit itself. -/
  | invalid
deriving DecidableEq, Repr, Inhabited

namespace Category

/-- All categories in their order. -/
def all : List Category := [
  .root, .namespaceScope, .classType, .structType, .unionType, .enumType, .enumerator, .function,
  .methodDeclaration, .methodDefinition, .field, .variable, .parameter, .typedef, .classTemplate,
  .functionTemplate, .macroDefinition, .reference, .invalid]

/-- The name shown for a category. -/
def name : Category → String
  | .root => "root"
  | .namespaceScope => "namespace"
  | .classType => "class"
  | .structType => "struct"
  | .unionType => "union"
  | .enumType => "enum"
  | .enumerator => "enumerator"
  | .function => "function"
  | .methodDeclaration => "method_declaration"
  | .methodDefinition => "method_definition"
  | .field => "field"
  | .variable => "variable"
  | .parameter => "parameter"
  | .typedef => "typedef"
  | .classTemplate => "class_template"
  | .functionTemplate => "function_template"
  | .macroDefinition => "macro_definition"
  | .reference => "reference"
  | .invalid => "invalid"

/-- The category with a name. -/
def ofName? (s : String) : Option Category := all.find? (·.name == s)

/-- The category of a cursor. -/
def ofCursor (kind : CursorKind) (isDefinition : Bool) : Category :=
  match kind with
  | .namespaceDecl => .namespaceScope
  | .classDecl => if isDefinition then .classType else .reference
  | .structDecl => if isDefinition then .structType else .reference
  | .unionDecl => if isDefinition then .unionType else .reference
  | .classTemplate => if isDefinition then .classTemplate else .reference
  | .enumDecl => .enumType
  | .enumConstantDecl => .enumerator
  | .functionDecl => .function
  | .functionTemplate => .functionTemplate
  | .method | .constructor | .destructor =>
    if isDefinition then .methodDefinition else .methodDeclaration
  | .fieldDecl => .field
  | .varDecl => .variable
  | .parmDecl => .parameter
  | .typedefDecl => .typedef
  | .macroDefinition => .macroDefinition
  | .typeRef | .templateRef | .namespaceRef | .memberRef | .declRefExpr | .memberRefExpr
  | .macroExpansion => .reference
  | .translationUnit | .templateTypeParameter | .nonTypeTemplateParameter | .inclusionDirective
  | .callExpr | .compoundStmt | .unexposed => .invalid

/-- The node is a use of something declared elsewhere. -/
def isReference : Category → Bool
  | .reference => true
  | _ => false

theorem ofName?_name (c : Category) : ofName? c.name = some c := by
  cases c <;> decide +kernel

theorem ofCursor_of_isReference {k : CursorKind} (h : k.isReference = true) (d : Bool) :
    ofCursor k d = .reference := by
  cases k <;> simp_all [CursorKind.isReference, ofCursor]

end Category

end SymbolAtlas
