import SymbolAtlas.Location

/-!
# Cursors

A parser presents a file as cursors: one for every declaration, use and statement it
distinguishes, each with a kind, a spelling and a position.

Main facts: every kind is known by its name (`CursorKind.ofName?_name`).
-/

set_option autoImplicit false

namespace SymbolAtlas

/-- What a cursor stands for. -/
inductive CursorKind where
  | translationUnit
  | namespaceDecl
  | classDecl
  | structDecl
  | unionDecl
  | enumDecl
  | enumConstantDecl
  | functionDecl
  | method
  | constructor
  | destructor
  | fieldDecl
  | varDecl
  | parmDecl
  | typedefDecl
  | classTemplate
  | functionTemplate
  | templateTypeParameter
  | nonTypeTemplateParameter
  | macroDefinition
  | macroExpansion
  | inclusionDirective
  | typeRef
  | templateRef
  | namespaceRef
  | memberRef
  | declRefExpr
  | memberRefExpr
  | callExpr
  | compoundStmt
  | unexposed
deriving DecidableEq, Repr, Inhabited

namespace CursorKind

/-- All kinds. -/
def all : List CursorKind := [
  .translationUnit, .namespaceDecl, .classDecl, .structDecl, .unionDecl, .enumDecl,
  .enumConstantDecl, .functionDecl, .method, .constructor, .destructor, .fieldDecl, .varDecl,
  .parmDecl, .typedefDecl, .classTemplate, .functionTemplate, .templateTypeParameter,
  .nonTypeTemplateParameter, .macroDefinition, .macroExpansion, .inclusionDirective, .typeRef,
  .templateRef, .namespaceRef, .memberRef, .declRefExpr, .memberRefExpr, .callExpr, .compoundStmt,
  .unexposed]

/-- The name shown for a kind. -/
def name : CursorKind → String
  | .translationUnit => "TranslationUnit"
  | .namespaceDecl => "Namespace"
  | .classDecl => "ClassDecl"
  | .structDecl => "StructDecl"
  | .unionDecl => "UnionDecl"
  | .enumDecl => "EnumDecl"
  | .enumConstantDecl => "EnumConstantDecl"
  | .functionDecl => "FunctionDecl"
  | .method => "CXXMethod"
  | .constructor => "Constructor"
  | .destructor => "Destructor"
  | .fieldDecl => "FieldDecl"
  | .varDecl => "VarDecl"
  | .parmDecl => "ParmDecl"
  | .typedefDecl => "TypedefDecl"
  | .classTemplate => "ClassTemplate"
  | .functionTemplate => "FunctionTemplate"
  | .templateTypeParameter => "TemplateTypeParameter"
  | .nonTypeTemplateParameter => "NonTypeTemplateParameter"
  | .macroDefinition => "MacroDefinition"
  | .macroExpansion => "MacroExpansion"
  | .inclusionDirective => "InclusionDirective"
  | .typeRef => "TypeRef"
  | .templateRef => "TemplateRef"
  | .namespaceRef => "NamespaceRef"
  | .memberRef => "MemberRef"
  | .declRefExpr => "DeclRefExpr"
  | .memberRefExpr => "MemberRefExpr"
  | .callExpr => "CallExpr"
  | .compoundStmt => "CompoundStmt"
  | .unexposed => "Unexposed"

/-- The kind with a name. -/
def ofName? (s : String) : Option CursorKind := all.find? (·.name == s)

/-- Class-like declarations, which define something only when they carry a body. -/
def isRecord : CursorKind → Bool
  | .classDecl | .structDecl | .unionDecl | .classTemplate => true
  | _ => false

/-- Members that are functions. -/
def isMethod : CursorKind → Bool
  | .method | .constructor | .destructor => true
  | _ => false

/-- Cursors that name something declared elsewhere. -/
def isReference : CursorKind → Bool
  | .typeRef | .templateRef | .namespaceRef | .memberRef | .declRefExpr | .memberRefExpr
  | .macroExpansion => true
  | _ => false

theorem ofName?_name (k : CursorKind) : ofName? k.name = some k := by
  cases k <;> decide +kernel

end CursorKind

/-- One cursor of a unit.  Links to other cursors are their numbers in the unit. -/
structure Cursor where
  kind : CursorKind
  spelling : String
  displayName : Option String := none
  position : Position
  isDefinition : Bool := false
  /-- The cursor this one stands inside. -/
  parent : Option Nat := none
  /-- The parent told to visitors instead of `parent`. -/
  reportedParent : Option Nat := none
  /-- The cursor that owns this one by meaning, if it differs from `parent`. -/
  semanticParent : Option Nat := none
  /-- The cursor this one names. -/
  referenced : Option Nat := none
  /-- The definition of what this cursor declares. -/
  definition : Option Nat := none
deriving Inhabited

end SymbolAtlas
