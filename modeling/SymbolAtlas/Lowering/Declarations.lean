import SymbolAtlas.Lowering.Names

/-!
# Lowering declarations

The steps for records, enumerations, functions, variables, aliases and templates.  A declaration's
cursor comes first and receives what belongs to it: types, bounds, values, members.
-/

set_option autoImplicit false

namespace SymbolAtlas

namespace SyntaxNode

/-- The node spells a class, struct or union. -/
def isRecordSpecifier (n : SyntaxNode) : Bool :=
  n.kind ∈ ["class_specifier", "struct_specifier", "union_specifier"]

/-- The node declares a parameter. -/
def isParameter (n : SyntaxNode) : Bool :=
  n.kind ∈ ["parameter_declaration", "optional_parameter_declaration",
    "variadic_parameter_declaration"]

/-- The node carries a body. -/
def hasBody (n : SyntaxNode) : Bool := (n.child? .body).isSome

end SyntaxNode

namespace Descent

open Lowering

/-- Lowers the items inside a node.  At the level of the unit the expansions of each item follow
    it. -/
def items (d : Descent) (n : SyntaxNode) (here : Here) : Lower Unit :=
  n.namedChildren.forM fun c => do
    d.item c here
    if here.parent = 0 then flushExpansions

/-- Lowers a block and the statements in it, in a scope of its own. -/
def block (d : Descent) (n : SyntaxNode) (here : Here) : Lower Unit := do
  let id ← push here .compoundStmt "" n false
  let scope ← openScope here.scope none
  n.namedChildren.forM fun c => discard (d.expr c (here.within id scope))

/-- Lowers a type if there is one. -/
def typeOf (d : Descent) (type : Option SyntaxNode) (here : Here) : Lower Unit :=
  match type with
  | some type => d.type type here
  | none => pure ()

/-- Lowers a value if there is one. -/
def valueOf (d : Descent) (value : Option SyntaxNode) (here : Here) : Lower Unit :=
  match value with
  | some value => discard (d.expr value here)
  | none => pure ()

/-- Declares a cursor of a kind at a token, under the name that the token spells. -/
def declareNamed (here : Here) (kind : CursorKind) (token : SyntaxNode)
    (isDefinition : Bool := true) : Lower Nat := do
  let name := here.spelling token
  let id ← push here kind name token isDefinition
  declare here.scope name id
  return id

/-! ### Templates -/

/-- Lowers one template parameter. -/
def templateParameter (d : Descent) (p : SyntaxNode) (here : Here) : Lower Unit := do
  match p.kind with
  | "type_parameter_declaration" | "variadic_type_parameter_declaration" =>
    match p.namedChildren.find? (·.kind == "type_identifier") with
    | some token => discard (declareNamed here .templateTypeParameter token)
    | none => pure ()
  | "optional_type_parameter_declaration" =>
    match p.child? .name with
    | some token =>
      let id ← declareNamed here .templateTypeParameter token
      d.typeOf (p.child? .defaultType) (here.under id)
    | none => pure ()
  | _ =>
    if p.isParameter then
      match p.declarator? with
      | some shape =>
        let id ← declareNamed here .nonTypeTemplateParameter shape.name
        d.typeOf (p.child? .type) (here.under id)
      | none => pure ()

/-- Lowers the parameter list of a template, if there is one. -/
def templateParameters (d : Descent) (list : Option SyntaxNode) (here : Here) : Lower Unit :=
  match list with
  | some list => list.namedChildren.forM fun p => d.templateParameter p here
  | none => pure ()

/-! ### Records and enumerations -/

/-- What a record specifier declares. -/
def recordKind (n : SyntaxNode) (template : Option SyntaxNode) : CursorKind :=
  if template.isSome then .classTemplate
  else match n.kind with
    | "struct_specifier" => .structDecl
    | "union_specifier" => .unionDecl
    | _ => .classDecl

/-- Lowers a class, struct or union and tells its cursor.  Without a body it is a declaration if it
    stands alone, and a use of the type otherwise. -/
def record (d : Descent) (n : SyntaxNode) (here : Here) (template : Option SyntaxNode)
    (standalone : Bool) : Lower (Option Nat) := do
  let kind := recordKind n template
  let token := (n.child? .name).map (·.nameToken)
  let name := (token.map here.spelling).getD ""
  match n.child? .body, token with
  | some body, _ =>
    let id ← push here kind name (token.getD n) true
    declare here.scope name id
    let scope ← openScope here.scope (some name)
    setMembers id scope
    let inside := here.within id scope
    d.templateParameters template inside
    (n.namedChildren.filter (·.kind == "base_class_clause")).forM fun clause =>
      clause.namedChildren.forM fun base => d.type base inside
    d.items body inside
    return some id
  | none, some token =>
    if standalone then
      let id ← declareNamed here kind token false
      addForward id name here.scope
      return some id
    else
      typeReference token here
      return none
  | none, none => return none

/-- Lowers one enumerator.  Its name is visible around the enumeration. -/
def enumerator (d : Descent) (n : SyntaxNode) (here : Here) : Lower Unit := do
  match n.child? .name with
  | some token =>
    let id ← declareNamed here .enumConstantDecl token
    d.valueOf (n.child? .value) (here.under id)
  | none => pure ()

/-- Lowers an enumeration and tells its cursor.  Without a body it is a use of the type. -/
def enumeration (d : Descent) (n : SyntaxNode) (here : Here) : Lower (Option Nat) := do
  let token := (n.child? .name).map (·.nameToken)
  match n.child? .body with
  | some body =>
    let name := (token.map here.spelling).getD ""
    let id ← push here .enumDecl name (token.getD n) true
    declare here.scope name id
    (body.namedChildren.filter (·.kind == "enumerator")).forM fun e =>
      d.enumerator e (here.under id)
    return some id
  | none =>
    match token with
    | some token => typeReference token here
    | none => pure ()
    return none

/-- Lowers a type that defines a record or an enumeration, and tells its cursor; other types define
    nothing. -/
def definedType (d : Descent) (type : SyntaxNode) (here : Here) (template : Option SyntaxNode)
    (standalone : Bool) : Lower (Option Nat) :=
  if type.isRecordSpecifier then d.record type here template standalone
  else if type.kind = "enum_specifier" then d.enumeration type here
  else pure none

/-! ### Functions -/

/-- The parts of a function declaration or definition. -/
structure Callable where
  /-- The declarator with the parameter list. -/
  declarator : SyntaxNode
  name : SyntaxNode
  returnType : Option SyntaxNode := none
  body : Option SyntaxNode := none
  /-- The list that initialises the members of a constructor. -/
  initialisers : Option SyntaxNode := none
  /-- The parameters of a function template. -/
  template : Option SyntaxNode := none

/-- What a function is: `record` names the record that it belongs to, by the qualifier of its name
    or by the scope around it. -/
def callableKind (name : String) (last : SyntaxNode) (record : Option String)
    (isTemplate : Bool) : CursorKind :=
  if isTemplate then .functionTemplate
  else match record with
    | some r =>
      if last.kind = "destructor_name" then .destructor
      else if r = name then .constructor
      else .method
    | none => .functionDecl

/-- Lowers one parameter. -/
def parameter (d : Descent) (p : SyntaxNode) (here : Here) : Lower Unit := do
  let type := p.child? .type
  match p.declarator? with
  | none => d.typeOf type here
  | some shape =>
    let id ← declareNamed here .parmDecl shape.name
    setType id (type.bind (typeHint? here))
    d.typeOf type (here.under id)
    d.valueOf (p.child? .defaultValue) (here.under id)

/-- Lowers the parameters in a list. -/
def parameters (d : Descent) (list : Option SyntaxNode) (here : Here) : Lower Unit :=
  match list with
  | some list => (list.namedChildren.filter (·.isParameter)).forM fun p => d.parameter p here
  | none => pure ()

/-- Lowers a part of a member initialiser: the member or base, or an argument. -/
def initialiserPart (d : Descent) (n : SyntaxNode) (here : Here) : Lower Unit := do
  match n.kind with
  | "field_identifier" =>
    let name := here.spelling n
    let id ← push here .memberRef name n false
    addSite id name here.scope .lexical
  | "type_identifier" | "qualified_identifier" | "template_type" => d.type n here
  | _ => discard (d.expr n here)

/-- Lowers a list of member initialisers. -/
def initialisers (d : Descent) (list : Option SyntaxNode) (here : Here) : Lower Unit :=
  match list with
  | some list =>
    list.namedChildren.forM fun i => i.namedChildren.forM fun part => d.initialiserPart part here
  | none => pure ()

/-- Lowers a function.  A qualified name makes the record or namespace in front its owner: the
    function is declared there, and its body sees the names there. -/
def callable (d : Descent) (c : Callable) (here : Here) : Lower Unit := do
  let (scopes, last) := c.name.splitQualified
  let name := here.spelling last.nameToken
  let s ← get
  let owner := s.owner? here.scope (scopes.map fun q => here.spelling q.nameToken)
  let ownerRecord := owner.filter fun o => (s.unit.kind o).isRecord
  let record := match ownerRecord with
    | some o => some (s.unit.spelling o)
    | none => (s.scopes.scope here.scope).record
  let ownerIsTemplate := ownerRecord.any fun o => s.unit.kind o = .classTemplate
  let kind := callableKind name last record (c.template.isSome && !ownerIsTemplate)
  let list := c.declarator.child? .parameters
  let types := (list.map here.source.parameterTypes).getD []
  let display := name ++ "(" ++ ", ".intercalate types ++ ")"
  let id ← push here kind name last.nameToken c.body.isSome (some display)
  modify fun s => { s with unit := s.unit.modify id fun f =>
    { f with semanticParent := owner <|> f.semanticParent } }
  let outer := (owner.bind fun o => s.memberScopes.lookup o).getD here.scope
  declare outer name id
  let scope ← openScope outer none
  let inside := here.within id scope
  d.templateParameters c.template inside
  d.typeOf c.returnType inside
  discard (d.qualifiers inside [] scopes)
  d.parameters list inside
  d.initialisers c.initialisers inside
  match c.body with
  | some body => d.block body inside
  | none => pure ()

/-- Lowers a function definition; one that declares no function is left out. -/
def functionDefinition (d : Descent) (n : SyntaxNode) (here : Here)
    (template : Option SyntaxNode) : Lower Unit :=
  match n.declarator? with
  | some { name, function := some declarator, .. } =>
    d.callable
      { declarator, name, template
        returnType := n.child? .type
        body := n.child? .body
        initialisers := n.namedChildren.find? (·.kind == "field_initializer_list") }
      here
  | _ => pure ()

/-! ### Variables and fields -/

/-- What all declarators of one declaration share. -/
structure DeclaredAs where
  /-- What a declared variable is. -/
  kind : CursorKind
  isDefinition : Bool
  /-- The type in front, unless the declaration defines it. -/
  type : Option SyntaxNode
  hint : Option TypeHint
  template : Option SyntaxNode

/-- Lowers one declarator of a declaration, and tells the cursor of the last variable declared;
    functions are passed over. -/
def declarator (d : Descent) (shared : DeclaredAs) (here : Here) (last : Option Nat)
    (n : SyntaxNode) : Lower (Option Nat) := do
  match Declarator.ofNode? n with
  | none => return last
  | some shape =>
    match shape.function with
    | some function =>
      d.callable
        { declarator := function, name := shape.name, returnType := shared.type
          template := shared.template }
        here
      return last
    | none =>
      let id ← declareNamed here shared.kind shape.name.nameToken shared.isDefinition
      setType id shared.hint
      d.typeOf shared.type (here.under id)
      shape.sizes.forM fun size => discard (d.expr size (here.under id))
      d.valueOf shape.value (here.under id)
      return some id

/-- Lowers a declaration of variables, fields or functions.  A record or enumeration that it
    defines is lowered first. -/
def declaration (d : Descent) (n : SyntaxNode) (here : Here) (template : Option SyntaxNode) :
    Lower Unit := do
  let type := n.child? .type
  let declarators := n.fieldChildren .declarator
  let defined ← match type with
    | some t =>
      if declarators.isEmpty || t.hasBody then d.definedType t here template declarators.isEmpty
      else pure none
    | none => pure none
  let s ← get
  let inRecord := (s.scopes.scope here.scope).record.isSome
  let isStatic := here.source.hasStorage n "static"
  let isField := n.kind = "field_declaration" && inRecord && !isStatic
  let shared : DeclaredAs :=
    { kind := if isField then .fieldDecl else .varDecl
      isDefinition := !here.source.hasStorage n "extern"
      type := if defined.isNone then type else none
      hint := match defined with
        | some id => some (.cursor id)
        | none => type.bind (typeHint? here)
      template }
  let last ← declarators.foldlM (d.declarator shared here) none
  match last with
  | some id => d.valueOf (n.child? .defaultValue) (here.under id)
  | none => pure ()

/-! ### Aliases and templates -/

/-- Lowers a type definition.  A record or enumeration that it defines is lowered first. -/
def typedefinition (d : Descent) (n : SyntaxNode) (here : Here) : Lower Unit := do
  let type := n.child? .type
  let defined ← match type with
    | some t => if t.hasBody then d.definedType t here none false else pure none
    | none => pure none
  let hint := match defined with
    | some id => some (.cursor id)
    | none => type.bind (typeHint? here)
  (n.fieldChildren .declarator).forM fun c => do
    match Declarator.ofNode? c with
    | some shape =>
      let id ← declareNamed here .typedefDecl shape.name
      setType id hint
      if defined.isNone then d.typeOf type (here.under id)
    | none => pure ()

/-- Lowers an alias declaration. -/
def typeAlias (d : Descent) (n : SyntaxNode) (here : Here) : Lower Unit := do
  match n.child? .name with
  | some token =>
    let id ← declareNamed here .typedefDecl token
    match n.child? .type with
    | some type =>
      setType id ((type.child? .type).bind (typeHint? here))
      d.type type (here.under id)
    | none => pure ()
  | none => pure ()

/-- Lowers a template: its parameters belong to the record or function it declares. -/
def template (d : Descent) (n : SyntaxNode) (here : Here) : Lower Unit :=
  let parameters := n.child? .parameters
  match (n.namedChildren.filter (·.kind != "template_parameter_list")).getLast? with
  | none => pure ()
  | some item =>
    if item.isRecordSpecifier then discard (d.record item here parameters true)
    else match item.kind with
      | "function_definition" => d.functionDefinition item here parameters
      | "declaration" | "field_declaration" => d.declaration item here parameters
      | _ => d.item item here

end Descent

end SymbolAtlas
