import SymbolAtlas.Cursor
import SymbolAtlas.Syntax.Declarator

/-!
# Parsed sources

A `Source` is a file together with the syntax tree of its text.  Nodes are read through it: what
they spell, and where they stand.

Main facts: a node's line is one more than the line breaks in front of it, its column one more than
the bytes since the last of them (`Source.lineColumn_succ`).
-/

set_option autoImplicit false

namespace SymbolAtlas

/-- A file and the syntax tree of its text. -/
structure Source where
  path : Path
  text : String
  tree : SyntaxNode
deriving Inhabited

namespace Source

/-- What a node spells; nothing if its bytes are no text. -/
def spelling (s : Source) (n : SyntaxNode) : String :=
  (String.fromUTF8? (s.text.toUTF8.extract n.start n.stop)).getD ""

/-- The line and the column of a byte, both counted from 1. -/
def lineColumn (bytes : ByteArray) : Nat → Nat × Nat
  | 0 => (1, 1)
  | n + 1 =>
    let (line, column) := lineColumn bytes n
    if bytes[n]? = some 10 then (line + 1, 1) else (line, column + 1)

/-- Where a node begins. -/
def position (s : Source) (n : SyntaxNode) : Position :=
  let (line, column) := lineColumn s.text.toUTF8 n.start
  ⟨some s.path, line, column⟩

/-- The types of the parameters in a list, as they are written; a lone `void` is no parameter. -/
def parameterTypes (s : Source) (parameters : SyntaxNode) : List String :=
  let types := parameters.namedChildren.filterMap spelled
  if types = ["void"] then [] else types
where
  /-- The type of one parameter with its pointers and references; declarations without a type are
      left out. -/
  spelled (p : SyntaxNode) : Option String :=
    match p.kind with
    | "variadic_parameter" => some "..."
    | "parameter_declaration" | "optional_parameter_declaration"
    | "variadic_parameter_declaration" =>
      (p.child? .type).map fun type =>
        let qualified := if p.namedChildren.any (·.kind == "type_qualifier") then "const " else ""
        let suffix := ((p.child? .declarator).map Declarator.suffix).getD ""
        qualified ++ s.spelling type ++ if suffix.isEmpty then "" else " " ++ suffix
    | _ => none

/-- The name of the record, enumeration or alias that a type names. -/
def typeName? (s : Source) (type : SyntaxNode) : Option String :=
  match type.kind with
  | "type_identifier" => some (s.spelling type)
  | "qualified_identifier" | "template_type" => some (s.spelling type.nameToken)
  | "class_specifier" | "struct_specifier" | "union_specifier" | "enum_specifier" =>
    (type.child? .name).map fun name => s.spelling name.nameToken
  | _ => none

/-- A declaration carries a storage class. -/
def hasStorage (s : Source) (declaration : SyntaxNode) (keyword : String) : Bool :=
  declaration.namedChildren.any fun c =>
    c.kind == "storage_class_specifier" && s.spelling c == keyword

/-! ### Facts -/

theorem lineColumn_succ (bytes : ByteArray) (n : Nat) :
    lineColumn bytes (n + 1) =
      if bytes[n]? = some 10 then ((lineColumn bytes n).1 + 1, 1)
      else ((lineColumn bytes n).1, (lineColumn bytes n).2 + 1) := rfl

end Source

end SymbolAtlas
