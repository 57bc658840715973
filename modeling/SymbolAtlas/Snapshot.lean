import SymbolAtlas.Frontend.Syntax
import SymbolAtlas.Text.Json.Reader
import SymbolAtlas.Text.Numeral

/-!
# Snapshots

A snapshot is a JSON document that holds a workspace: its path, its files, and the syntax trees of
its sources.  A file has a path and either a text, a target it links to, or nothing more when it is
a directory.  A tree is an array of a kind, the places where it begins and ends, its roles, its
children, and its lists of roles; what is empty can be left out at the end.

Main facts: every role is known by its name (`Field.ofText?_text`).
-/

set_option autoImplicit false

namespace SymbolAtlas

open Text (Json)

namespace Field

/-- All roles. -/
def all : List Field := [
  .path, .name, .body, .type, .declarator, .directive, .argument, .parameters, .defaultValue,
  .value, .size, .arguments, .scope, .function, .field, .indices, .index, .right, .defaultType]

/-- The name of a role in a grammar. -/
def text : Field → String
  | .path => "path"
  | .name => "name"
  | .body => "body"
  | .type => "type"
  | .declarator => "declarator"
  | .directive => "directive"
  | .argument => "argument"
  | .parameters => "parameters"
  | .defaultValue => "default_value"
  | .value => "value"
  | .size => "size"
  | .arguments => "arguments"
  | .scope => "scope"
  | .function => "function"
  | .field => "field"
  | .indices => "indices"
  | .index => "index"
  | .right => "right"
  | .defaultType => "default_type"

/-- The role with a name. -/
def ofText? (s : String) : Option Field := all.find? (·.text == s)

theorem ofText?_text (f : Field) : ofText? f.text = some f := by
  cases f <;> decide +kernel

end Field

/-- A workspace at one moment. -/
structure Snapshot where
  workspace : Path
  files : FileSystem
  trees : List ((Language × String) × SyntaxNode)

namespace Snapshot

/-- A member of an object. -/
def member? (key : String) : Json → Option Json
  | .object members => members.lookup key
  | _ => none

/-- A text. -/
def text? : Json → Option String
  | .string s => some s
  | _ => none

/-- A number without sign, fraction or exponent. -/
def nat? : Json → Option Nat
  | .number s => Text.readDigits 0 s.toList
  | _ => none

/-- The items of an array. -/
def items? : Json → Option (List Json)
  | .array items => some items
  | _ => none

/-- A number, or an array of numbers. -/
def nats? : Json → Option (List Nat)
  | .array items => items.mapM nat?
  | j => (nat? j).map ([·])

/-- Roles with the indices of those who play them; unknown roles do not matter. -/
def roles? : Json → Option (List (Field × List Nat))
  | .object members =>
    (members.filterMap fun m => (Field.ofText? m.1).map (·, m.2)).mapM fun m =>
      (nats? m.2).map (m.1, ·)
  | _ => none

/-- The kind of a node as it is written, and whether the node is named: a quote stands before the
    kind of a bare token. -/
def kindOf (s : String) : String × Bool :=
  match s.toList with
  | '\'' :: rest => (String.ofList rest, false)
  | _ => (s, true)

/-- The node with these parts. -/
def node? (kind start stop : String) (first lists : List (Field × List Nat))
    (children : List SyntaxNode) : Option SyntaxNode := do
  let start ← nat? (.number start)
  let stop ← nat? (.number stop)
  pure (.node (kindOf kind).1 (kindOf kind).2 start stop first lists children)

mutual

/-- Reads a syntax tree. -/
def tree? : Json → Option SyntaxNode
  | .array [.string kind, .number start, .number stop] => node? kind start stop [] [] []
  | .array [.string kind, .number start, .number stop, first] => do
    let first ← roles? first
    node? kind start stop first [] []
  | .array [.string kind, .number start, .number stop, first, .array children] => do
    let first ← roles? first
    let children ← trees? children
    node? kind start stop first [] children
  | .array [.string kind, .number start, .number stop, first, .array children, lists] => do
    let first ← roles? first
    let children ← trees? children
    let lists ← roles? lists
    node? kind start stop first lists children
  | _ => none

/-- Reads several syntax trees. -/
def trees? : List Json → Option (List SyntaxNode)
  | [] => some []
  | j :: js => do
    let t ← tree? j
    let ts ← trees? js
    pure (t :: ts)

end

/-- Reads what a file is. -/
def entry? (j : Json) : Option Entry :=
  match (member? "text" j).bind text?, (member? "link" j).bind text? with
  | some text, _ =>
    let seconds := ((member? "modified" j).bind nat?).getD 0
    some (.file text.toUTF8 { seconds })
  | none, some target => some (.link ⟨target⟩)
  | none, none => some .directory

/-- Reads the syntax trees of a file. -/
def fileTrees? (j : Json) : Option (List ((Language × String) × SyntaxNode)) :=
  match member? "trees" j with
  | some (.object members) => do
    let text ← (member? "text" j).bind text?
    members.mapM fun m => do
      let language ← (Language.ofName m.1).toOption
      let tree ← tree? m.2
      pure ((language, text), tree)
  | _ => some []

/-- The names among the components of a path. -/
def namesOf (p : Path) : List String :=
  p.parts.filterMap fun
    | .name s => some s
    | _ => none

/-- Reads a snapshot. -/
def ofJson? (j : Json) : Option Snapshot := do
  let workspace ← (member? "workspace" j).bind text?
  let entries ← (member? "files" j).bind items?
  let start : FileSystem := { cwd := namesOf ⟨workspace⟩ }
  let start := (start.createDirAll ⟨workspace⟩).2
  let files ← entries.foldlM
    (fun fs e => do
      let path ← (member? "path" e).bind text?
      let entry ← entry? e
      pure (fs.install ⟨path⟩ entry))
    start
  let trees ← entries.mapM fileTrees?
  pure { workspace := ⟨workspace⟩, files, trees := trees.flatten }

/-- Reads the text of a snapshot. -/
def parse? (s : String) : Option Snapshot := (Json.parse? s).bind ofJson?

/-- The grammar that knows the trees of a snapshot; every other text is an error. -/
def grammar (s : Snapshot) : Grammar := fun language text =>
  ((s.trees.find? fun t => t.1.1 = language && t.1.2 == text).map (·.2)).getD default

/-- The files that were written since the snapshot. -/
def written (s : Snapshot) (files : FileSystem) : List (Path × ByteArray) :=
  files.entries.filterMap fun e =>
    match e.2 with
    | .file bytes stamp =>
      match s.files.find? e.1 with
      | some (.file _ before) => if stamp = before then none else some (.ofNames e.1, bytes)
      | _ => some (.ofNames e.1, bytes)
    | _ => none

end Snapshot

end SymbolAtlas
