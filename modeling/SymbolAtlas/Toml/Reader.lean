import SymbolAtlas.Toml.Table
import SymbolAtlas.Toml.Token

/-!
# Reading TOML documents

A document is a row of lines: keys with values, and headers that open the tables the following keys
belong to.
-/

set_option autoImplicit false

namespace SymbolAtlas.Toml

/-- Arrays, tables and keys nest less deeply than this. -/
def maxDepth : Nat := 80

mutual

/-- Reads a value that may nest this deeply.  The first number bounds the steps of the reader. -/
def readValue : Nat → Nat → List Char → Option (Reading Value)
  | 0, _, _ => none
  | n + 1, depth, cs =>
    match cs with
    | '[' :: rest =>
      if depth = 0 then none
      else (readItems n (depth - 1) rest).map fun (items, rest) => (.array items, rest)
    | '\x7b' :: rest =>
      if depth = 0 then none
      else match skipBlanks rest with
        | '\x7d' :: rest => some (.table [], rest)
        | _ => (readPairs n (depth - 1) .empty rest).map fun (t, rest) => (t.toValue, rest)
    | 't' :: 'r' :: 'u' :: 'e' :: rest => some (.boolean true, rest)
    | 'f' :: 'a' :: 'l' :: 's' :: 'e' :: rest => some (.boolean false, rest)
    | '"' :: _ | '\'' :: _ => (readText cs).map fun (s, rest) => (.text s, rest)
    | _ =>
      (readMoment cs).map (fun (_, rest) => (.moment, rest)) <|>
      (readFloat cs).map (fun (_, rest) => (.float, rest)) <|>
      (readInteger cs).map (fun (n, rest) => (.integer n, rest))

/-- Reads the items of an array and its closing bracket; a comma may follow the last item. -/
def readItems : Nat → Nat → List Char → Option (Reading (List Value))
  | 0, _, _ => none
  | n + 1, depth, cs =>
    match skipLayout cs with
    | ']' :: rest => some ([], rest)
    | cs => do
      let (item, rest) ← readValue n depth cs
      match skipLayout rest with
      | ',' :: more =>
        let (items, rest) ← readItems n depth more
        pure (item :: items, rest)
      | ']' :: rest => pure ([item], rest)
      | _ => none

/-- Reads the pairs of an inline table into a table, and the closing brace. -/
def readPairs : Nat → Nat → Table → List Char → Option (Reading Table)
  | 0, _, _, _ => none
  | n + 1, depth, t, cs => do
    let (key, rest) ← readKey (maxDepth - 1) cs
    let (_, rest) ← readMark '=' rest
    let (v, rest) ← readValue n depth (skipBlanks rest)
    let t ← t.insertDotted key.dropLast (key.getLastD "") v
    match skipBlanks rest with
    | ',' :: more => readPairs n depth t more
    | '\x7d' :: rest => pure (t, rest)
    | _ => none

end

/-- A document as far as it was read: the whole of it, and the table that keys go into. -/
structure Document where
  root : Table := .empty
  current : List String := []

namespace Document

/-- Adds a key with its value to the table at hand. -/
def addPair (d : Document) (key : List String) (v : Value) : Option Document := do
  let root ← d.root.within false (·.insertDotted key.dropLast (key.getLastD "") v) d.current
  pure { d with root }

/-- Opens a table, or adds one to an array of tables. -/
def addHeader (d : Document) (key : List String) (element : Bool) : Option Document := do
  let last := key.getLastD ""
  let opened := fun (t : Table) => if element then t.openElement last else t.openTable last
  let root ← d.root.within false opened key.dropLast
  pure { root, current := key }

/-- Reads a line that is neither blank nor a comment, and the end of it. -/
def readLine (d : Document) (cs : List Char) : Option (Reading Document) :=
  match cs with
  | '[' :: '[' :: rest => do
    let (key, rest) ← readKey (maxDepth - 1) rest
    let (_, rest) ← readMark ']' rest
    let (_, rest) ← readMark ']' rest
    let rest ← lineEnd? rest
    let d ← d.addHeader key true
    pure (d, rest)
  | '[' :: rest => do
    let (key, rest) ← readKey (maxDepth - 1) rest
    let (_, rest) ← readMark ']' rest
    let rest ← lineEnd? rest
    let d ← d.addHeader key false
    pure (d, rest)
  | cs => do
    let (key, rest) ← readKey (maxDepth - 1) cs
    let (_, rest) ← readMark '=' rest
    let (v, rest) ← readValue (2 * rest.length + 2) (maxDepth - 1) (skipBlanks rest)
    let rest ← lineEnd? rest
    let d ← d.addPair key v
    pure (d, rest)

/-- Reads all lines; the number bounds how many. -/
def readLines : Nat → Document → List Char → Option Document
  | 0, _, _ => none
  | n + 1, d, cs =>
    match skipBlanks cs with
    | [] => some d
    | '#' :: rest => (lineEnd? ('#' :: rest)).bind (readLines n d)
    | cs =>
      match lineBreak? cs with
      | some rest => readLines n d rest
      | none => do
        let (d, rest) ← readLine d cs
        readLines n d rest

end Document

/-- Reads a document; a byte order mark may stand in front. -/
def parse? (s : String) : Option Value :=
  let cs := match s.toList with
    | '\ufeff' :: rest => rest
    | cs => cs
  (Document.readLines (cs.length + 1) {} cs).map (·.root.toValue)

end SymbolAtlas.Toml
