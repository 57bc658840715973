import SymbolAtlas.Lowering.Items
import SymbolAtlas.Lowering.Expressions

/-!
# Lowering units

Ties the steps of a lowering together: down the levels of a syntax tree, through the headers, and
at the end from every use to its declaration.

Main facts: `Descent.below` goes down as many levels as it is given, and a tree has no more than its
height; headers nest no deeper than there are files, since each is expanded once.
-/

set_option autoImplicit false

namespace SymbolAtlas

/-- Lowers nodes of at most this height; whole files are lowered by `file`. -/
def Descent.below (headers : Headers) (file : Here → Lower Unit) : Nat → Descent
  | 0 => { Descent.idle with file }
  | n + 1 =>
    let d := Descent.below headers file n
    { file, item := d.itemStep headers, type := d.typeStep, expr := d.exprStep }

namespace Lowering

/-- Lowers the items of a file, with headers nested at most this deeply. -/
def file (headers : Headers) : Nat → Here → Lower Unit
  | 0, _ => pure ()
  | n + 1, here =>
    let tree := here.source.tree
    (Descent.below headers (file headers n) tree.height).items tree here

/-- How deeply headers can nest: every file is expanded once, after the main file. -/
def maxNesting (headers : Headers) : Nat := headers.files.entries.length + 1

/-- The state after all items of a unit, before its uses are bound. -/
def collect (headers : Headers) (main : Source) : Lowering :=
  let here : Here := { source := main, depth := 0, parent := 0, scope := Scopes.global }
  let lowered := do
    file headers (maxNesting headers) here
    flushExpansions
  (lowered.run (init main.path (headers.files.canonicalPath main.path))).2

end Lowering

/-- The unit of a parsed file and the headers it reaches. -/
def TranslationUnit.ofSource (headers : Headers) (main : Source) : TranslationUnit :=
  (Lowering.collect headers main).bindAll.unit

end SymbolAtlas
