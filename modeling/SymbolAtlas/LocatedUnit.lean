import SymbolAtlas.Category
import SymbolAtlas.TranslationUnit

/-!
# Locations of a unit

A `LocatedUnit` knows the location of each cursor of a unit.  Canonical paths are worked out once
for every file, and of several spellings that agree by components the one looked at first counts.
So the order of looking matters: visited cursors come first, each behind the parent that it
reports, then the owners of declarations, then what uses name.

Main facts: every cursor of the unit is looked at (`TranslationUnit.mem_lookOrder`), and asking a
memo again gives the answer that it gave before (`PathMemo.canonicalPath_again`).
-/

set_option autoImplicit false

namespace SymbolAtlas

/-- Cursors whose inside is never indexed: uses, and enumerators with their initializers. -/
def CursorKind.isLeaf : CursorKind → Bool
  | .enumConstantDecl | .declRefExpr | .memberRefExpr => true
  | _ => false

/-- Kinds of records that a use may stand for by their definition. -/
def CursorKind.isForwardable : CursorKind → Bool
  | .classDecl | .structDecl => true
  | _ => false

namespace TranslationUnit

/-- The cursor says that it comes from a file. -/
def hasFile (u : TranslationUnit) (i : Nat) : Bool := (u.position i).file.isSome

/-- The category of a cursor. -/
def category (u : TranslationUnit) (i : Nat) : Category := .ofCursor (u.kind i) (u.isDefinition i)

/-- Whether the inside of a cursor is visited: that of leaves is not, nor of what comes from no
    file. -/
def verdict (u : TranslationUnit) (i : Nat) : Verdict :=
  if u.hasFile i && !(u.kind i).isLeaf then .descend else .skip

/-- The visited cursors, each with the parent that it reports. -/
def visited (u : TranslationUnit) : List (Nat × Nat) :=
  (u.visit 0
    (fun seen i reported => (if u.hasFile i then (reported, i) :: seen else seen, u.verdict i))
    []).reverse

/-- The cursors that a use refers to: what it names, and for a record its definition. -/
def named (u : TranslationUnit) (i : Nat) : List Nat :=
  (u.referenced i).toList ++ if (u.kind i).isForwardable then (u.definition i).toList else []

/-- The order in which the positions of cursors are looked at. -/
def lookOrder (u : TranslationUnit) : List Nat :=
  let seen := u.visited
  let cursors := seen.map (·.2)
  let declared := cursors.filter fun i =>
    u.category i != .reference && u.category i != .invalid && (u.position i).present
  let uses := cursors.filter fun i => u.category i == .reference
  0 :: seen.flatMap (fun (reported, i) => [reported, i])
    ++ declared.filterMap u.semanticParent
    ++ uses.flatMap u.named
    ++ List.range u.size

/-! ### Facts -/

theorem mem_lookOrder (u : TranslationUnit) {i : Nat} (h : i < u.size) : i ∈ u.lookOrder :=
  List.mem_append_right _ (List.mem_range.mpr h)

end TranslationUnit

theorem PathMemo.canonicalPath_again (memo : PathMemo) (fs : FileSystem) (file : Path) :
    let (path, memo') := memo.canonicalPath fs file
    memo'.canonicalPath fs file = (path, memo') := by
  unfold PathMemo.canonicalPath
  cases h : memo.known.find? (·.1 == file) with
  | some known => simp [h]
  | none => simp [List.find?_append, h]

/-- A unit together with the location of each of its cursors. -/
structure LocatedUnit where
  unit : TranslationUnit
  places : Array (Option Location)
deriving Inhabited

namespace LocatedUnit

/-- Works out the location of every cursor. -/
def ofUnit (fs : FileSystem) (u : TranslationUnit) : LocatedUnit :=
  let memo := u.lookOrder.foldl
    (fun (memo : PathMemo) i => (memo.location fs (u.position i)).2) {}
  { unit := u, places := u.cursors.map fun c => (memo.location fs c.position).1 }

/-- The location of a cursor. -/
def place (lu : LocatedUnit) (i : Nat) : Option Location := lu.places[i]?.join

/-- Two cursors look the same: equal kinds and equal locations. -/
def alike (lu : LocatedUnit) (a b : Nat) : Bool :=
  lu.unit.kind a == lu.unit.kind b && lu.place a == lu.place b

end LocatedUnit

end SymbolAtlas
