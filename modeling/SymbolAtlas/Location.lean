import SymbolAtlas.FileSystem
import SymbolAtlas.Text.Numeral

/-!
# Locations

A `Position` is what a parser reports: a file as it was named, a line and a column, or nothing.
A `Location` is the identity behind it: a canonical path, a line and a column.  Two cursors that
name one place through different spellings of the same file have the same location.

Main facts: location equality is an equivalence that compares components, line and column
(`Location.beq_iff`).
-/

set_option autoImplicit false

namespace SymbolAtlas

/-- A place as a parser reports it; lines and columns count from 1. -/
structure Position where
  file : Option Path
  line : Nat
  column : Nat
deriving Inhabited

namespace Position

/-- The position of something that has no place in a file. -/
def none : Position := ⟨.none, 0, 0⟩

/-- The position names a line of a file. -/
def present (p : Position) : Bool := p.file.isSome && p.line != 0

/-- `file:line:column`, with the file as it was named. -/
def text (p : Position) : String :=
  match p.file with
  | some f => s!"{f.text}:{p.line}:{p.column}"
  | .none => "<no file>"

end Position

/-- The identity of a place in a file. -/
structure Location where
  path : Path
  line : Nat
  column : Nat
deriving Inhabited

/-- Why a text names no location. -/
inductive LocationError where
  | malformed (text : String)
  | invalidNumber (text : String)
deriving DecidableEq, Repr

/-- The wording of a location error. -/
def LocationError.message : LocationError → String
  | .malformed s => s!"expected <path>:<line>:<column>, got '{s}'"
  | .invalidNumber s => s!"invalid line or column in '{s}'"

namespace Location

instance : BEq Location :=
  ⟨fun a b => a.line == b.line && a.column == b.column && a.path == b.path⟩

/-- `path:line:column`. -/
def text (l : Location) : String := s!"{l.path.text}:{l.line}:{l.column}"

/-- Locations are ordered by path, then line, then column. -/
def compare (a b : Location) : Ordering :=
  (a.path.compare b.path).then ((Ord.compare a.line b.line).then (Ord.compare a.column b.column))

/-- `a` does not come after `b`. -/
def le (a b : Location) : Bool := (a.compare b).isLE

/-- The location at a path, which is made canonical first. -/
def canonical (fs : FileSystem) (p : Path) (line column : Nat) : Location :=
  ⟨fs.canonicalPath p, line, column⟩

/-- The location of a position, if it is present. -/
def ofPosition? (fs : FileSystem) (p : Position) : Option Location :=
  match p.file with
  | some f => if p.line = 0 then none else some (canonical fs f p.line p.column)
  | none => none

/-- Reads `path:line:column`; the path may hold colons itself. -/
def readFields (s : String) : Except LocationError (String × Nat × Nat) :=
  match Path.cutLast ':' s.toList with
  | none => .error (.malformed s)
  | some (front, column) =>
    match Path.cutLast ':' front with
    | none | some ([], _) => .error (.malformed s)
    | some (path, line) =>
      match Text.readNat? Text.maxWord32 (String.ofList line),
          Text.readNat? Text.maxWord32 (String.ofList column) with
      | some l, some c => .ok (String.ofList path, l, c)
      | _, _ => .error (.invalidNumber s)

/-- The location that a text names; its path is made canonical. -/
def parse (fs : FileSystem) (s : String) : Except LocationError Location :=
  (readFields s).map fun (path, line, column) => canonical fs ⟨path⟩ line column

/-- The location lies in the file at a path. -/
def isIn (fs : FileSystem) (l : Location) (file : Path) : Bool := l.path == fs.canonicalPath file

/-- Drops every location that equals the one kept before it. -/
def dedup : List Location → List Location
  | a :: b :: rest => if a == b then dedup (a :: rest) else a :: dedup (b :: rest)
  | ls => ls
termination_by ls => ls.length

/-- Sorted, each location once; of equal ones the first given stays. -/
def sortDedup (ls : List Location) : List Location := dedup (ls.mergeSort le)

/-! ### Facts -/

theorem beq_iff (a b : Location) :
    (a == b) = true ↔ a.line = b.line ∧ a.column = b.column ∧ a.path.parts = b.path.parts := by
  show (a.line == b.line && a.column == b.column && a.path == b.path) = true ↔ _
  rw [Bool.and_eq_true, Bool.and_eq_true, Path.beq_iff_parts]
  simp [and_assoc]

instance : EquivBEq Location where
  rfl := (beq_iff _ _).mpr ⟨rfl, rfl, rfl⟩
  symm h := by
    obtain ⟨h₁, h₂, h₃⟩ := (beq_iff _ _).mp h
    exact (beq_iff _ _).mpr ⟨h₁.symm, h₂.symm, h₃.symm⟩
  trans h k := by
    obtain ⟨h₁, h₂, h₃⟩ := (beq_iff _ _).mp h
    obtain ⟨k₁, k₂, k₃⟩ := (beq_iff _ _).mp k
    exact (beq_iff _ _).mpr ⟨h₁.trans k₁, h₂.trans k₂, h₃.trans k₃⟩

end Location

/-- Canonical paths already worked out for the files of one unit. -/
structure PathMemo where
  known : List (Path × Path) := []

namespace PathMemo

/-- The canonical path of a file, looked up or worked out and remembered. -/
def canonicalPath (memo : PathMemo) (fs : FileSystem) (file : Path) : Path × PathMemo :=
  match memo.known.find? (·.1 == file) with
  | some (_, path) => (path, memo)
  | none =>
    let path := fs.canonicalPath file
    (path, { known := memo.known ++ [(file, path)] })

/-- The location of a position, if it is present. -/
def location (memo : PathMemo) (fs : FileSystem) (p : Position) : Option Location × PathMemo :=
  match p.file with
  | some f =>
    if p.line = 0 then (none, memo)
    else
      let (path, memo') := memo.canonicalPath fs f
      (some ⟨path, p.line, p.column⟩, memo')
  | none => (none, memo)

end PathMemo

end SymbolAtlas
