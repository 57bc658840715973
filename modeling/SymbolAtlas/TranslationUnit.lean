import SymbolAtlas.Branch
import SymbolAtlas.Cursor

/-!
# Translation units

A `TranslationUnit` is a parsed file: its cursors in an arena, cursor 0 standing for the unit
itself, and the headers that were pulled in.  Cursors are added below an earlier cursor (`push`)
or outside the visited tree (`pushDetached`).

Main facts: a pushed cursor gets the next free number and the parent asked for
(`TranslationUnit.cursor_push`); `visit` presents the cursors below a start in pre-order, and what
the visitor keeps at every cursor holds in the end (`TranslationUnit.visit_keeps`).
-/

set_option autoImplicit false

namespace SymbolAtlas

/-- A header pulled into a unit; depth 1 is a direct include of the main file. -/
structure Inclusion where
  path : Path
  depth : Nat
deriving Inhabited

/-- A parsed file. -/
structure TranslationUnit where
  mainFile : Path
  cursors : Array Cursor
  inclusions : List Inclusion := []
deriving Inhabited

namespace TranslationUnit

/-- The unit of a file that holds nothing but the cursor of the unit itself. -/
def empty (mainFile : Path) : TranslationUnit :=
  { mainFile
    cursors := #[{ kind := .translationUnit, spelling := mainFile.text, position := .none }] }

/-- Number of cursors. -/
def size (u : TranslationUnit) : Nat := u.cursors.size

/-- The cursor with a number. -/
def cursor (u : TranslationUnit) (i : Nat) : Cursor := u.cursors.getD i default

/-- Adds a cursor as the last child of `parent`. -/
def push (u : TranslationUnit) (parent : Nat) (c : Cursor) : TranslationUnit :=
  { u with cursors := u.cursors.push { c with parent := some parent } }

/-- Adds a cursor outside the visited tree. -/
def pushDetached (u : TranslationUnit) (c : Cursor) : TranslationUnit :=
  { u with cursors := u.cursors.push { c with parent := none } }

/-- Changes the cursor with a number. -/
def modify (u : TranslationUnit) (i : Nat) (f : Cursor → Cursor) : TranslationUnit :=
  { u with cursors := u.cursors.modify i f }

/-- Records a header that was pulled in. -/
def addInclusion (u : TranslationUnit) (path : Path) (depth : Nat) : TranslationUnit :=
  { u with inclusions := u.inclusions ++ [⟨path, depth⟩] }

/-! ### Queries -/

/-- The kind of a cursor. -/
def kind (u : TranslationUnit) (i : Nat) : CursorKind := (u.cursor i).kind

/-- The name of a cursor. -/
def spelling (u : TranslationUnit) (i : Nat) : String := (u.cursor i).spelling

/-- The name of a cursor with its signature, where it has one. -/
def displayName (u : TranslationUnit) (i : Nat) : String :=
  (u.cursor i).displayName.getD (u.cursor i).spelling

/-- Where a cursor stands. -/
def position (u : TranslationUnit) (i : Nat) : Position := (u.cursor i).position

/-- The cursor defines what it declares. -/
def isDefinition (u : TranslationUnit) (i : Nat) : Bool := (u.cursor i).isDefinition

/-- The cursor that owns another by meaning. -/
def semanticParent (u : TranslationUnit) (i : Nat) : Option Nat :=
  (u.cursor i).semanticParent <|> (u.cursor i).parent

/-- The cursor that another names. -/
def referenced (u : TranslationUnit) (i : Nat) : Option Nat := (u.cursor i).referenced

/-- The definition of what a cursor declares. -/
def definition (u : TranslationUnit) (i : Nat) : Option Nat :=
  (u.cursor i).definition <|> if u.isDefinition i then some i else none

/-- `Kind 'spelling' @ position`. -/
def describe (u : TranslationUnit) (i : Nat) : String :=
  s!"{(u.kind i).name} '{u.spelling i}' @ {(u.position i).text}"

/-! ### Visiting -/

/-- For every cursor the branches directly inside it. -/
def branches (u : TranslationUnit) : Array (List Branch) := Branch.table (u.cursors.map (·.parent))

/-- Hands every cursor below `start`, together with its reported parent, to the visitor in
    pre-order. -/
def visit {σ : Type} (u : TranslationUnit) (start : Nat) (visitor : σ → Nat → Nat → σ × Verdict)
    (s : σ) : σ :=
  (Branch.walkAll (fun s i above => visitor s i ((u.cursor i).reportedParent.getD above))
    start (u.branches.getD start []) s).1

/-! ### Facts -/

theorem cursor_push (u : TranslationUnit) (p : Nat) (c : Cursor) :
    (u.push p c).cursor u.size = { c with parent := some p } := by
  simp [cursor, push, size]

theorem cursor_push_of_lt (u : TranslationUnit) (p : Nat) (c : Cursor) {i : Nat}
    (h : i < u.size) : (u.push p c).cursor i = u.cursor i := by
  have h' : i < u.cursors.size := h
  simp [cursor, push, Array.getElem?_push, Nat.ne_of_lt h']

theorem visit_keeps {σ : Type} {P : σ → Prop} {visitor : σ → Nat → Nat → σ × Verdict}
    (u : TranslationUnit) (start : Nat) (hv : ∀ s i above, P s → P (visitor s i above).1) {s : σ}
    (hs : P s) : P (u.visit start visitor s) :=
  Branch.walkAll_keeps (fun s i _ => hv s i _) start _ s hs

end TranslationUnit

end SymbolAtlas
