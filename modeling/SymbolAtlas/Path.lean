/-!
# File paths

A `Path` keeps the text it was written with.  Two paths are the *same* (`==`) when they have the
same components: repeated separators, inner dots and a trailing separator do not count.  Order
follows the components as well, so sorted lists group a directory with its contents.

Main facts: two paths are the same exactly when their components are (`Path.beq_iff_parts`).
-/

set_option autoImplicit false

namespace SymbolAtlas

/-- One component of a path. -/
inductive Part where
  | root
  | here
  | up
  | name (text : String)
deriving DecidableEq, Repr

namespace Part

/-- Position of a kind of component in the order of paths. -/
def rank : Part → Nat
  | .root => 0
  | .here => 1
  | .up => 2
  | .name _ => 3

/-- Roots first, then `.`, then `..`, then names by their code points. -/
def compare : Part → Part → Ordering
  | .name a, .name b => Ord.compare a b
  | a, b => Ord.compare a.rank b.rank

end Part

/-- The segments between separators, empty ones included. -/
def segments : List Char → List (List Char)
  | [] => [[]]
  | c :: rest =>
    if c = '/' then [] :: segments rest
    else match segments rest with
      | s :: more => (c :: s) :: more
      | [] => [[c]]

/-- A path as it was written. -/
structure Path where
  text : String
deriving Repr, Inhabited

namespace Path

/-- The component of a segment that does not open a relative path; empty segments and dots
    vanish. -/
def innerPart (s : List Char) : Option Part :=
  if s = [] then none
  else if s = ['.'] then none
  else if s = ['.', '.'] then some .up
  else some (.name (String.ofList s))

/-- The path begins with a separator. -/
def isAbsolute (p : Path) : Bool := p.text.toList.head? == some '/'

/-- The components of a path. -/
def parts (p : Path) : List Part :=
  let segs := segments p.text.toList
  if p.isAbsolute then .root :: segs.filterMap innerPart
  else match segs with
    | ['.'] :: rest => .here :: rest.filterMap innerPart
    | _ => segs.filterMap innerPart

/-- One step on the way that a path spells. -/
inductive Step where
  | root
  | here
  | up
  | name (text : String)
  /-- A separator behind the last name: it has to be a directory. -/
  | slash
deriving DecidableEq, Repr

/-- The steps that segments spell; `named` tells that the segment before them was a name. -/
def stepsOf : Bool → List (List Char) → List Step
  | _, [] => []
  | named, [] :: rest =>
    if rest.isEmpty && named then [.slash] else stepsOf named rest
  | _, ['.'] :: rest => .here :: stepsOf false rest
  | _, ['.', '.'] :: rest => .up :: stepsOf false rest
  | _, s :: rest => .name (String.ofList s) :: stepsOf true rest

/-- The steps on the way that a path spells, none left out. -/
def steps (p : Path) : List Step :=
  let below := stepsOf false (segments p.text.toList)
  if p.isAbsolute then .root :: below else below

instance : BEq Path := ⟨fun a b => a.text == b.text || a.parts == b.parts⟩

/-- Lexicographic order of component lists. -/
def compareParts : List Part → List Part → Ordering
  | [], [] => .eq
  | [], _ :: _ => .lt
  | _ :: _, [] => .gt
  | a :: as, b :: bs => (a.compare b).then (compareParts as bs)

/-- Paths are ordered by their components. -/
def compare (a b : Path) : Ordering := compareParts a.parts b.parts

/-- `a` does not come after `b`. -/
def le (a b : Path) : Bool := (a.compare b).isLE

/-- The absolute path that visits these names from the root. -/
def ofNames (names : List String) : Path := ⟨"/" ++ "/".intercalate names⟩

/-- A spelling of a list of components. -/
def ofParts : List Part → Path
  | .root :: rest => ⟨"/" ++ "/".intercalate (rest.map spell)⟩
  | ps => ⟨"/".intercalate (ps.map spell)⟩
where
  /-- How a component is written between separators. -/
  spell : Part → String
    | .root => ""
    | .here => "."
    | .up => ".."
    | .name s => s

/-- `base` followed by `p`; an absolute `p` stands alone. -/
def join (base p : Path) : Path :=
  if p.isAbsolute then p
  else if base.text.isEmpty || base.text.toList.getLast? == some '/' then ⟨base.text ++ p.text⟩
  else ⟨base.text ++ "/" ++ p.text⟩

/-- The path without its last component; the root and the empty path have none. -/
def parent? (p : Path) : Option Path :=
  match p.parts.getLast? with
  | none | some .root => none
  | some _ => some (ofParts p.parts.dropLast)

/-- The last component, if it is a name. -/
def fileName? (p : Path) : Option String :=
  match p.parts.getLast? with
  | some (.name s) => some s
  | _ => none

/-- Splits a list at the last occurrence of `c`, which belongs to neither half. -/
def cutLast (c : Char) : List Char → Option (List Char × List Char)
  | [] => none
  | d :: rest =>
    match cutLast c rest with
    | some (front, back) => some (d :: front, back)
    | none => if d = c then some ([], rest) else none

/-- What follows the last dot of the file name; a name that only begins with a dot has no
    extension. -/
def extension? (p : Path) : Option String :=
  match p.fileName? with
  | none => none
  | some name =>
    match cutLast '.' name.toList with
    | some (_ :: _, ext) => some (String.ofList ext)
    | _ => none

/-- The components of `p` below `base`, if `base` is a leading part of it. -/
def below? (base p : Path) : Option (List Part) :=
  let b := base.parts
  if b.isPrefixOf p.parts then some (p.parts.drop b.length) else none

/-! ### Facts -/

theorem beq_self (p : Path) : (p == p) = true := by
  show (p.text == p.text || p.parts == p.parts) = true
  simp

theorem beq_iff_parts (a b : Path) : (a == b) = true ↔ a.parts = b.parts := by
  show (a.text == b.text || a.parts == b.parts) = true ↔ _
  constructor
  · intro h
    rcases Bool.or_eq_true _ _ ▸ h with h | h
    · have : a = b := by
        cases a; cases b; simpa using h
      rw [this]
    · simpa using h
  · intro h
    simp [h]

instance : EquivBEq Path where
  rfl := beq_self _
  symm h := (beq_iff_parts _ _).mpr ((beq_iff_parts _ _).mp h).symm
  trans h₁ h₂ :=
    (beq_iff_parts _ _).mpr (((beq_iff_parts _ _).mp h₁).trans ((beq_iff_parts _ _).mp h₂))

end Path

end SymbolAtlas
