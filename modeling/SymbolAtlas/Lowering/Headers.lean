import SymbolAtlas.Text.Blank
import SymbolAtlas.Lowering.State

/-!
# Headers

How the name in an include directive leads to a file, and how that file is read.  Each header is
expanded once in a unit, where it is met first.

Main facts: a header that was met before is not expanded again (`Headers.enter_of_mem`).
-/

set_option autoImplicit false

namespace SymbolAtlas

/-- Where headers are found and how they are read. -/
structure Headers where
  files : FileSystem
  includePaths : List Path
  /-- The parsed text of a header, if it can be read. -/
  load : Path → Option Source

namespace Headers

/-- The canonical path of the header that a name leads to.  A quoted name is looked for beside the
    file that names it first. -/
def find? (h : Headers) (name : String) (quoted : Bool) (origin : Path) : Option Path :=
  let beside := if quoted then (origin.parent?).toList else []
  let candidates := (beside ++ h.includePaths).map fun dir => dir.join ⟨name⟩
  (candidates.find? h.files.isFile).map h.files.canonicalPath

/-- The name that an include directive spells, without quotes or angle brackets. -/
def spelledName (s : String) : String :=
  Text.stripBy (fun c => c = '"' ∨ c = '<' ∨ c = '>') s

/-- Meets a header at some depth, and tells whether it is met for the first time. -/
def enter (header : Path) (depth : Nat) : Lower Bool :=
  modifyGet fun s =>
    if s.included.contains header then (false, s)
    else
      (true, { s with
        included := header :: s.included
        unit := s.unit.addInclusion header depth })

theorem enter_of_mem {header : Path} {s : Lowering} (h : s.included.contains header = true)
    (depth : Nat) : (enter header depth).run s = (false, s) := by
  show (if s.included.contains header then _ else _) = _
  rw [if_pos h]

end Headers

end SymbolAtlas
