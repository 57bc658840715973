import SymbolAtlas.Location
import SymbolAtlas.NativePath

/-!
# Locations at native paths

A location is written as its path, line and column.  The path is written as it is shown, so a path
that is not text is not written as it is.  What is read is text, and so is the path read from it,
before it is made canonical.

A `Location` is a location at a path that is text.
-/

set_option autoImplicit false

namespace SymbolAtlas

/-- The identity of a place in a file of the operating system. -/
structure NativeLocation where
  path : NativePath
  line : Nat
  column : Nat
deriving Inhabited

/-- A location at a path that is text, as one of the operating system. -/
def Location.native (l : Location) : NativeLocation := ⟨l.path.native, l.line, l.column⟩

namespace NativeLocation

instance : BEq NativeLocation :=
  ⟨fun a b => a.line == b.line && a.column == b.column && a.path == b.path⟩

/-- `path:line:column`, with the path as it is shown. -/
def text (l : NativeLocation) : String := s!"{l.path.shown}:{l.line}:{l.column}"

/-- The location at a path, which is made canonical first. -/
def canonical (files : NativeFiles) (p : NativePath) (line column : Nat) : NativeLocation :=
  ⟨files.canonicalPath p, line, column⟩

/-- Reads `path:line:column`; the path may hold colons itself. -/
def parse (files : NativeFiles) (s : String) : Except LocationError NativeLocation :=
  (Location.readFields s).map fun (path, line, column) =>
    canonical files (Path.native ⟨path⟩) line column

end NativeLocation

end SymbolAtlas
