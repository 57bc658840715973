import SymbolAtlas.Path
import SymbolAtlas.Text.Lowercase

/-!
# Source languages

The two languages that are indexed, how a file's extension selects one, and how each is named on
a command line and in stored data.
-/

set_option autoImplicit false

namespace SymbolAtlas

/-- A source language. -/
inductive Language where
  | c
  | cxx
deriving DecidableEq, Repr, Inhabited

namespace Language

/-- The name given to the option `-x`. -/
def name : Language → String
  | .c => "c"
  | .cxx => "c++"

/-- The compiler named in reconstructed command lines. -/
def compiler : Language → String
  | .c => "clang"
  | .cxx => "clang++"

/-- The name used in stored data. -/
def storedName : Language → String
  | .c => "C"
  | .cxx => "c++"

/-- The language with a stored name. -/
def ofStoredName? : String → Option Language
  | "C" => some .c
  | "c++" => some .cxx
  | _ => none

/-- Extensions of all C and C++ files. -/
def allExtensions : List String :=
  ["c", "h", "cpp", "cc", "cxx", "c++", "hpp", "hh", "hxx", "h++"]

/-- Extensions of files that are compiled on their own. -/
def sourceExtensions : List String := ["c", "cpp", "cc", "cxx", "c++"]

/-- The language of an extension in any case; plain headers count as C. -/
def ofExtension? (ext : String) : Option Language :=
  let e := Text.lowercase ext
  if e = "c" ∨ e = "h" then some .c
  else if e ∈ allExtensions then some .cxx
  else none

/-- The language of a file by its extension. -/
def ofPath? (p : Path) : Option Language := p.extension?.bind ofExtension?

/-- A language name that is not known, in lower case. -/
structure UnknownName where
  name : String
deriving DecidableEq, Repr

/-- The wording of an unknown language name. -/
def UnknownName.message (e : UnknownName) : String :=
  s!"unknown language '{e.name}' (expected c or c++)"

/-- The language a user names, in any case. -/
def ofName (s : String) : Except UnknownName Language :=
  match Text.lowercase s with
  | "c" => .ok .c
  | "c++" | "cpp" | "cxx" => .ok .cxx
  | other => .error ⟨other⟩

end Language

end SymbolAtlas
