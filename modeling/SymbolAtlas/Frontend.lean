import SymbolAtlas.Notice
import SymbolAtlas.CompileOptions

/-!
# Frontends

A frontend turns a file and a list of options into a unit, and builds preambles: artifacts that
spare later parses the work on shared headers.  It may keep a state of its own, read and write
files, and leave notices; nothing else is assumed of it.
-/

set_option autoImplicit false

namespace SymbolAtlas

/-- The headers of a preamble. -/
structure PreambleInputs where
  /-- Headers that some main file includes itself. -/
  direct : List Path := []
  /-- Headers seen at any depth. -/
  all : List Path := []
deriving Inhabited

/-- What a frontend works in: the files, its own state, and the notices left so far. -/
structure World (σ : Type) where
  files : FileSystem
  state : σ
  notices : List Notice := []

/-- Leaves a notice. -/
def World.tell {σ : Type} (w : World σ) (n : Notice) : World σ :=
  { w with notices := w.notices ++ [n] }

/-- A parser of source files. -/
structure Frontend (σ : Type) where
  /-- Parses a file with an option list. -/
  parse : Path → List String → World σ → Except FrontendError TranslationUnit × World σ
  /-- Builds a preamble from headers with an option list at a path. -/
  buildPreamble : PreambleInputs → List String → Path → World σ →
    Except FrontendError Unit × World σ

end SymbolAtlas
