import SymbolAtlas.CursorTree
import SymbolAtlas.Indexing.References

/-!
# Errors and notices

What can go wrong between a source file and its nodes in the graph, and what an indexing run tells
on the way.  Every cause is a constructor; its wording is a function of it.
-/

set_option autoImplicit false

namespace SymbolAtlas

/-- Why a frontend gave no unit or no preamble. -/
inductive FrontendError where
  | parse (file : Path) (text : String)
  | preamble (output : Path) (text : String)
  | unsupported (file : Path)
  | io (error : FileError)

/-- The wording of a frontend error. -/
def FrontendError.message : FrontendError → String
  | .parse file text => s!"failed to parse {file.text}: {text}"
  | .preamble output text => s!"failed to build preamble {output.text}: {text}"
  | .unsupported file => s!"unsupported source file: {file.text}"
  | .io error => s!"IO error: {error.message}"

/-- The two ways in which a file is parsed. -/
inductive Attempt where
  | withPreamble
  | withoutPreamble
deriving DecidableEq, Repr, Inhabited

/-- The name shown for an attempt. -/
def Attempt.name : Attempt → String
  | .withPreamble => "with preamble"
  | .withoutPreamble => "without preamble"

/-- Why a file was not indexed. -/
inductive IndexError where
  /-- The cursors of the unit do not form a tree. -/
  | structuralInconsistency (file : Path) (error : TreeError)
  /-- No attempt to parse the file succeeded. -/
  | parseFailure (file : Path) (commandLine : String)
  /-- The file was modified while it was parsed. -/
  | changedDuringIndex (file : Path)
  /-- The modification time of the file cannot be read. -/
  | io (path : Path) (error : FileError)

namespace IndexError

/-- The wording of an index error. -/
def message : IndexError → String
  | .structuralInconsistency file error =>
    s!"Structural inconsistency in {file.text}: {error.message}"
  | .parseFailure file commandLine => s!"Failed to parse {file.text}: {commandLine}"
  | .changedDuringIndex file => s!"File changed during indexing: {file.text}"
  | .io path error => s!"IO error on {path.text}: {error.message}"

/-- Trying again may help. -/
def transient : IndexError → Bool
  | .changedDuringIndex _ => true
  | _ => false

end IndexError

/-- What an indexing run tells on the way. -/
inductive Notice where
  | brokenTree (error : TreeError)
  | reference (notice : ReferenceNotice)
  | headerLeftOut (header : Path) (error : FrontendError)
  | preambleFailed (error : FrontendError)
  | parseFailed (attempt : Attempt) (commandLine : String) (error : FrontendError)
  | changed (file : Path)
  | skipped (file : Path) (error : IndexError)
  | cursorTree (file : Path) (dump : String)

/-- The wording of a notice. -/
def Notice.message : Notice → String
  | .brokenTree error => error.message
  | .reference notice => notice.message
  | .headerLeftOut header error => s!"Leaving {header.text} out of preamble: {error.message}"
  | .preambleFailed error => s!"Preamble build failed: {error.message}"
  | .parseFailed attempt commandLine error =>
    s!"Parse failed {attempt.name}: {commandLine} ({error.message})"
  | .changed file => s!"{file.text} changed while it was parsed"
  | .skipped file error => s!"Skipping {file.text}: {error.message}"
  | .cursorTree file dump => s!"Cursor tree for {file.text}:\n{dump}"

end SymbolAtlas
