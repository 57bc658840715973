import SymbolAtlas.Discovery.IgnoreFile

/-!
# Walking directories

A walk finds the regular files below a directory.  Hidden entries, links, and what ignore files take
out are left out; ignore files count in the directory walked, in those below it and in those above
it, and rules of a version control system only inside a repository.

Main facts: what ignore files closer to an entry say goes before what those further up say, and the
kinds of ignore files go in the order `IgnoreLevel` lists them (`Findings.decision`).
-/

set_option autoImplicit false

namespace SymbolAtlas

/-- The ignore files of one directory. -/
structure IgnoreLevel where
  /-- The indexer's own ignore file. -/
  own : IgnoreFile
  /-- The ignore file shared among tools. -/
  shared : IgnoreFile
  /-- The ignore file of version control. -/
  versioned : IgnoreFile
  /-- The excludes of the repository. -/
  excludes : IgnoreFile
  /-- The directory is the top of a repository. -/
  isRepository : Bool

namespace IgnoreLevel

/-- The first line of a file. -/
def firstLine? (fs : FileSystem) (file : Path) : Option String :=
  match fs.readBytes file with
  | .ok bytes => (IgnoreFile.readLines bytes).head?
  | .error _ => none

/-- The directory with the data that the work trees of a repository share.  A file in its place
    leads there in two steps. -/
def repositoryData? (fs : FileSystem) (dir : Path) : Option Path :=
  let spot := dir.join ⟨".git"⟩
  if !fs.isFile spot then some spot
  else do
    let line ← firstLine? fs spot
    let tree ← afterLead? "gitdir: " line
    let common ← firstLine? fs ((⟨tree⟩ : Path).join ⟨"commondir"⟩)
    pure (if common.startsWith "." then (⟨tree⟩ : Path).join ⟨common⟩ else ⟨common⟩)

/-- The ignore files of a directory as it is spelled. -/
def ofDirectory (fs : FileSystem) (dir : Path) : IgnoreLevel where
  own := .ofFile fs dir (dir.join ⟨".cxgraphignore"⟩)
  shared := .ofFile fs dir (dir.join ⟨".ignore"⟩)
  versioned := .ofFile fs dir (dir.join ⟨".gitignore"⟩)
  excludes := match repositoryData? fs dir with
    | some data => .ofFile fs dir (data.join ⟨"info/exclude"⟩)
    | none => { base := dir.text, rules := [] }
  isRepository := fs.exists? (dir.join ⟨".git"⟩) || fs.exists? (dir.join ⟨".jj"⟩)

end IgnoreLevel

/-- What the ignore files seen so far say about an entry. -/
structure Findings where
  own : Option Ruling := none
  shared : Option Ruling := none
  versioned : Option Ruling := none
  excludes : Option Ruling := none
  /-- The top of the repository was passed: rules of version control further up do not count. -/
  leftRepository : Bool := false

namespace Findings

/-- Adds what the next level says; `versioned` tells whether rules of version control count. -/
def add (versioned : Bool) (path : String) (isDirectory : Bool) (f : Findings) (l : IgnoreLevel) :
    Findings :=
  let counts := versioned && !f.leftRepository
  { own := f.own <|> l.own.ruling path isDirectory
    shared := f.shared <|> l.shared.ruling path isDirectory
    versioned := f.versioned <|> if counts then l.versioned.ruling path isDirectory else none
    excludes := f.excludes <|> if counts then l.excludes.ruling path isDirectory else none
    leftRepository := f.leftRepository || l.isRepository }

/-- The ruling in the end. -/
def decision (f : Findings) : Option Ruling :=
  f.own <|> f.shared <|> f.versioned <|> f.excludes

end Findings

/-- Where a walk began, and the ignore files on the way from there; innermost first. -/
structure WalkContext where
  root : Path
  /-- The canonical path of the root. -/
  canonicalRoot : Path
  inside : List IgnoreLevel := []
  above : List IgnoreLevel := []

namespace WalkContext

/-- The paths above a path, from the nearest to the top. -/
def ancestors (names : List String) : List Path :=
  match names with
  | [] => []
  | name :: rest => (Path.ofNames (name :: rest).dropLast) :: ancestors (name :: rest).dropLast
termination_by names.length
decreasing_by simp

/-- The context of a walk that begins at a directory. -/
def start (fs : FileSystem) (root : Path) : WalkContext :=
  match fs.resolve root with
  | .ok names =>
    { root, canonicalRoot := .ofNames names
      above := (ancestors names).map (IgnoreLevel.ofDirectory fs) }
  | .error _ => { root, canonicalRoot := root }

/-- The context inside a directory on the way. -/
def enter (c : WalkContext) (fs : FileSystem) (dir : Path) : WalkContext :=
  { c with inside := IgnoreLevel.ofDirectory fs dir :: c.inside }

/-- How an entry is spelled from the top of the file system. -/
def fromTop (c : WalkContext) (path : String) : String :=
  let below :=
    if c.root == ⟨"."⟩ then path
    else dropLead "/" (dropLead (dropLead "./" c.root.text) path)
  (c.canonicalRoot.join ⟨below⟩).text

/-- What the ignore files say about an entry. -/
def ruling (c : WalkContext) (path : Path) (isDirectory : Bool) : Option Ruling :=
  let near := dropLead "./" path.text
  let versioned := (c.inside ++ c.above).any (·.isRepository)
  let inner := c.inside.foldl (Findings.add versioned near isDirectory) {}
  (c.above.foldl (Findings.add versioned (c.fromTop near) isDirectory) inner).decision

/-- An entry is left out: an ignore file says so, or it is hidden and none keeps it. -/
def leavesOut (c : WalkContext) (path : Path) (name : String) (isDirectory : Bool) : Bool :=
  match c.ruling path isDirectory with
  | some .ignore => true
  | some .keep => false
  | none => name.startsWith "."

end WalkContext

/-- The regular files below a directory, at most this many levels down; `names` lead to the
    directory. -/
def filesBelow (fs : FileSystem) : Nat → WalkContext → Path → List String → List Path
  | 0, _, _, _ => []
  | n + 1, c, dir, names =>
    let c := c.enter fs dir
    (fs.children names).flatMap fun (name, entry) =>
      let path := dir.join ⟨name⟩
      match entry with
      | .file .. => if c.leavesOut path name false then [] else [path]
      | .directory =>
        if c.leavesOut path name true then [] else filesBelow fs n c path (names ++ [name])
      | .link _ => []

/-- The regular files that a walk of a directory finds.  The path `-` stands for standard input, and
    nothing is found there. -/
def walkFiles (fs : FileSystem) (dir : Path) : List Path :=
  if dir == ⟨"-"⟩ then []
  else match fs.resolve dir with
    | .ok names => filesBelow fs (fs.entries.length + 1) (.start fs dir) dir names
    | .error _ => []

end SymbolAtlas
