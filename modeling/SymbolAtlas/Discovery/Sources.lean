import SymbolAtlas.Glob.Expression
import SymbolAtlas.Language
import SymbolAtlas.Discovery.Walk

/-!
# Finding sources

The C and C++ files that a list of inputs names: a file stands for itself, a directory for the
sources a walk finds below it, less those that exclude patterns match.
-/

set_option autoImplicit false

namespace SymbolAtlas

/-- Why sources cannot be collected. -/
inductive DiscoveryError where
  | notFound (path : Path)
  | invalidPattern (pattern : String) (error : GlobError)
  | invalidPatterns (patterns : List String) (fault : GlobSetFault)

/-- The wording of a discovery error. -/
def DiscoveryError.message : DiscoveryError → String
  | .notFound path => s!"Input path does not exist: {path.text}"
  | .invalidPattern pattern error =>
    s!"Invalid exclude pattern '{pattern}': error parsing glob '{pattern}': {error.message}"
  | .invalidPatterns patterns fault =>
    let all := ", ".intercalate patterns
    s!"Invalid exclude pattern '{all}': {fault.message}"

/-- Which sources are collected. -/
structure DiscoveryConfig where
  /-- Patterns for paths below a walked directory that are left out. -/
  exclude : List String := ["**/.git/**", "**/build/**", "**/target/**", "**/.cxgraph/**"]
  includeHeaders : Bool := false
deriving Inhabited

/-- Drops every path that is the same as the one kept before it. -/
def dedupPaths : List Path → List Path
  | a :: b :: rest => if a == b then dedupPaths (a :: rest) else a :: dedupPaths (b :: rest)
  | ps => ps
termination_by ps => ps.length

/-- Sorted, each path once; of equal ones the first given stays. -/
def sortDedupPaths (ps : List Path) : List Path := dedupPaths (ps.mergeSort Path.le)

/-- Reads exclude patterns: each for itself, and then all together. -/
def readPatterns (patterns : List String) : Except DiscoveryError (List Glob) := do
  let globs ← patterns.mapM fun p => (Glob.parse p).mapError (.invalidPattern p)
  match GlobSet.fault? globs with
  | some fault => throw (.invalidPatterns patterns fault)
  | none => return globs

namespace DiscoveryConfig

/-- The extension of a file is that of a source. -/
def accepts (c : DiscoveryConfig) (file : Path) : Bool :=
  match file.extension? with
  | none => false
  | some ext =>
    if c.includeHeaders then (Language.ofExtension? ext).isSome
    else Language.sourceExtensions.contains (Text.lowercase ext)

/-- The sources that one directory stands for. -/
def sourcesIn (c : DiscoveryConfig) (fs : FileSystem) (excluded : List Glob) (dir : Path) :
    List Path :=
  (walkFiles fs dir).filter fun file =>
    let below := match dir.below? file with
      | some parts => (Path.ofParts parts).text
      | none => file.text
    c.accepts file && !excluded.any fun g => g.isMatch below

/-- The sources that one input stands for. -/
def sourcesOf (c : DiscoveryConfig) (fs : FileSystem) (excluded : List Glob) (input : Path) :
    Except DiscoveryError (List Path) :=
  if fs.isFile input then .ok [input]
  else if fs.isDirectory input then .ok (c.sourcesIn fs excluded input)
  else .error (.notFound input)

end DiscoveryConfig

/-- The sources that all inputs stand for, sorted. -/
def collectSources (c : DiscoveryConfig) (fs : FileSystem) (inputs : List Path) :
    Except DiscoveryError (List Path) := do
  let excluded ← readPatterns c.exclude
  let found ← inputs.mapM (c.sourcesOf fs excluded)
  pure (sortDedupPaths found.flatten)

end SymbolAtlas
