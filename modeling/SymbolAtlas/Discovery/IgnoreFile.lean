import SymbolAtlas.FileSystem
import SymbolAtlas.Glob.Expression
import SymbolAtlas.Text.Blank

/-!
# Ignore files

A file of rules, one a line, that take paths below its directory out of a walk or keep them in.  The
last rule that matches a path decides.
-/

set_option autoImplicit false

namespace SymbolAtlas

/-- What a rule does with a path. -/
inductive Ruling where
  | ignore
  | keep
deriving DecidableEq, Repr

/-- A line of an ignore file. -/
structure IgnoreRule where
  glob : Glob
  ruling : Ruling
  directoriesOnly : Bool

/-- The rules of a file, for paths below a directory as it is spelled. -/
structure IgnoreFile where
  base : String
  rules : List IgnoreRule

/-- What follows a leading text. -/
def afterLead? (lead text : String) : Option String :=
  if lead.toList.isPrefixOf text.toList then some (String.ofList (text.toList.drop lead.length))
  else none

/-- Drops a leading text, if it is there. -/
def dropLead (lead text : String) : String := (afterLead? lead text).getD text

namespace IgnoreRule

/-- The pattern of a line after its marks.  A pattern without a separator inside matches at any
    depth; one that ends in all things below a directory spares the directory itself. -/
def widen (anchored : Bool) (pattern : String) : String :=
  let deep := anchored || pattern.toList.contains '/' || pattern = "**"
  let pattern := if deep then pattern else "**/" ++ pattern
  if pattern.endsWith "/**" then pattern ++ "/*" else pattern

/-- Cuts the mark of a rule for directories, a separator at the end that may be escaped; tells
    whether it was there. -/
def cutDirectoryMark (line : String) : Bool × String :=
  match line.toList.reverse with
  | '/' :: '\\' :: rest => (true, String.ofList rest.reverse)
  | '/' :: rest => (true, String.ofList rest.reverse)
  | _ => (false, line)

/-- Reads a line; blank lines, comments and lines that hold no glob give no rule. -/
def ofLine? (line : String) : Option IgnoreRule :=
  if line.startsWith "#" then none
  else
    let line :=
      if line.endsWith "\\ " then line
      else String.ofList (Text.dropEnd Text.isBlank line.toList)
    if line.isEmpty then none
    else
      let (ruling, anchored, body) :=
        match line.toList with
        | '\\' :: '!' :: rest => (Ruling.ignore, false, '!' :: rest)
        | '\\' :: '#' :: rest => (.ignore, false, '#' :: rest)
        | '!' :: '/' :: rest => (.keep, true, rest)
        | '!' :: rest => (.keep, false, rest)
        | '/' :: rest => (.ignore, true, rest)
        | cs => (.ignore, false, cs)
      let (directoriesOnly, pattern) := cutDirectoryMark (String.ofList body)
      match Glob.parse (widen anchored pattern) true .lenient with
      | .ok glob => some { glob, ruling, directoriesOnly }
      | .error _ => none

end IgnoreRule

namespace IgnoreFile

/-- The lines of some bytes, without their line breaks; a carriage return before a line feed belongs
    to the line break. -/
def splitLines : List UInt8 → List (List UInt8)
  | [] => []
  | 13 :: 10 :: rest => [] :: splitLines rest
  | b :: rest =>
    if b = 10 then [] :: splitLines rest
    else match splitLines rest with
      | [] => [[b]]
      | line :: more => (b :: line) :: more

/-- The lines of a file up to the first one that is no text. -/
def readLines (bytes : ByteArray) : List String :=
  let texts := (splitLines bytes.toList).map fun line => String.fromUTF8? ⟨line.toArray⟩
  (texts.takeWhile Option.isSome).filterMap id

/-- Drops byte order marks at the start of the first line. -/
def dropMark : List String → List String
  | [] => []
  | first :: rest => String.ofList (first.toList.dropWhile (· = '\ufeff')) :: rest

/-- The rules on some lines, none if their globs cannot be asked together. -/
def rulesOf (lines : List String) : List IgnoreRule :=
  let rules := lines.filterMap IgnoreRule.ofLine?
  if (GlobSet.fault? (rules.map (·.glob))).isSome then [] else rules

/-- The rules in a file, none if it cannot be read. -/
def ofFile (fs : FileSystem) (base file : Path) : IgnoreFile :=
  let lines := match fs.readBytes file with
    | .ok bytes => dropMark (readLines bytes)
    | .error _ => []
  { base := dropLead "./" base.text, rules := rulesOf lines }

/-- How a path below the directory of the file is spelled from there. -/
def relative (f : IgnoreFile) (path : String) : String :=
  let path := dropLead "./" path
  let baseIsDot := (⟨f.base⟩ : Path) == ⟨"."⟩
  if baseIsDot || !path.toList.contains '/' then path
  else match afterLead? f.base path with
    | some rest => dropLead "/" rest
    | none => path

/-- What the file says about a path: the last rule that matches decides. -/
def ruling (f : IgnoreFile) (path : String) (isDirectory : Bool) : Option Ruling :=
  let path := f.relative path
  let fits := fun (r : IgnoreRule) =>
    (!r.directoriesOnly || isDirectory) && r.glob.isMatch path
  (f.rules.reverse.find? fits).map (·.ruling)

end IgnoreFile

end SymbolAtlas
