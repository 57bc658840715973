import SymbolAtlas.Path

/-!
# File systems as values

A `FileSystem` holds regular files, directories and symbolic links under the root, together with
the current directory.  Every operation is a total function; those that change files return the
changed file system.

Main facts: a lookup follows at most `maxLinks` symbolic links, so resolution always ends
(`FileSystem.resolve`); `canonicalPath` never fails; reading back a written file returns what was
written (`FileSystem.find?_put`).
-/

set_option autoImplicit false

namespace SymbolAtlas

/-- A modification time.  Files written during a run share the second of the run and are told
    apart by their serial number. -/
structure Stamp where
  seconds : Nat
  serial : Nat := 0
deriving DecidableEq, Repr, Inhabited

/-- What a name in a directory stands for. -/
inductive Entry where
  | file (bytes : ByteArray) (modified : Stamp)
  | directory
  | link (target : Path)

/-- Why an operation on files failed. -/
inductive FileError where
  | notFound
  | alreadyExists
  | notDirectory
  | isDirectory
  | tooManyLinks
  | nameTooLong
  | nulByte
  | invalidUtf8
deriving DecidableEq, Repr

/-- The wording of a file error. -/
def FileError.message : FileError → String
  | .notFound => "No such file or directory (os error 2)"
  | .alreadyExists => "File exists (os error 17)"
  | .notDirectory => "Not a directory (os error 20)"
  | .isDirectory => "Is a directory (os error 21)"
  | .tooManyLinks => "Too many levels of symbolic links (os error 40)"
  | .nameTooLong => "File name too long (os error 36)"
  | .nulByte => "file name contained an unexpected NUL byte"
  | .invalidUtf8 => "stream did not contain valid UTF-8"

/-- Files under a root.  Entries are keyed by the names that lead to them from the root, no key
    twice; the root itself needs no entry. -/
structure FileSystem where
  /-- Names of the current directory. -/
  cwd : List String := []
  entries : List (List String × Entry) := []
  /-- Seconds stamped on files that are written during the run. -/
  now : Nat := 4102444800
  /-- Number of files written so far. -/
  writes : Nat := 0

namespace FileSystem

/-- How many symbolic links one lookup may follow. -/
def maxLinks : Nat := 40

/-- The entry at a list of names; the root is a directory. -/
def find? (fs : FileSystem) (names : List String) : Option Entry :=
  if names = [] then some .directory
  else (fs.entries.find? (·.1 == names)).map (·.2)

/-- Replaces or adds the entry at a list of names. -/
def put (fs : FileSystem) (names : List String) (e : Entry) : FileSystem :=
  { fs with entries := fs.entries.filter (·.1 != names) ++ [(names, e)] }

/-- Forgets the entry at a list of names and everything below it. -/
def erase (fs : FileSystem) (names : List String) : FileSystem :=
  { fs with entries := fs.entries.filter fun e => !names.isPrefixOf e.1 }

/-- The names directly inside a directory, in the order they were created. -/
def children (fs : FileSystem) (dir : List String) : List (String × Entry) :=
  fs.entries.filterMap fun e =>
    match e.1.getLast? with
    | some name => if e.1.dropLast = dir then some (name, e.2) else none
    | none => none

/-! ### Lookup -/

/-- What a path is looked up for. -/
inductive Purpose where
  /-- What it leads to has to exist. -/
  | existing
  /-- A regular file is going to be written there. -/
  | writing
  /-- A directory is going to be made there. -/
  | making
deriving DecidableEq, Repr

/-- The most bytes of a name. -/
def maxNameBytes : Nat := 255

/-- The most bytes of a path. -/
def maxPathBytes : Nat := 4095

/-- A name with these steps behind it is the last one, and something is written or made there. -/
def isTarget (purpose : Purpose) : List Path.Step → Bool
  | [] => purpose != .existing
  | [.slash] => purpose == .making
  | _ => false

/-- Walks steps from the directory `at`.  `follow` continues a walk after a symbolic link.  A file
    is written where the last name leads, through links, but never behind a separator; a directory
    is made where nothing has the last name. -/
def walk (fs : FileSystem) (purpose : Purpose)
    (follow : List String → List Path.Step → Except FileError (List String)) :
    List String → List Path.Step → Except FileError (List String)
  | dir, [] =>
    match purpose with
    | .existing => .ok dir
    | .writing => .error .isDirectory
    | .making => .error .alreadyExists
  | _, .root :: rest => walk fs purpose follow [] rest
  | dir, .here :: rest => walk fs purpose follow dir rest
  | dir, .slash :: rest => walk fs purpose follow dir rest
  | dir, .up :: rest => walk fs purpose follow dir.dropLast rest
  | dir, .name s :: rest =>
    let target := isTarget purpose rest
    if purpose = .writing ∧ rest = [.slash] then .error .isDirectory
    else if maxNameBytes < s.utf8ByteSize then .error .nameTooLong
    else match fs.find? (dir ++ [s]) with
      | none => if target then .ok (dir ++ [s]) else .error .notFound
      | some found =>
        if target ∧ purpose = .making then .error .alreadyExists
        else match found with
          | .directory => walk fs purpose follow (dir ++ [s]) rest
          | .file .. => if rest.isEmpty then .ok (dir ++ [s]) else .error .notDirectory
          | .link path => follow dir (path.steps ++ rest)

/-- A walk that may follow this many more symbolic links. -/
def walkLinks (fs : FileSystem) (purpose : Purpose) :
    Nat → List String → List Path.Step → Except FileError (List String)
  | 0 => fs.walk purpose fun _ _ => .error .tooManyLinks
  | n + 1 => fs.walk purpose (fs.walkLinks purpose n)

/-- The names of what a path leads to, whatever its length. -/
def trace (fs : FileSystem) (purpose : Purpose) (p : Path) : Except FileError (List String) :=
  if p.text.toList.contains '\x00' then .error .nulByte
  else if p.text.isEmpty then .error .notFound
  else fs.walkLinks purpose maxLinks fs.cwd p.steps

/-- The names of what a path leads to. -/
def locate (fs : FileSystem) (purpose : Purpose) (p : Path) : Except FileError (List String) :=
  if !p.text.toList.contains '\x00' && maxPathBytes < p.text.utf8ByteSize then .error .nameTooLong
  else fs.trace purpose p

/-- The names of an existing file or directory, through links. -/
def resolve (fs : FileSystem) (p : Path) : Except FileError (List String) :=
  fs.locate .existing p

/-- The file or directory at a path, through links. -/
def entryAt (fs : FileSystem) (p : Path) : Except FileError Entry := do
  let names ← fs.resolve p
  match fs.find? names with
  | some e => pure e
  | none => throw .notFound

/-- The path leads to something. -/
def exists? (fs : FileSystem) (p : Path) : Bool := (fs.entryAt p).toOption.isSome

/-- The path leads to a regular file. -/
def isFile (fs : FileSystem) (p : Path) : Bool :=
  match fs.entryAt p with
  | .ok (.file ..) => true
  | _ => false

/-- The path leads to a directory. -/
def isDirectory (fs : FileSystem) (p : Path) : Bool :=
  match fs.entryAt p with
  | .ok .directory => true
  | _ => false

/-- The modification time of what a path leads to. -/
def modified (fs : FileSystem) (p : Path) : Except FileError Stamp := do
  match ← fs.entryAt p with
  | .file _ stamp => pure stamp
  | _ => pure { seconds := fs.now }

/-- The bytes of a regular file. -/
def readBytes (fs : FileSystem) (p : Path) : Except FileError ByteArray := do
  match ← fs.entryAt p with
  | .file bytes _ => pure bytes
  | _ => throw .isDirectory

/-- The text of a regular file. -/
def readText (fs : FileSystem) (p : Path) : Except FileError String := do
  let bytes ← fs.readBytes p
  match String.fromUTF8? bytes with
  | some text => pure text
  | none => throw .invalidUtf8

/-! ### Canonical paths -/

/-- Names reached by dropping dots and cancelling `..` against the name before it; names stand in
    reverse. -/
def cancelUps : List String → List Part → List String
  | names, [] => names
  | _, .root :: rest => cancelUps [] rest
  | names, .here :: rest => cancelUps names rest
  | names, .up :: rest => cancelUps names.tail rest
  | names, .name s :: rest => cancelUps (s :: names) rest

/-- The absolute path without `.` and `..` that a path spells, whether or not it exists. -/
def normalize (fs : FileSystem) (p : Path) : Path :=
  .ofNames (cancelUps fs.cwd.reverse p.parts).reverse

/-- The canonical form of a path: through all links if it exists, by its spelling otherwise. -/
def canonicalPath (fs : FileSystem) (p : Path) : Path :=
  match fs.trace .existing p with
  | .ok names => .ofNames names
  | .error _ => fs.normalize p

/-! ### Changes -/

/-- The stamp of the next file written. -/
def nextStamp (fs : FileSystem) : Stamp := { seconds := fs.now, serial := fs.writes + 1 }

/-- Writes a regular file in an existing directory, over what the file held before. -/
def writeFile (fs : FileSystem) (p : Path) (bytes : ByteArray) : Except FileError FileSystem := do
  let names ← fs.locate .writing p
  pure { fs.put names (.file bytes fs.nextStamp) with writes := fs.writes + 1 }

/-- Makes one directory. -/
def makeDirectory (fs : FileSystem) (p : Path) : Except FileError FileSystem := do
  let names ← fs.locate .making p
  pure (fs.put names .directory)

/-- Makes a directory, after the missing ones above it if there are any.  The first argument bounds
    the number of directories.  Those that were made stay, also when a later one cannot be made. -/
def makeDirectories : Nat → FileSystem → Path → Except FileError Unit × FileSystem
  | 0, fs, _ => (.ok (), fs)
  | n + 1, fs, p =>
    if p.text.isEmpty then (.ok (), fs)
    else
      let settle := fun (fs : FileSystem) (e : FileError) =>
        if fs.isDirectory p then (Except.ok (), fs) else (Except.error e, fs)
      match fs.makeDirectory p with
      | .ok made => (.ok (), made)
      | .error .notFound =>
        match p.parent? with
        | none => (.error .notFound, fs)
        | some above =>
          match makeDirectories n fs above with
          | (.error e, fs) => (.error e, fs)
          | (.ok (), fs) =>
            match fs.makeDirectory p with
            | .ok made => (.ok (), made)
            | .error e => settle fs e
      | .error e => settle fs e

/-- Makes a directory and all missing ones above it. -/
def createDirAll (fs : FileSystem) (p : Path) : Except FileError Unit × FileSystem :=
  makeDirectories (p.parts.length + 1) fs p

/-- Writes a file after making the directories above it. -/
def writeBelow (fs : FileSystem) (p : Path) (bytes : ByteArray) :
    Except FileError Unit × FileSystem :=
  let (made, fs) := match p.parent? with
    | some above => fs.createDirAll above
    | none => (.ok (), fs)
  match made with
  | .error e => (.error e, fs)
  | .ok () =>
    match fs.writeFile p bytes with
    | .error e => (.error e, fs)
    | .ok fs => (.ok (), fs)

/-- The names of the entry a path spells, with links followed in the directories above it only. -/
def spot? (fs : FileSystem) (p : Path) : Option (List String) :=
  match p.parent?, p.fileName? with
  | some above, some name =>
    let dir := if above.text.isEmpty then .ok fs.cwd else fs.resolve above
    dir.toOption.map (· ++ [name])
  | _, _ => none

/-- Puts an entry at a path in place of whatever is there, with the directories above it. -/
def install (fs : FileSystem) (p : Path) (e : Entry) : FileSystem :=
  let made := match p.parent? with
    | some above => (fs.createDirAll above).2
    | none => fs
  match made.spot? p with
  | some names => (made.erase names).put names e
  | none => made

/-- Removes what is at a path, links themselves included. -/
def remove (fs : FileSystem) (p : Path) : FileSystem :=
  match fs.spot? p with
  | some names => fs.erase names
  | none => fs

/-- Changes the modification time of a regular file, if there is one at the path. -/
def touch (fs : FileSystem) (p : Path) (stamp : Stamp) : FileSystem :=
  match fs.resolve p with
  | .ok names =>
    match fs.find? names with
    | some (.file bytes _) => fs.put names (.file bytes stamp)
    | _ => fs
  | .error _ => fs

/-! ### Facts -/

theorem find?_put (fs : FileSystem) {names : List String} (h : names ≠ []) (e : Entry) :
    (fs.put names e).find? names = some e := by
  have hnone : (fs.entries.filter (·.1 != names)).find? (·.1 == names) = none := by
    rw [List.find?_eq_none]
    intro x hx
    simpa using (List.mem_filter.mp hx).2
  simp [find?, put, h, List.find?_append, hnone]

end FileSystem

end SymbolAtlas
