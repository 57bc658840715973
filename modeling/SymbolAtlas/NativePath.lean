import SymbolAtlas.FileSystem

/-!
# Native paths

For the operating system a path is a sequence of bytes, which need not be text.  A path that is
shown, in an option or in front of a line and a column, is shown as text: what is UTF-8 in it stands
for itself, and each longest piece that only begins like a character, or does not even do that, is
shown as one replacement character.

A `Path` is a native path that is text.

* `Utf8.decode` — the characters of bytes, with replacements where they are none.
* `NativePath` — bytes, with their components and with what is shown of them.
* `NativeFiles` — what an operating system tells of native paths; one whose names are all text is
  `FileSystem.native`.
-/

set_option autoImplicit false

namespace SymbolAtlas

/-! ## Bytes and characters -/

namespace Utf8

/-- The bytes of a text. -/
def encode (s : String) : List UInt8 := s.toList.flatMap String.utf8EncodeChar

/-- A character that was begun: its value so far, the bounds of the next byte, and how many bytes
    follow that one. -/
structure Begun where
  value : Nat
  low : Nat := 0x80
  high : Nat := 0xBF
  more : Nat
deriving DecidableEq, Repr

/-- What stands for bytes that are no character. -/
def replacement : Char := '\uFFFD'

/-- The character that a byte begins.  The bounds leave out values that are written with fewer
    bytes, surrogates and what lies behind the last character. -/
def begun? (b : Nat) : Option Begun :=
  if 0xC2 ≤ b ∧ b ≤ 0xDF then some { value := b - 0xC0, more := 0 }
  else if b = 0xE0 then some { value := 0, low := 0xA0, more := 1 }
  else if b = 0xED then some { value := 0xD, high := 0x9F, more := 1 }
  else if 0xE1 ≤ b ∧ b ≤ 0xEF then some { value := b - 0xE0, more := 1 }
  else if b = 0xF0 then some { value := 0, low := 0x90, more := 2 }
  else if 0xF1 ≤ b ∧ b ≤ 0xF3 then some { value := b - 0xF0, more := 2 }
  else if b = 0xF4 then some { value := 4, high := 0x8F, more := 2 }
  else none

/-- Reads a byte where no character was begun: the one it begins, and what it shows. -/
def first (b : Nat) : Option Begun × List Char :=
  if b < 0x80 then (none, [Char.ofNat b])
  else match begun? b with
    | some c => (some c, [])
    | none => (none, [replacement])

/-- Reads a byte: the character begun behind it, and what it shows.  A byte out of bounds breaks off
    the character before it. -/
def next : Option Begun → Nat → Option Begun × List Char
  | none, b => first b
  | some c, b =>
    if c.low ≤ b ∧ b ≤ c.high then
      let value := c.value * 64 + (b - 0x80)
      match c.more with
      | 0 => (none, [Char.ofNat value])
      | more + 1 => (some { value, more }, [])
    else
      let (begun, shown) := first b
      (begun, replacement :: shown)

/-- The characters of bytes, with what was begun before them. -/
def decode : Option Begun → List UInt8 → List Char
  | none, [] => []
  | some _, [] => [replacement]
  | begun, b :: bytes =>
    let (begun', shown) := next begun b.toNat
    shown ++ decode begun' bytes

end Utf8

/-! ## Paths -/

/-- A path of the operating system. -/
structure NativePath where
  bytes : List UInt8
deriving Repr, Inhabited

/-- One component of a native path. -/
inductive NativePart where
  | root
  | here
  | up
  | name (bytes : List UInt8)
deriving DecidableEq, Repr

/-- A path that is text, as the operating system takes it. -/
def Path.native (p : Path) : NativePath := ⟨Utf8.encode p.text⟩

namespace NativePath

instance : Coe (List Path) (List NativePath) := ⟨List.map Path.native⟩

/-- What is shown of a path. -/
def shown (p : NativePath) : String := String.ofList (Utf8.decode none p.bytes)

/-- Nothing is replaced where the path is shown. -/
def IsText (p : NativePath) : Prop := Utf8.encode p.shown = p.bytes

instance (p : NativePath) : Decidable p.IsText := inferInstanceAs (Decidable (_ = _))

/-- The path that is read where this one is shown. -/
def lossy (p : NativePath) : Path := ⟨p.shown⟩

/-- The path as text, if it is text. -/
def text? (p : NativePath) : Option Path := if p.IsText then some p.lossy else none

/-- The byte between components. -/
def separator : UInt8 := 0x2F

/-- The byte of a dot. -/
def dot : UInt8 := 0x2E

/-- The segments between separators, empty ones included. -/
def segments : List UInt8 → List (List UInt8)
  | [] => [[]]
  | b :: rest =>
    if b = separator then [] :: segments rest
    else match segments rest with
      | s :: more => (b :: s) :: more
      | [] => [[b]]

/-- The component of a segment that does not open a relative path; empty segments and dots
    vanish. -/
def innerPart (s : List UInt8) : Option NativePart :=
  if s = [] then none
  else if s = [dot] then none
  else if s = [dot, dot] then some .up
  else some (.name s)

/-- The path begins with a separator. -/
def isAbsolute (p : NativePath) : Bool := p.bytes.head? == some separator

/-- The components of a path. -/
def parts (p : NativePath) : List NativePart :=
  let segs := segments p.bytes
  if p.isAbsolute then .root :: segs.filterMap innerPart
  else match segs with
    | [0x2E] :: rest => .here :: rest.filterMap innerPart
    | _ => segs.filterMap innerPart

/-- Paths are equal if their components are. -/
instance : BEq NativePath := ⟨fun a b => a.parts == b.parts⟩

/-- The absolute path that visits these names from the root. -/
def ofNames (names : List (List UInt8)) : NativePath :=
  ⟨separator :: [separator].intercalate names⟩

/-- Names reached by dropping dots and cancelling `..` against the name before it; names stand in
    reverse. -/
def cancelUps : List (List UInt8) → List NativePart → List (List UInt8)
  | names, [] => names
  | _, .root :: rest => cancelUps [] rest
  | names, .here :: rest => cancelUps names rest
  | names, .up :: rest => cancelUps names.tail rest
  | names, .name s :: rest => cancelUps (s :: names) rest

end NativePath

/-! ## Files -/

/-- What an operating system tells of native paths. -/
structure NativeFiles where
  /-- Names of the current directory. -/
  cwd : List (List UInt8)
  /-- The names that lead from the root to what a path leads to, through links, if it exists. -/
  real : NativePath → Option (List (List UInt8))

namespace NativeFiles

/-- The absolute path without `.` and `..` that a path spells, whether or not it exists. -/
def normalize (files : NativeFiles) (p : NativePath) : NativePath :=
  .ofNames (NativePath.cancelUps files.cwd.reverse p.parts).reverse

/-- The canonical form of a path: through all links if it exists, by its spelling otherwise. -/
def canonicalPath (files : NativeFiles) (p : NativePath) : NativePath :=
  match files.real p with
  | some names => .ofNames names
  | none => files.normalize p

end NativeFiles

/-- A file system as the operating system shows it: all its names are text, so a path that is not
    leads nowhere. -/
def FileSystem.native (fs : FileSystem) : NativeFiles where
  cwd := fs.cwd.map Utf8.encode
  real p := p.text?.bind fun t =>
    (fs.trace .existing t).toOption.map fun names => names.map Utf8.encode

end SymbolAtlas
