import SymbolAtlas.Regex.Scanner

/-!
# Single parts of a pattern

`Regex.readEscape` reads what a backslash stands for together with the characters behind it, and
`Regex.readPrimitive` any part that is neither a group, a class in brackets nor a repetition.
-/

set_option autoImplicit false

namespace SymbolAtlas.Regex

/-- A part without parts of its own. -/
inductive Primitive where
  | literal (l : Literal)
  | dot (span : Span)
  | assertion (span : Span) (word : Bool)
  | property (span : Span) (letter : Char)
  | shorthand (span : Span) (negated : Bool)

/-- Where a part stands. -/
def Primitive.span : Primitive → Span
  | .literal l => l.span
  | .dot s | .assertion s _ | .property s _ | .shorthand s _ => s

/-- The part as a regular expression. -/
def Primitive.toRegex : Primitive → Regex
  | .literal l => .literal l
  | .dot s => .dot s
  | .assertion s word => .assertion s word
  | .property s letter => .property s letter
  | .shorthand s negated => .shorthand s negated

/-- The part inside a class. -/
def Primitive.toClassSet : Primitive → Except Fault ClassSet
  | .literal l => .ok (.literal l)
  | .property s letter => .ok (.property s letter)
  | .shorthand s negated => .ok (.shorthand s negated)
  | .dot s | .assertion s _ => .error { kind := .classEscape, span := s }

/-- The part as the end of a range. -/
def Primitive.toRangeEnd : Primitive → Except Fault Literal
  | .literal l => .ok l
  | p => .error { kind := .classRangeEnd, span := p.span }

/-- Characters that mean something, or could come to mean something, without a backslash. -/
def metaCharacters : List Char :=
  ['\\', '.', '+', '*', '?', '(', ')', '|', '[', ']', '\x7b', '\x7d', '^', '$', '#', '&', '-', '~']

/-- A character that stands for itself behind a backslash.  Letters and digits are kept for escapes,
    and the angle brackets are words' ends. -/
def standsForItself (c : Char) : Bool :=
  metaCharacters.contains c || (c.toNat < 128 && !c.isAlphanum && c != '<' && c != '>')

/-- The control character that a letter behind a backslash stands for. -/
def controlCharacter? : Char → Option Char
  | 'a' => some '\x07'
  | 'f' => some '\x0c'
  | 't' => some '\t'
  | 'n' => some '\n'
  | 'r' => some '\r'
  | 'v' => some '\x0b'
  | _ => none

/-! ### Characters by their number -/

/-- Reads this many more hexadecimal digits. -/
def readHexDigits : Nat → Nat → Scanner → Except Fault (Nat × Scanner)
  | 0, value, s => .ok (value, s)
  | n + 1, value, s =>
    match s.rest with
    | [] => .error (s.fault .unfinishedEscape)
    | c :: _ =>
      match Text.hexValue? c with
      | none => .error (s.charFault .hexDigit)
      | some d => readHexDigits n (value * 16 + d) s.advance

/-- The fault of hexadecimal digits in braces. -/
def hexBraceFault (brace : Place) : Nat → Scanner → Fault
  | 0, s => s.faultFrom brace .unfinishedEscape
  | n + 1, s =>
    match s.advance.rest with
    | [] => s.advance.faultFrom brace .unfinishedEscape
    | c :: _ =>
      if (Text.hexValue? c).isSome then hexBraceFault brace n s.advance
      else s.advance.charFault .hexDigit

/-- Reads the character whose number has this many hexadecimal digits; the scanner stands at the
    letter in front of them. -/
def readHex (start : Place) (digits : Nat) (s : Scanner) : Except Fault (Primitive × Scanner) :=
  let s := s.advance
  match s.rest with
  | [] => .error (s.fault .unfinishedEscape)
  | '\x7b' :: rest => .error (hexBraceFault s.place rest.length s)
  | _ =>
    match readHexDigits digits 0 s with
    | .error e => .error e
    | .ok (n, t) =>
      if n.isValidChar then
        .ok (.literal { span := ⟨start, t.place⟩, char := Char.ofNat n, byte := digits == 2 }, t)
      else .error (t.faultFrom s.place .hexNoCharacter)

/-! ### Classes of characters and places -/

/-- Reads a class of Unicode by its letter; the scanner stands in front of that. -/
def readProperty (start : Place) (s : Scanner) : Except Fault (Primitive × Scanner) :=
  let s := s.advance
  match s.rest with
  | [] => .error (s.fault .unfinishedEscape)
  | '\x7b' :: rest =>
    .error ((rest.foldl (fun s _ => s.bump) s.bump).fault .unfinishedEscape)
  | '\\' :: _ => .error (s.charFault .propertyEscape)
  | c :: _ => .ok (.property ⟨start, s.advance.place⟩ c, s.advance)

/-- A character of the name of a word's end. -/
def inBoundaryName (c : Char) : Bool := c.isAlpha || c == '-'

/-- Behind the name of a word's end. -/
def passBoundaryName : Nat → Scanner → Scanner
  | 0, s => s
  | n + 1, s =>
    if s.rest.head?.any inBoundaryName then passBoundaryName n s.advance else s

/-- Reads a word's end; the scanner stands behind its letter.  A brace that opens no name opens a
    count. -/
def readWordEnd (start : Place) (s : Scanner) : Except Fault (Primitive × Scanner) :=
  let plain := (Primitive.assertion ⟨start, s.place⟩ true, s)
  match s.rest with
  | '\x7b' :: rest =>
    match s.advance.rest with
    | [] => .error (s.advance.faultFrom start .unfinishedBoundary)
    | c :: _ =>
      if inBoundaryName c then
        .error ((passBoundaryName rest.length s.advance).faultFrom s.place .unclosedBoundary)
      else .ok plain
  | _ => .ok plain

/-- Reads what a backslash stands for; the scanner stands at the backslash. -/
def readEscape (s : Scanner) : Except Fault (Primitive × Scanner) :=
  let start := s.place
  let s := s.bump
  match s.rest with
  | [] => .error (s.faultFrom start .unfinishedEscape)
  | c :: _ =>
    let next := s.bump
    let span : Span := ⟨start, next.place⟩
    if c.isDigit then .error (next.faultFrom start .backreference)
    else if c = 'x' then readHex start 2 s
    else if c = 'u' then readHex start 4 s
    else if c = 'U' then readHex start 8 s
    else if c = 'p' ∨ c = 'P' then readProperty start s
    else if c = 'd' ∨ c = 's' ∨ c = 'w' then .ok (.shorthand span false, next)
    else if c = 'D' ∨ c = 'S' ∨ c = 'W' then .ok (.shorthand span true, next)
    else if c = 'A' ∨ c = 'z' then .ok (.assertion span false, next)
    else if c = 'B' ∨ c = '<' ∨ c = '>' then .ok (.assertion span true, next)
    else if c = 'b' then readWordEnd start next
    else if standsForItself c then .ok (.literal { span, char := c }, next)
    else match controlCharacter? c with
      | some char => .ok (.literal { span, char }, next)
      | none => .error (next.faultFrom start .unknownEscape)

/-- Reads a part without parts of its own. -/
def readPrimitive (s : Scanner) : Except Fault (Primitive × Scanner) :=
  match s.rest with
  | [] => .error (s.fault .unfinishedEscape)
  | '\\' :: _ => readEscape s
  | '.' :: _ => .ok (.dot s.charSpan, s.bump)
  | '^' :: _ | '$' :: _ => .ok (.assertion s.charSpan false, s.bump)
  | c :: _ => .ok (.literal { span := s.charSpan, char := c }, s.bump)

end SymbolAtlas.Regex
