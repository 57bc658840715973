import SymbolAtlas.Text.Binary64
import SymbolAtlas.Text.Quoted

/-!
# Going through JSON

A scanner stands between two bytes of a JSON document.  Its readers take texts, numbers and words,
or pass over a value whose content does not count; what is wrong is told with line and column.

Main facts: passing blanks never adds bytes (`Json.Scanner.length_skip`).
-/

set_option autoImplicit false

namespace SymbolAtlas.Text.Json

/-- What is wrong with a document. -/
inductive FaultKind where
  | endInArray
  | endInObject
  | endInText
  | endInValue
  | noColon
  | noArrayEnd
  | noObjectEnd
  | noWord
  | noValue
  | badEscape
  | badNumber
  | numberTooLarge
  | badCharacter
  | controlCharacter
  | keyNotText
  | loneSurrogate
  | unpairedEscape
  | trailingComma
  | trailingCharacters
  /-- The value is not what is asked for. -/
  | unfit (wording : String)
deriving DecidableEq, Repr

/-- The wording of what is wrong. -/
def FaultKind.message : FaultKind → String
  | .endInArray => "EOF while parsing a list"
  | .endInObject => "EOF while parsing an object"
  | .endInText => "EOF while parsing a string"
  | .endInValue => "EOF while parsing a value"
  | .noColon => "expected `:`"
  | .noArrayEnd => "expected `,` or `]`"
  | .noObjectEnd => "expected `,` or `\x7d`"
  | .noWord => "expected ident"
  | .noValue => "expected value"
  | .badEscape => "invalid escape"
  | .badNumber => "invalid number"
  | .numberTooLarge => "number out of range"
  | .badCharacter => "invalid unicode code point"
  | .controlCharacter =>
    "control character (\\u0000-\\u001F) found while parsing a string"
  | .keyNotText => "key must be a string"
  | .loneSurrogate => "lone leading surrogate in hex escape"
  | .unpairedEscape => "unexpected end of hex escape"
  | .trailingComma => "trailing comma"
  | .trailingCharacters => "trailing characters"
  | .unfit wording => wording

/-- What is wrong, and behind which byte; lines count from one. -/
structure Fault where
  kind : FaultKind
  line : Nat
  column : Nat
deriving DecidableEq, Repr

/-- The text that tells a fault. -/
def Fault.message (f : Fault) : String :=
  s!"{f.kind.message} at line {f.line} column {f.column}"

/-- What is left of a document, and how much of the line was read. -/
structure Scanner where
  rest : List UInt8
  line : Nat := 1
  column : Nat := 0

namespace Scanner

/-- The byte of an ASCII character. -/
def byte (c : Char) : UInt8 := c.toNat.toUInt8

/-- Behind the next byte. -/
def bump (s : Scanner) : Scanner :=
  match s.rest with
  | [] => s
  | b :: rest =>
    if b = 10 then { rest, line := s.line + 1, column := 0 }
    else { rest, line := s.line, column := s.column + 1 }

/-- The fault here. -/
def fault (s : Scanner) (kind : FaultKind) : Fault := ⟨kind, s.line, s.column⟩

/-- The fault at the next byte. -/
def nextFault (s : Scanner) (kind : FaultKind) : Fault := s.bump.fault kind

/-- The next byte, as a character where it is ASCII. -/
def peek (s : Scanner) : Option Char := s.rest.head?.map fun b => Char.ofNat b.toNat

/-- Behind blanks. -/
def skip (s : Scanner) : Scanner :=
  (s.rest.takeWhile fun b => b == 32 || b == 9 || b == 10 || b == 13).foldl (fun s _ => s.bump) s

/-- Behind a number of bytes. -/
def bumps (s : Scanner) (n : Nat) : Scanner := (List.range n).foldl (fun s _ => s.bump) s

end Scanner

/-! ### Words and numbers -/

/-- Reads the rest of a word. -/
def readWord : List Char → Scanner → Except Fault Scanner
  | [], s => .ok s
  | c :: cs, s =>
    match s.rest with
    | [] => .error (s.fault .endInValue)
    | b :: _ => if b = Scanner.byte c then readWord cs s.bump else .error (s.nextFault .noWord)

/-- The value of the digit that comes next. -/
def nextDigit? (s : Scanner) : Option Nat :=
  s.peek.bind fun c => if c.isDigit then some (c.toNat - 48) else none

/-- The digits that come next, and the scanner behind them. -/
def readDigits (s : Scanner) : List Nat × Scanner :=
  let digits := (s.rest.takeWhile fun b => 48 ≤ b && b ≤ 57).map fun b => b.toNat - 48
  (digits, s.bumps digits.length)

/-- A decimal number as it is written. -/
structure Numeral where
  negative : Bool := false
  /-- The digits in front of the point. -/
  whole : List Nat
  /-- The digits behind the point. -/
  fraction : Option (List Nat) := none
  /-- The sign and the digits of the exponent. -/
  exponent : Option (Bool × List Nat) := none
deriving Repr

/-- Reads the digits in front of the point; a leading zero stands alone. -/
def readWhole (ending : FaultKind) (s : Scanner) : Except Fault (List Nat × Scanner) :=
  match nextDigit? s with
  | none => .error (if s.rest.isEmpty then s.fault ending else s.nextFault .badNumber)
  | some 0 =>
    if (nextDigit? s.bump).isSome then .error (s.bump.nextFault .badNumber) else .ok ([0], s.bump)
  | some _ => .ok (readDigits s)

/-- Reads the digits behind the point, if there is one. -/
def readFraction (ending : FaultKind) (s : Scanner) :
    Except Fault (Option (List Nat) × Scanner) :=
  if s.peek = some '.' then
    match readDigits s.bump with
    | ([], t) => .error (t.nextFault (if t.rest.isEmpty then ending else .badNumber))
    | (ds, t) => .ok (some ds, t)
  else .ok (none, s)

/-- Reads the exponent, if there is one. -/
def readExponent (ending : FaultKind) (s : Scanner) :
    Except Fault (Option (Bool × List Nat) × Scanner) :=
  if s.peek = some 'e' ∨ s.peek = some 'E' then
    let s := s.bump
    let sign := s.peek
    let s := if sign = some '+' ∨ sign = some '-' then s.bump else s
    match readDigits s with
    | ([], s) => .error (if s.rest.isEmpty then s.fault ending else s.nextFault .badNumber)
    | (ds, t) => .ok (some (sign = some '-', ds), t)
  else .ok (none, s)

/-- Reads a number; `ending` is what is wrong where it breaks off. -/
def readNumeral (ending : FaultKind) (s : Scanner) : Except Fault (Numeral × Scanner) := do
  let negative := s.peek = some '-'
  let s := if negative then s.bump else s
  let (whole, s) ← readWhole ending s
  let (fraction, s) ← readFraction ending s
  let (exponent, s) ← readExponent ending s
  return ({ negative, whole, fraction, exponent }, s)

/-! ### Texts -/

/-- Reads four hexadecimal digits. -/
def readHex (s : Scanner) : Except Fault (Nat × Scanner) :=
  match s.rest with
  | a :: b :: c :: d :: _ =>
    let digits := [a, b, c, d].mapM fun b => hexValue? (Char.ofNat b.toNat)
    match digits with
    | some ds => .ok (ds.foldl (fun n d => n * 16 + d) 0, s.bumps 4)
    | none => .error ((s.bumps 4).fault .badEscape)
  | rest => .error ((s.bumps rest.length).fault .endInText)

/-- The character that a letter stands for behind a backslash. -/
def escaped? : Char → Option Char
  | '"' => some '"'
  | '\\' => some '\\'
  | '/' => some '/'
  | 'b' => some '\x08'
  | 'f' => some '\x0c'
  | 'n' => some '\n'
  | 'r' => some '\r'
  | 't' => some '\t'
  | _ => none

/-- Passes one byte of an escape for the second half of a character. -/
def passMark (c : Char) (s : Scanner) : Except Fault Scanner :=
  match s.peek with
  | none => .error (s.fault .endInText)
  | some d => if d = c then .ok s.bump else .error (s.nextFault .unpairedEscape)

/-- Reads the character whose number follows; characters beyond the first 65536 come in two
    halves. -/
def readUnicode (s : Scanner) : Except Fault (Char × Scanner) := do
  let (high, s) ← readHex s
  if 0xDC00 ≤ high ∧ high ≤ 0xDFFF then throw (s.fault .loneSurrogate)
  if high < 0xD800 ∨ 0xDBFF < high then return (Char.ofNat high, s)
  let s ← passMark '\\' s
  let s ← passMark 'u' s
  let (low, s) ← readHex s
  if low < 0xDC00 ∨ 0xDFFF < low then throw (s.fault .loneSurrogate)
  return (Char.ofNat (0x10000 + (high - 0xD800) * 0x400 + (low - 0xDC00)), s)

/-- Reads what a backslash stands for; the scanner stands behind it. -/
def readEscape (s : Scanner) : Except Fault (Char × Scanner) :=
  match s.peek with
  | none => .error (s.fault .endInText)
  | some 'u' => readUnicode s.bump
  | some c =>
    match escaped? c with
    | some d => .ok (d, s.bump)
    | none => .error (s.nextFault .badEscape)

/-- Reads the bytes of a text up to the quotation mark behind it; `before` holds those that were
    read, newest first. -/
def readBytes : Nat → List UInt8 → Scanner → Except Fault (List UInt8 × Scanner)
  | 0, _, s => .error (s.fault .endInText)
  | n + 1, before, s =>
    match s.rest with
    | [] => .error (s.fault .endInText)
    | b :: _ =>
      if b = 34 then .ok (before.reverse, s.bump)
      else if b = 92 then
        match readEscape s.bump with
        | .ok (c, s) => readBytes n ((String.utf8EncodeChar c).reverse ++ before) s
        | .error e => .error e
      else if b < 32 then .error (s.nextFault .controlCharacter)
      else readBytes n (b :: before) s.bump

/-- Reads a text; the scanner stands behind its opening quotation mark. -/
def readText (s : Scanner) : Except Fault (String × Scanner) :=
  match readBytes (s.rest.length + 1) [] s with
  | .error e => .error e
  | .ok (bytes, s) =>
    match String.fromUTF8? ⟨bytes.toArray⟩ with
    | some text => .ok (text, s)
    | none => .error (s.fault .badCharacter)

/-! ### Values that do not count -/

/-- Passes a text whatever its bytes; the scanner stands behind its opening quotation mark. -/
def passText : Nat → Scanner → Except Fault Scanner
  | 0, s => .error (s.fault .endInText)
  | n + 1, s =>
    match s.rest with
    | [] => .error (s.fault .endInText)
    | b :: _ =>
      if b = 34 then .ok s.bump
      else if b = 92 then
        let s := s.bump
        match s.peek with
        | none => .error (s.fault .endInText)
        | some 'u' =>
          match readHex s.bump with
          | .ok (_, s) => passText n s
          | .error e => .error e
        | some c =>
          if (escaped? c).isSome then passText n s.bump else .error (s.nextFault .badEscape)
      else if b < 32 then .error (s.fault .controlCharacter)
      else passText n s.bump

/-- Passes a value without parts.  None if an array or an object begins. -/
def passScalar (s : Scanner) : Except Fault (Option Scanner) :=
  match s.peek with
  | none => .error (s.nextFault .endInValue)
  | some 'n' => (readWord "ull".toList s.bump).map some
  | some 't' => (readWord "rue".toList s.bump).map some
  | some 'f' => (readWord "alse".toList s.bump).map some
  | some '"' => (passText (s.rest.length + 1) s.bump).map some
  | some '[' | some '\x7b' => .ok none
  | some c =>
    if c = '-' ∨ c.isDigit then (readNumeral .badNumber s).map fun r => some r.2
    else .error (s.nextFault .noValue)

/-- Passes a key and the colon behind it. -/
def passKey (s : Scanner) : Except Fault Scanner := do
  let s := s.skip
  if s.rest.isEmpty then throw (s.nextFault .endInObject)
  if s.peek ≠ some '"' then throw (s.nextFault .keyNotText)
  let s := (← passText (s.rest.length + 1) s.bump).skip
  if s.rest.isEmpty then throw (s.nextFault .endInObject)
  if s.peek ≠ some ':' then throw (s.nextFault .noColon)
  return s.bump

/-- Passes what stands behind a value, or behind the opening of an array or an object if `opened`.
    The list tells for every array and object around it whether it is an object, innermost first;
    the rest of it is left where another value follows. -/
def passEnds (opened : Bool) : List Bool → Scanner → Except Fault (List Bool × Scanner)
  | [], s => .ok ([], s)
  | isObject :: around, s =>
    let s := s.skip
    match s.peek with
    | none => .error (s.nextFault (if isObject then .endInObject else .endInArray))
    | some c =>
      if c = (if isObject then '\x7d' else ']') then passEnds false around s.bump
      else if opened then .ok (isObject :: around, s)
      else if c = ',' then .ok (isObject :: around, s.bump)
      else .error (s.nextFault (if isObject then .noObjectEnd else .noArrayEnd))

/-- Passes a value inside of arrays and objects, and all that follows in them. -/
def passFrom : Nat → List Bool → Scanner → Except Fault Scanner
  | 0, _, s => .error (s.fault .endInValue)
  | n + 1, around, s => do
    let s := s.skip
    let (around, s) ← match ← passScalar s with
      | some s => passEnds false around s
      | none => passEnds true ((s.peek = some '\x7b') :: around) s.bump
    match around with
    | [] => return s
    | true :: _ => passFrom n around (← passKey s)
    | false :: _ => passFrom n around s

/-- Passes a value, however deep. -/
def passValue (s : Scanner) : Except Fault Scanner := passFrom (s.rest.length + 1) [] s

/-! ### Facts -/

theorem Scanner.length_bump (s : Scanner) : s.bump.rest.length ≤ s.rest.length := by
  unfold Scanner.bump
  split
  · exact Nat.le_refl _
  · rename_i h
    split <;> simp [h]

theorem Scanner.length_skip (s : Scanner) : s.skip.rest.length ≤ s.rest.length := by
  have h : ∀ (bs : List UInt8) (t : Scanner),
      (bs.foldl (fun t _ => t.bump) t).rest.length ≤ t.rest.length := by
    intro bs
    induction bs with
    | nil => exact fun t => Nat.le_refl _
    | cons b bs ih => exact fun t => Nat.le_trans (ih t.bump) t.length_bump
  exact h _ s

end SymbolAtlas.Text.Json
