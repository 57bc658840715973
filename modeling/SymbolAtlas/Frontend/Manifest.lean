import SymbolAtlas.Language
import SymbolAtlas.Path
import SymbolAtlas.Text.Json
import SymbolAtlas.Text.Json.Scanner

/-!
# Preamble manifests

What a preamble artifact says, as it is written and read.  A manifest is an object with each of its
keys once, where other keys do not count, or its three parts in a row.
-/

set_option autoImplicit false

namespace SymbolAtlas

/-- What a preamble artifact says. -/
structure PreambleManifest where
  language : Language
  options : List String
  headers : List Path

namespace PreambleManifest

open Text.Json

/-- The manifest as a value to write. -/
def toJson (m : PreambleManifest) : Text.Json :=
  .object [
    ("language", .string m.language.storedName),
    ("options", .array (m.options.map .string)),
    ("headers", .array (m.headers.map fun h => .string h.text))]

/-! ### Numbers out of place -/

/-- The largest significand; a number with further digits is rounded. -/
def maxSignificand : Nat := 18446744073709551615

/-- Digits of the whole part, as a significand and a power of ten.  Once a digit does not fit, it
    and all that follow it only count as places. -/
def wholePart (ds : List Nat) : Nat × Nat :=
  ds.foldl
    (fun (n, places) d =>
      if 0 < places ∨ maxSignificand < n * 10 + d then (n, places + 1) else (n * 10 + d, 0))
    (0, 0)

/-- A significand with digits of a fraction, and their number.  A digit that does not fit ends
    them. -/
def fractionPart : Nat → List Nat → Nat × Nat
  | n, [] => (n, 0)
  | n, d :: ds =>
    if maxSignificand < n * 10 + d then (n, 0)
    else
      let (m, places) := fractionPart (n * 10 + d) ds
      (m, places + 1)

/-- A number times a power of ten, rounded at each step; none if it is too large. -/
def scale? : Nat → Text.Binary64 → Int → Option Text.Binary64
  | 0, b, _ => some b
  | n + 1, b, exponent =>
    if exponent.natAbs ≤ 308 then do
      let power ← Text.Binary64.tenTo? exponent.natAbs
      if 0 ≤ exponent then b.mul? power else b.div? power
    else if b.mantissa = 0 then some b
    else if 0 ≤ exponent then none
    else do scale? n (← b.div? (← Text.Binary64.tenTo? 308)) (exponent + 308)

/-- The number of digits behind the one with which an exponent leaves 31 bits. -/
def surplusDigits : Nat → List Nat → Nat
  | _, [] => 0
  | n, d :: ds => if 2147483647 < n * 10 + d then ds.length else surplusDigits (n * 10 + d) ds

/-- An exponent that fits into 31 bits. -/
def exponent? (ds : List Nat) : Option Nat :=
  let n := ds.foldl (fun n d => n * 10 + d) 0
  if n ≤ 2147483647 then some n else none

/-- The text of a number that stands where none is asked for; the scanner stands behind it. -/
def numberText (x : Numeral) (s : Scanner) : Except Fault String :=
  let sign := if x.negative then "-" else ""
  let (whole, dropped) := wholePart x.whole
  if dropped = 0 ∧ x.fraction = none ∧ x.exponent = none
      ∧ !(x.negative && (whole = 0 || 9223372036854775808 < whole)) then
    .ok s!"integer `{sign}{whole}`"
  else
    let (significand, places) := fractionPart whole (x.fraction.getD [])
    let start : Int := dropped - places
    let write := fun (b : Text.Binary64) => s!"floating point `{sign}{b.text}`"
    let value := fun (exponent : Int) =>
      match (Text.Binary64.ofRatio? significand 1).bind (scale? 4 · exponent) with
      | some b => Except.ok (write b)
      | none => .error (s.fault .numberTooLarge)
    match x.exponent with
    | none => value start
    | some (negative, ds) =>
      match exponent? ds with
      | some n => value (if negative then start - n else start + n)
      | none =>
        if significand = 0 ∨ negative then .ok (write ⟨0, 0⟩)
        else
          .error { s.fault .numberTooLarge with column := s.column - surplusDigits 0 ds }

/-! ### Parts -/

/-- The fault that a value of one kind stands where another is asked for. -/
def unfit (s : Scanner) (found asked : String) : Fault :=
  s.fault (.unfit s!"invalid type: {found}, expected {asked}")

/-- The fault of a value that is not what is asked for. -/
def wrongType (asked : String) (s : Scanner) : Fault :=
  let told := fun (r : Except Fault Scanner) (found : String) =>
    match r with
    | .ok s => unfit s found asked
    | .error e => e
  match s.peek with
  | some 'n' => told (readWord "ull".toList s.bump) "null"
  | some 't' => told (readWord "rue".toList s.bump) "boolean `true`"
  | some 'f' => told (readWord "alse".toList s.bump) "boolean `false`"
  | some '"' =>
    match readText s.bump with
    | .ok (text, s) => unfit s s!"string {Text.quoted text}" asked
    | .error e => e
  | some '[' => unfit s "sequence" asked
  | some '\x7b' => unfit s "map" asked
  | some c =>
    if c = '-' ∨ c.isDigit then
      match readNumeral .endInValue s with
      | .error e => e
      | .ok (x, s) =>
        match numberText x s with
        | .ok found => unfit s found asked
        | .error e => e
    else s.nextFault .noValue
  | none => s.nextFault .endInValue

/-- Reads a text. -/
def readString (asked : String) (s : Scanner) : Except Fault (String × Scanner) :=
  let s := s.skip
  if s.peek = some '"' then readText s.bump else .error (wrongType asked s)

/-- Behind what separates the items of an array, if another one follows. -/
def nextItem (first : Bool) (s : Scanner) : Except Fault (Option Scanner) :=
  let s := s.skip
  match s.peek with
  | none => .error (s.nextFault .endInArray)
  | some c =>
    if c = ']' then .ok none
    else if first then .ok (some s)
    else if c = ',' then
      let s := s.bump.skip
      if s.rest.isEmpty then .error (s.nextFault .endInValue)
      else if s.peek = some ']' then .error (s.nextFault .trailingComma)
      else .ok (some s)
    else .error (s.nextFault .noArrayEnd)

/-- Reads the texts of an array and its closing bracket. -/
def readStringsFrom (asked : String) (first : Bool) :
    Nat → Scanner → Except Fault (List String × Scanner)
  | 0, s => .error (s.fault .endInArray)
  | n + 1, s => do
    match ← nextItem first s with
    | none => return ([], s.skip.bump)
    | some s =>
      let (text, s) ← readString asked s
      let (texts, s) ← readStringsFrom asked false n s
      return (text :: texts, s)

/-- Reads an array of texts. -/
def readStrings (asked : String) (s : Scanner) : Except Fault (List String × Scanner) :=
  let s := s.skip
  if s.peek = some '[' then readStringsFrom asked true (s.rest.length + 1) s.bump
  else .error (wrongType "a sequence" s)

/-- Reads the stored name of a language. -/
def readName (s : Scanner) : Except Fault (Language × Scanner) := do
  let (name, s) ← readString "variant identifier" s
  match Language.ofStoredName? name with
  | some language => return (language, s)
  | none => throw (s.fault (.unfit s!"unknown variant `{name}`, expected `C` or `c++`"))

/-- Reads a language: its name, or an object with the name as its only key and no value. -/
def readLanguage (s : Scanner) : Except Fault (Language × Scanner) := do
  let s := s.skip
  match s.peek with
  | none => throw (s.nextFault .endInValue)
  | some '"' => readName s
  | some '\x7b' =>
    let (language, s) ← readName s.bump
    let s := s.skip
    if s.rest.isEmpty then throw (s.nextFault .endInObject)
    if s.peek ≠ some ':' then throw (s.nextFault .noColon)
    let s := s.bump.skip
    if s.peek ≠ some 'n' then throw (wrongType "unit" s)
    let s := (← readWord "ull".toList s.bump).skip
    if s.rest.isEmpty then throw (s.fault .endInObject)
    if s.peek ≠ some '\x7d' then throw (s.fault .noValue)
    return (language, s.bump)
  | some _ => throw (s.nextFault .noValue)

/-! ### Manifests -/

/-- What a manifest is called in a fault. -/
def typeName : String := "struct PreambleManifest"

/-- The parts that were read. -/
structure Parts where
  language : Option Language := none
  options : Option (List String) := none
  headers : Option (List String) := none

/-- Behind a closing character, if it comes next, and blanks. -/
def pastEnd (close : Char) (s : Scanner) : Scanner :=
  if s.skip.peek = some close then s.skip.bump else s.skip

/-- Behind what separates the members of an object, if another one follows. -/
def nextKey (first : Bool) (s : Scanner) : Except Fault (Option Scanner) :=
  let s := s.skip
  match s.peek with
  | none => .error (s.nextFault .endInObject)
  | some c =>
    if c = '\x7d' then .ok none
    else if first then if c = '"' then .ok (some s.bump) else .error (s.nextFault .keyNotText)
    else if c = ',' then
      let s := s.bump.skip
      match s.peek with
      | some '"' => .ok (some s.bump)
      | some '\x7d' => .error (s.nextFault .trailingComma)
      | some _ => .error (s.nextFault .keyNotText)
      | none => .error (s.nextFault .endInValue)
    else .error (s.nextFault .noObjectEnd)

/-- Passes the colon behind a key. -/
def passColon (s : Scanner) : Except Fault Scanner :=
  let s := s.skip
  match s.peek with
  | some ':' => .ok s.bump
  | some _ => .error (s.nextFault .noColon)
  | none => .error (s.nextFault .endInObject)

/-- The fault that a key is repeated. -/
def repeated (key : String) (s : Scanner) : Fault :=
  (pastEnd '\x7d' s).fault (.unfit s!"duplicate field `{key}`")

/-- Reads the value of a key. -/
def readMember (key : String) (p : Parts) (s : Scanner) : Except Fault (Parts × Scanner) := do
  match key with
  | "language" =>
    if p.language.isSome then throw (repeated key s)
    let (v, s) ← readLanguage (← passColon s)
    return ({ p with language := some v }, s)
  | "options" =>
    if p.options.isSome then throw (repeated key s)
    let (v, s) ← readStrings "a string" (← passColon s)
    return ({ p with options := some v }, s)
  | "headers" =>
    if p.headers.isSome then throw (repeated key s)
    let (v, s) ← readStrings "path string" (← passColon s)
    return ({ p with headers := some v }, s)
  | _ => return (p, ← passValue (← passColon s))

/-- The manifest with some parts, once the last of its members was read. -/
def ofParts (p : Parts) (s : Scanner) : Except Fault (PreambleManifest × Scanner) :=
  let missing := fun (key : String) =>
    Except.error ((pastEnd '\x7d' s).fault (.unfit s!"missing field `{key}`"))
  match p.language, p.options, p.headers with
  | none, _, _ => missing "language"
  | _, none, _ => missing "options"
  | _, _, none => missing "headers"
  | some language, some options, some headers =>
    .ok ({ language, options, headers := headers.map (⟨·⟩) }, s.skip.bump)

/-- Reads the members of an object. -/
def readMembers (first : Bool) :
    Nat → Parts → Scanner → Except Fault (PreambleManifest × Scanner)
  | 0, _, s => .error (s.fault .endInObject)
  | n + 1, p, s => do
    match ← nextKey first s with
    | none => ofParts p s
    | some s =>
      let (key, s) ← readText s
      let (p, s) ← readMember key p s
      readMembers false n p s

/-- Reads one of the parts in a row; `count` of them were read. -/
def readPart {α : Type} (count : Nat) (read : Scanner → Except Fault (α × Scanner)) (s : Scanner) :
    Except Fault (α × Scanner) := do
  match ← nextItem (count == 0) s with
  | some s => read s
  | none =>
    throw ((pastEnd ']' s).fault
      (.unfit s!"invalid length {count}, expected {typeName} with 3 elements"))

/-- Passes the closing bracket behind the parts in a row. -/
def passBracket (s : Scanner) : Except Fault Scanner :=
  let s := s.skip
  match s.peek with
  | some ']' => .ok s.bump
  | some ',' =>
    let s := s.bump.skip
    .error (s.nextFault (if s.peek = some ']' then .trailingComma else .trailingCharacters))
  | some _ => .error (s.nextFault .trailingCharacters)
  | none => .error (s.nextFault .endInArray)

/-- Reads the parts in a row. -/
def readRow (s : Scanner) : Except Fault (PreambleManifest × Scanner) := do
  let (language, s) ← readPart 0 readLanguage s
  let (options, s) ← readPart 1 (readStrings "a string") s
  let (headers, s) ← readPart 2 (readStrings "path string") s
  return ({ language, options, headers := headers.map (⟨·⟩) }, ← passBracket s)

/-- Reads a manifest. -/
def read (s : Scanner) : Except Fault (PreambleManifest × Scanner) :=
  let s := s.skip
  match s.peek with
  | some '\x7b' => readMembers true (s.rest.length + 1) {} s.bump
  | some '[' => readRow s.bump
  | _ => .error (wrongType typeName s)

/-- Reads the bytes of an artifact. -/
def ofBytes (bytes : ByteArray) : Except Fault PreambleManifest := do
  let (m, s) ← read { rest := bytes.toList }
  let s := s.skip
  if s.rest.isEmpty then return m else throw (s.nextFault .trailingCharacters)

end PreambleManifest

end SymbolAtlas
