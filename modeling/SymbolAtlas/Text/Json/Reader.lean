import SymbolAtlas.Text.Json
import SymbolAtlas.Text.Json.Scanner

/-!
# Reading JSON

`Json.parse?` reads a document that holds one value and blanks around it.
-/

set_option autoImplicit false

namespace SymbolAtlas.Text.Json

/-- The text between two scanners. -/
def between (s t : Scanner) : String :=
  String.ofList ((s.rest.take (s.rest.length - t.rest.length)).map fun b => Char.ofNat b.toNat)

/-- Passes an ASCII character. -/
def expect (c : Char) (kind : FaultKind) (s : Scanner) : Except Fault Scanner :=
  let s := s.skip
  if s.peek = some c then .ok s.bump else .error (s.nextFault kind)

mutual

/-- Reads a value; the number bounds how many values and levels may be looked at. -/
def readValue : Nat → Scanner → Except Fault (Json × Scanner)
  | 0, s => .error (s.fault .endInValue)
  | n + 1, s =>
    let s := s.skip
    match s.peek with
    | none => .error (s.nextFault .endInValue)
    | some 'n' => (readWord "ull".toList s.bump).map (Json.null, ·)
    | some 't' => (readWord "rue".toList s.bump).map (Json.bool true, ·)
    | some 'f' => (readWord "alse".toList s.bump).map (Json.bool false, ·)
    | some '"' => (readText s.bump).map fun (t, s) => (.string t, s)
    | some '[' =>
      if s.bump.skip.peek = some ']' then .ok (.array [], s.bump.skip.bump)
      else (readItems n s.bump).map fun (items, s) => (.array items, s)
    | some '\x7b' =>
      if s.bump.skip.peek = some '\x7d' then .ok (.object [], s.bump.skip.bump)
      else (readMembers n s.bump).map fun (members, s) => (.object members, s)
    | some c =>
      if c = '-' ∨ c.isDigit then
        (readNumeral .endInValue s).map fun (_, t) => (.number (between s t), t)
      else .error (s.nextFault .noValue)

/-- Reads the items of an array and its closing bracket. -/
def readItems : Nat → Scanner → Except Fault (List Json × Scanner)
  | 0, s => .error (s.fault .endInArray)
  | n + 1, s =>
    match readValue n s with
    | .error e => .error e
    | .ok (item, s) =>
      if s.skip.peek = some ',' then
        (readItems n s.skip.bump).map fun (items, s) => (item :: items, s)
      else (expect ']' .noArrayEnd s).map ([item], ·)

/-- Reads the members of an object and its closing brace. -/
def readMembers : Nat → Scanner → Except Fault (List (String × Json) × Scanner)
  | 0, s => .error (s.fault .endInObject)
  | n + 1, s =>
    match (expect '"' .keyNotText s).bind readText with
    | .error e => .error e
    | .ok (key, s) =>
      match (expect ':' .noColon s).bind (readValue n) with
      | .error e => .error e
      | .ok (value, s) =>
        if s.skip.peek = some ',' then
          (readMembers n s.skip.bump).map fun (members, s) => ((key, value) :: members, s)
        else (expect '\x7d' .noObjectEnd s).map ([(key, value)], ·)

end

/-- Reads a document with one value. -/
def parse (bytes : List UInt8) : Except Fault Json :=
  match readValue (2 * bytes.length + 2) { rest := bytes } with
  | .error e => .error e
  | .ok (value, s) =>
    if s.skip.rest.isEmpty then .ok value else .error (s.skip.nextFault .trailingCharacters)

/-- Reads a text with one value. -/
def parse? (s : String) : Option Json := (parse s.toUTF8.toList).toOption

end SymbolAtlas.Text.Json
