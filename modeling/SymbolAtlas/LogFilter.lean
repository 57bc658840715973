import SymbolAtlas.Regex.Scope

/-!
# Log filters

What is logged is told by a list of directives between commas.  A directive names a level, a target,
or both, as in `info` or `index=debug`; a span with fields can follow the target in brackets, as in
`index[file{name=main.*}]=trace`.  The value of a field is a number or a regular expression.

Main facts: every level is known by its name (`LogLevel.ofText?_name`), and a text that is cut where
it ends is whole (`LogDirective.cut?_all`).
-/

set_option autoImplicit false

namespace SymbolAtlas

/-- How much is logged. -/
inductive LogLevel where
  | off
  | error
  | warn
  | info
  | debug
  | trace
deriving DecidableEq, Repr

namespace LogLevel

/-- The name of a level. -/
def name : LogLevel → String
  | .off => "off"
  | .error => "error"
  | .warn => "warn"
  | .info => "info"
  | .debug => "debug"
  | .trace => "trace"

/-- All levels; each is also known by its place in this list. -/
def all : List LogLevel := [.off, .error, .warn, .info, .debug, .trace]

/-- The level with a number from 0 to 5, or with a name in any case. -/
def ofText? (s : String) : Option LogLevel :=
  match Text.readNat? 5 s with
  | some n => all[n]?
  | none => all.find? fun l => l.name.toList == s.toList.map Char.toLower

/-- A filter at this level lets messages of the other level through. -/
def admits (l message : LogLevel) : Bool := all.idxOf message ≤ all.idxOf l

theorem ofText?_name (l : LogLevel) : ofText? l.name = some l := by
  cases l <;> decide +kernel

end LogLevel

/-- A condition on a field: its name, and the number or pattern that its value has to match. -/
structure FieldMatch where
  name : String
  value : Option String := none
deriving Repr

/-- One directive of a log filter. -/
structure LogDirective where
  level : LogLevel := .trace
  target : Option String := none
  span : Option String := none
  field : Option FieldMatch := none
deriving Repr

/-- Why a text is no log filter. -/
inductive LogFilterError where
  | malformed
  | unknownLevel
  /-- The value of a field is no regular expression. -/
  | pattern (text : String) (fault : Regex.Fault)
  /-- The value of a field looks for the ends of words. -/
  | wordEnds
  /-- A name or a level would begin or end inside a character. -/
  | splitCharacter
deriving DecidableEq, Repr

/-- The wording of a log filter error, with the causes behind it. -/
def LogFilterError.messages : LogFilterError → List String
  | .malformed => ["invalid filter directive"]
  | .unknownLevel =>
    let wording := "error parsing level filter: expected one of \"off\", \"error\", \"warn\", "
      ++ "\"info\", \"debug\", \"trace\", or a number 0-5"
    [wording, wording]
  | .pattern text fault =>
    ["invalid field filter: error building NFA", "error building NFA", "error parsing regex",
      fault.report text]
  | .wordEnds =>
    let wording := "unsupported regex feature for DFAs: cannot build DFAs for regexes with Unicode "
      ++ "word boundaries; switch to ASCII word boundaries, or heuristically enable Unicode word "
      ++ "boundaries or use a different regex engine"
    ["invalid field filter: " ++ wording, wording]
  | .splitCharacter => []

namespace FieldMatch

/-- The parts of a text between signs of equality. -/
def parts : List Char → List (List Char)
  | [] => [[]]
  | c :: rest =>
    if c = '=' then [] :: parts rest
    else match parts rest with
      | p :: more => (c :: p) :: more
      | [] => [[c]]

/-- Reads the value of a field: a number, or else a regular expression that does not look for the
    ends of words. -/
def parseValue (s : String) : Except LogFilterError String :=
  if Text.isDecimal s then .ok s
  else match Regex.parseForText s with
    | .error fault => .error (.pattern s fault)
    | .ok (_, scope) => if scope.wordEnds then .error .wordEnds else .ok s

/-- Reads a condition on a field.  What stands behind a second sign of equality does not count. -/
def parse (s : String) : Except LogFilterError FieldMatch :=
  match parts s.toList with
  | name :: value :: _ =>
    (parseValue (String.ofList value)).map fun v => ⟨String.ofList name, some v⟩
  | _ => .ok { name := s }

end FieldMatch

namespace LogDirective

/-- What is being read of a directive; a number tells where it began. -/
inductive Stage where
  | opening
  | target (start : Nat)
  | span (start : Nat)
  | field (start : Nat)
  | fieldsClosed
  | spanClosed
  | level (start : Nat)

/-- The characters from a place on, counted in bytes; none inside a character. -/
def dropBytes? : Nat → List Char → Option (List Char)
  | 0, cs => some cs
  | _ + 1, [] => none
  | n + 1, c :: cs => if n + 1 < c.utf8Size then none else dropBytes? (n + 1 - c.utf8Size) cs

/-- The characters up to a place, counted in bytes; none inside a character. -/
def takeBytes? : Nat → List Char → Option (List Char)
  | 0, _ => some []
  | _ + 1, [] => none
  | n + 1, c :: cs =>
    if n + 1 < c.utf8Size then none
    else (takeBytes? (n + 1 - c.utf8Size) cs).map (c :: ·)

/-- The characters between two places of a text. -/
def cut? (text : List Char) (start stop : Nat) : Except LogFilterError String :=
  match (dropBytes? start text).bind (takeBytes? (stop - start)) with
  | some cs => .ok (String.ofList cs)
  | none => .error .splitCharacter

/-- The number of bytes of a text. -/
def byteLength : List Char → Nat
  | [] => 0
  | c :: cs => c.utf8Size + byteLength cs

/-- A directive can open with this character. -/
def opens (c : Char) : Bool := c == '-' || c == ':' || c == '_' || Text.isAlphanumeric c

/-- Reads the character at a place. -/
def step (text : List Char) (i : Nat) (c : Char) :
    Stage → LogDirective → Except LogFilterError (Stage × LogDirective)
  | .opening, d =>
    if c = '[' then .ok (.span (i + 1), d)
    else if opens c then .ok (.target i, d)
    else .error .malformed
  | .target start, d => do
    if c = '=' then return (.level (i + 1), { d with target := some (← cut? text start i) })
    else if c = '[' then return (.span (i + 1), { d with target := some (← cut? text start i) })
    else return (.target start, d)
  | .span start, d => do
    if c = ']' then return (.spanClosed, { d with span := some (← cut? text start i) })
    else if c = '\x7b' then
      return (.field (i + 1), { d with span := (some (← cut? text start i)).filter (· != "") })
    else return (.span start, d)
  | .field start, d => do
    if c = '\x7d' then
      let s ← cut? text start i
      if s = "" then throw .malformed
      return (.fieldsClosed, { d with field := some (← FieldMatch.parse s) })
    else return (.field start, d)
  | .fieldsClosed, d => if c = ']' then .ok (.spanClosed, d) else .error .malformed
  | .spanClosed, d => if c = '=' then .ok (.level (i + 1), d) else .error .malformed
  | .level start, d => .ok (.level start, d)

/-- Reads the characters from a place on. -/
def steps (text : List Char) :
    Nat → List Char → Stage → LogDirective → Except LogFilterError (Stage × LogDirective)
  | _, [], stage, d => .ok (stage, d)
  | i, c :: rest, stage, d =>
    match step text i c stage d with
    | .ok (stage, d) => steps text (i + c.utf8Size) rest stage d
    | .error e => .error e

/-- The directive at the end of its text.  A text without a level enables all of them. -/
def finish (text : List Char) : Stage → LogDirective → Except LogFilterError LogDirective
  | .target start, d => do
    let all ← cut? text start (byteLength text)
    match LogLevel.ofText? all with
    | some level => return { d with level }
    | none => return { d with target := some all }
  | .level start, d => do
    let s ← cut? text start (byteLength text)
    if s = "" then return d
    match LogLevel.ofText? s with
    | some level => return { d with level }
    | none => throw .unknownLevel
  | .spanClosed, d => .ok d
  | _, _ => .error .malformed

/-- Reads a directive.  Blanks around it do not count as characters, but names and levels are cut
    out of the text with the blanks. -/
def parse (s : String) : Except LogFilterError LogDirective := do
  let (stage, d) ← steps s.toList 0 (Text.strip s).toList .opening {}
  finish s.toList stage d

/-- All bytes of a text are the text. -/
theorem takeBytes?_all (cs : List Char) : takeBytes? (byteLength cs) cs = some cs := by
  induction cs with
  | nil => rfl
  | cons c cs ih =>
    have hc := c.utf8Size_pos
    obtain ⟨n, hn⟩ : ∃ n, c.utf8Size + byteLength cs = n + 1 :=
      ⟨c.utf8Size + byteLength cs - 1, by omega⟩
    rw [byteLength, hn, takeBytes?, if_neg (by omega), ← hn, Nat.add_sub_cancel_left, ih]
    rfl

/-- A text that is cut at its ends is whole. -/
theorem cut?_all (text : List Char) :
    cut? text 0 (byteLength text) = .ok (String.ofList text) := by
  rw [cut?, Nat.sub_zero, dropBytes?, Option.bind_some, takeBytes?_all]

end LogDirective

/-- A log filter. -/
structure LogFilter where
  directives : List LogDirective
deriving Repr

namespace LogFilter

/-- The texts between commas. -/
def pieces : List Char → List (List Char)
  | [] => [[]]
  | c :: rest =>
    if c = ',' then [] :: pieces rest
    else match pieces rest with
      | p :: more => (c :: p) :: more
      | [] => [[c]]

/-- Reads a log filter; nothing between two commas is no directive. -/
def parse (s : String) : Except LogFilterError LogFilter :=
  (((pieces s.toList).filter (· ≠ [])).mapM fun p => LogDirective.parse (String.ofList p)).map (⟨·⟩)

/-- The level at which everything is logged: the last one given without a target, or else errors. -/
def level (f : LogFilter) : LogLevel :=
  let general := fun (d : LogDirective) => d.target.isNone && d.span.isNone && d.field.isNone
  match (f.directives.filter general).getLast? with
  | some d => d.level
  | none => .error

end LogFilter

end SymbolAtlas
