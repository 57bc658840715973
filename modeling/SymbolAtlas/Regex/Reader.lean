import SymbolAtlas.Regex.Brackets
import SymbolAtlas.Text.Alphanumeric

/-!
# Reading regular expressions

`Regex.readTree` reads a pattern: alternatives, groups with names and flags, repetitions, classes
and single characters.
-/

set_option autoImplicit false

namespace SymbolAtlas.Regex

/-! ### What was read -/

/-- The parts of a group so far. -/
structure Level where
  /-- Where the branch at hand begins. -/
  start : Place := {}
  /-- The parts of the branch at hand, newest first. -/
  parts : List Regex := []
  /-- Where the first branch begins. -/
  first : Place := {}
  /-- The finished branches, newest first. -/
  branches : List Regex := []

namespace Level

/-- Nothing, from a place on. -/
def startingAt (p : Place) : Level := { start := p }

/-- Adds a part to the branch at hand. -/
def push (l : Level) (r : Regex) : Level := { l with parts := r :: l.parts }

/-- The branch at hand, up to a place. -/
def branch (l : Level) (stop : Place) : Regex := ofParts ⟨l.start, stop⟩ l.parts.reverse

/-- Finishes the branch at hand and begins the next one. -/
def nextBranch (l : Level) (stop next : Place) : Level where
  start := next
  first := if l.branches.isEmpty then l.start else l.first
  branches := l.branch stop :: l.branches

/-- What was read, up to a place. -/
def finish (l : Level) (stop : Place) : Regex :=
  match l.branches with
  | [] => l.branch stop
  | branches => .alternation ⟨l.first, stop⟩ (branches.reverse ++ [l.branch stop])

end Level

/-- A group that is still open. -/
structure OpenGroup where
  /-- Where its parenthesis stands. -/
  opening : Span
  flags : List FlagItem := []
  /-- Whether blanks count around the group. -/
  extended : Bool
  /-- The parts in front of it. -/
  before : Level

/-- How far a pattern was read. -/
structure Progress where
  level : Level := {}
  /-- The open groups, innermost first. -/
  groups : List OpenGroup := []
  /-- The names of groups so far. -/
  names : List (String × Span) := []
  scanner : Scanner

namespace Progress

/-- Adds a part that was read up to a scanner. -/
def push (p : Progress) (r : Regex) (s : Scanner) : Progress :=
  { p with level := p.level.push r, scanner := s }

/-- Finishes the branch at hand. -/
def nextBranch (p : Progress) : Progress :=
  let s := p.scanner.bump
  { p with level := p.level.nextBranch p.scanner.place s.place, scanner := s }

/-- Opens a group whose opening was read up to a scanner. -/
def openGroup (p : Progress) (opening : Span) (flags : List FlagItem) (s : Scanner) : Progress where
  level := .startingAt s.place
  groups := { opening, flags, extended := s.extended, before := p.level } :: p.groups
  names := p.names
  scanner := { s with extended := (flagState .extended true flags).getD s.extended }

/-- Closes the innermost group; the scanner stands at the parenthesis. -/
def closeGroup (p : Progress) : Except Fault Progress :=
  match p.groups with
  | [] => .error (p.scanner.charFault .unopenedGroup)
  | g :: groups =>
    let s := { p.scanner.bump with extended := g.extended }
    let body := p.level.finish p.scanner.place
    .ok { p with
      level := g.before.push (.group ⟨g.opening.start, s.place⟩ g.flags body)
      groups
      scanner := s }

/-- What was read, at the end of the pattern. -/
def finish (p : Progress) : Except Fault Regex :=
  match p.groups with
  | [] => .ok (p.level.finish p.scanner.place)
  | g :: _ => .error { kind := .unclosedGroup, span := g.opening }

end Progress

/-! ### Groups -/

/-- The flag with a letter. -/
def flagOf? : Char → Option Flag
  | 'i' => some .ignoreCase
  | 'm' => some .multiLine
  | 's' => some .dotMatchesNewLine
  | 'U' => some .swapGreed
  | 'u' => some .unicode
  | 'R' => some .carriageReturn
  | 'x' => some .extended
  | _ => none

/-- Reads the flags of a group up to the colon or parenthesis behind them.  `items` holds what was
    read, newest first, and where. -/
def readFlags : Nat → List (FlagItem × Span) → Scanner →
    Except Fault (List FlagItem × Scanner)
  | 0, _, s => .error (s.fault .unfinishedFlags)
  | n + 1, items, s =>
    match s.rest with
    | [] => .error (s.fault .unfinishedFlags)
    | c :: _ =>
      if c = ':' ∨ c = ')' then
        match items with
        | (.negation, span) :: _ => .error { kind := .danglingNegation, span }
        | _ => .ok ((items.map (·.1)).reverse, s)
      else
        let item := if c = '-' then some FlagItem.negation else (flagOf? c).map .flag
        match item with
        | none => .error (s.charFault .unknownFlag)
        | some item =>
          match items.lookup item with
          | some earlier =>
            let kind := if c = '-' then FaultKind.repeatedNegation else .duplicateFlag
            .error { s.charFault kind with earlier := some earlier }
          | none => readFlags n ((item, s.charSpan) :: items) s.bump

/-- A character of the name of a group; it begins with a letter or an underscore. -/
def inGroupName (first : Bool) (c : Char) : Bool :=
  c == '_' || (if first then Text.isAlphabetic c
    else Text.isAlphanumeric c || c == '.' || c == '[' || c == ']')

/-- Reads the characters of a name up to the angle bracket behind it. -/
def readNameFrom (first : Bool) : Nat → Scanner → Except Fault (List Char × Scanner)
  | 0, s => .error (s.fault .unclosedName)
  | n + 1, s =>
    match s.rest with
    | [] => .error (s.fault .unclosedName)
    | c :: _ =>
      if c = '>' then .ok ([], s)
      else if inGroupName first c then
        (readNameFrom false n s.bump).map fun (cs, s) => (c :: cs, s)
      else .error (s.charFault .nameCharacter)

/-- Reads the name of a group. -/
def readName (names : List (String × Span)) (s : Scanner) :
    Except Fault (String × Span × Scanner) := do
  let (cs, t) ← readNameFrom true (s.rest.length + 1) s
  let span : Span := ⟨s.place, t.place⟩
  if cs.isEmpty then throw (s.fault .emptyName)
  match names.lookup (String.ofList cs) with
  | some earlier => throw { kind := .duplicateName, span, earlier := some earlier }
  | none => return (String.ofList cs, span, t.bump)

/-- The first of some openings that comes next, and the scanner behind it. -/
def afterAny? (s : Scanner) (texts : List String) : Option Scanner := texts.findSome? s.after?

/-- Reads the opening of a group; the scanner stands at the parenthesis. -/
def readGroup (p : Progress) : Except Fault Progress := do
  let opening := p.scanner.charSpan
  let s := p.scanner.advance
  if let some t := afterAny? s ["?=", "?!", "?<=", "?<!"] then
    throw (t.faultFrom opening.start .lookAround)
  if let some t := afterAny? s ["?P<", "?<"] then
    let (name, span, t) ← readName p.names t
    return { p with names := (name, span) :: p.names }.openGroup opening [] t
  match s.after? "?" with
  | none => return p.openGroup opening [] s
  | some t =>
    if t.rest.isEmpty then throw { kind := .unclosedGroup, span := opening }
    let (items, t) ← readFlags (t.rest.length + 1) [] t
    if t.rest.head? = some ':' then return p.openGroup opening items t.bump
    if items.isEmpty then throw (s.fault .nothingToRepeat)
    let t := t.bump
    let extended := (flagState .extended true items).getD t.extended
    return p.push (.flags ⟨opening.start, t.place⟩ items) { t with extended }

/-! ### Repetitions -/

/-- The newest part of a branch, if it can be repeated, and the branch without it. -/
def repeated? (l : Level) : Option (Regex × Level) :=
  match l.parts with
  | [] | .empty _ :: _ | .flags _ _ :: _ => none
  | r :: parts => some (r, { l with parts })

/-- Reads a repetition by one character, with the question mark that makes it reluctant. -/
def readRepetition (p : Progress) : Except Fault Progress :=
  match repeated? p.level with
  | none => .error (p.scanner.fault .nothingToRepeat)
  | some (r, level) =>
    let s := p.scanner.bump
    let s := if s.rest.head? = some '?' then s.bump else s
    .ok { p with level := level.push (.repetition ⟨r.span.start, s.place⟩ r), scanner := s }

/-- Behind blanks, which never count in front of a number. -/
def passBlanks (s : Scanner) : Scanner :=
  (s.rest.takeWhile Text.isBlank).foldl (fun s _ => s.bump) s

/-- The digits of a number and the scanner behind them; blanks may stand between them where they do
    not count. -/
def readNumber : Nat → Scanner → List Char × Scanner
  | 0, s => ([], s)
  | n + 1, s =>
    match s.rest with
    | c :: _ =>
      if c.isDigit then
        let (ds, t) := readNumber n s.advance
        (c :: ds, t)
      else ([], s)
    | [] => ([], s)

/-- The fault of a counted repetition, which holds a single number because neither a comma nor a
    closing brace follows; the scanner stands at the opening brace. -/
def countFault (p : Progress) : Fault :=
  let brace := p.scanner
  if (repeated? p.level).isNone then brace.fault .nothingToRepeat
  else
    let s := brace.advance
    if s.rest.isEmpty then s.faultFrom brace.place .unclosedCount
    else
      let digitsAt := passBlanks s
      let (digits, behind) := readNumber digitsAt.rest.length digitsAt
      let after := passBlanks behind
      if after.rest.isEmpty then after.faultFrom brace.place .unclosedCount
      else if digits.isEmpty then behind.faultFrom digitsAt.place .missingCount
      else if (Text.readNat? Text.maxWord32 (String.ofList digits)).isNone then
        behind.faultFrom digitsAt.place .decimalTooLarge
      else after.faultFrom brace.place .unclosedCount

/-! ### Patterns -/

/-- Reads the next part. -/
def step (p : Progress) : Except Fault Progress :=
  match p.scanner.rest with
  | '(' :: _ => readGroup p
  | ')' :: _ => p.closeGroup
  | '|' :: _ => .ok p.nextBranch
  | '[' :: _ => (readBrackets p.scanner).map fun (r, s) => p.push r s
  | '?' :: _ | '*' :: _ | '+' :: _ => readRepetition p
  | '\x7b' :: _ => .error (countFault p)
  | _ => (readPrimitive p.scanner).map fun (r, s) => p.push r.toRegex s

/-- Reads part after part; the first argument bounds their number. -/
def readFrom : Nat → Progress → Except Fault Regex
  | 0, p => p.finish
  | n + 1, p =>
    let p := { p with scanner := p.scanner.skip }
    if p.scanner.rest.isEmpty then p.finish
    else match step p with
      | .ok p => readFrom n p
      | .error e => .error e

/-- Reads a pattern, whatever its depth. -/
def readTree (pattern : String) : Except Fault Regex :=
  readFrom (pattern.toList.length + 1) { scanner := { rest := pattern.toList } }

end SymbolAtlas.Regex
