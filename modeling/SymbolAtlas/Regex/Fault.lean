import SymbolAtlas.Regex.Syntax

/-!
# Faults in regular expressions

What can be wrong with a pattern, and how it is told: the pattern is written out, and the faulty
part is marked underneath.
-/

set_option autoImplicit false

namespace SymbolAtlas.Regex

/-- What is wrong with a pattern. -/
inductive FaultKind where
  | classEscape
  | classRangeOrder
  | classRangeEnd
  | unclosedClass
  | decimalTooLarge
  | hexNoCharacter
  | hexDigit
  | unfinishedEscape
  | unknownEscape
  | danglingNegation
  | duplicateFlag
  | repeatedNegation
  | unfinishedFlags
  | unknownFlag
  | duplicateName
  | emptyName
  | nameCharacter
  | unclosedName
  | unclosedGroup
  | unopenedGroup
  | tooDeep (limit : Nat)
  | missingCount
  | unclosedCount
  | nothingToRepeat
  | unclosedBoundary
  | unfinishedBoundary
  | propertyEscape
  | backreference
  | lookAround
  | unicodeForbidden
  | invalidBytes
  | unknownProperty
deriving DecidableEq, Repr

/-- The wording of what is wrong. -/
def FaultKind.message : FaultKind → String
  | .classEscape => "invalid escape sequence found in character class"
  | .classRangeOrder => "invalid character class range, the start must be <= the end"
  | .classRangeEnd => "invalid range boundary, must be a literal"
  | .unclosedClass => "unclosed character class"
  | .decimalTooLarge => "decimal literal invalid"
  | .hexNoCharacter => "hexadecimal literal is not a Unicode scalar value"
  | .hexDigit => "invalid hexadecimal digit"
  | .unfinishedEscape => "incomplete escape sequence, reached end of pattern prematurely"
  | .unknownEscape => "unrecognized escape sequence"
  | .danglingNegation => "dangling flag negation operator"
  | .duplicateFlag => "duplicate flag"
  | .repeatedNegation => "flag negation operator repeated"
  | .unfinishedFlags => "expected flag but got end of regex"
  | .unknownFlag => "unrecognized flag"
  | .duplicateName => "duplicate capture group name"
  | .emptyName => "empty capture group name"
  | .nameCharacter => "invalid capture group character"
  | .unclosedName => "unclosed capture group name"
  | .unclosedGroup => "unclosed group"
  | .unopenedGroup => "unopened group"
  | .tooDeep limit => s!"exceed the maximum number of nested parentheses/brackets ({limit})"
  | .missingCount => "repetition quantifier expects a valid decimal"
  | .unclosedCount => "unclosed counted repetition"
  | .nothingToRepeat => "repetition operator missing expression"
  | .unclosedBoundary =>
    "special word boundary assertion is either unclosed or contains an invalid character"
  | .unfinishedBoundary =>
    "found either the beginning of a special word boundary or a bounded repetition on a \\b with "
      ++ "an opening brace, but no closing brace"
  | .propertyEscape => "invalid Unicode character class"
  | .backreference => "backreferences are not supported"
  | .lookAround => "look-around, including look-ahead and look-behind, is not supported"
  | .unicodeForbidden => "Unicode not allowed here"
  | .invalidBytes => "pattern can match invalid UTF-8"
  | .unknownProperty => "Unicode property not found"

/-- What is wrong, where, and which earlier part it repeats. -/
structure Fault where
  kind : FaultKind
  span : Span
  earlier : Option Span := none
deriving DecidableEq, Repr

namespace Fault

/-- The parts that a fault points at. -/
def spans (f : Fault) : List Span := f.span :: f.earlier.toList

/-- The lines of a pattern.  A line break at the end begins no line, and a carriage return in front
    of one belongs to it. -/
def lines (pattern : String) : List String :=
  let parts := pattern.splitOn "\n"
  let ended := parts.dropLast.map fun s =>
    if s.toList.getLast? = some '\r' then String.ofList s.toList.dropLast else s
  match parts.getLast? with
  | some "" | none => ended
  | some rest => ended ++ [rest]

/-- The number of lines in which a part can stand. -/
def lineCount (pattern : String) : Nat :=
  (lines pattern).length + if pattern.toList.getLast? = some '\n' then 1 else 0

/-- The places that line numbers take; a single line has none. -/
def numberWidth (pattern : String) : Nat :=
  if lineCount pattern ≤ 1 then 0 else (toString (lineCount pattern)).length

/-- Marks under a line, from a column on.  Every part has a mark, also an empty one. -/
def marks : Nat → List Span → List Char
  | _, [] => []
  | column, s :: rest =>
    let width := max 1 (s.stop.column - s.start.column)
    let gap := s.start.column - 1 - column
    List.replicate gap ' ' ++ List.replicate width '^' ++ marks (column + gap + width) rest

/-- A number that takes a number of places. -/
def padded (width n : Nat) : String :=
  String.ofList (List.replicate (width - (toString n).length) ' ') ++ toString n

/-- The parts inside a line, by their places. -/
def inLine (f : Fault) (line : Nat) : List Span :=
  (f.spans.filter fun s => s.start.line == line && s.stop.line == line).mergeSort
    fun s t => !t.start.before s.start

/-- A line of the pattern with its number, and the marks under it. -/
def notedLine (f : Fault) (width : Nat) (text : String) (line : Nat) : List String :=
  let head := if width = 0 then "    " else padded width line ++ ": "
  let under := String.ofList (List.replicate head.length ' ' ++ marks 0 (f.inLine line))
  if (f.inLine line).isEmpty then [head ++ text] else [head ++ text, under]

/-- The pattern with its marks. -/
def noted (f : Fault) (pattern : String) : List String :=
  (lines pattern).zipIdx.flatMap fun (text, i) => f.notedLine (numberWidth pattern) text (i + 1)

/-- The parts of several lines, in words. -/
def across (f : Fault) : List String :=
  ((f.spans.filter fun s => s.start.line != s.stop.line).mergeSort
    fun s t => !t.start.before s.start).map fun s =>
      s!"on line {s.start.line} (column {s.start.column}) "
        ++ s!"through line {s.stop.line} (column {s.stop.column - 1})"

/-- The lines that tell a fault. -/
def reportLines (f : Fault) (pattern : String) : List String :=
  let wording := "error: " ++ f.kind.message
  if pattern.toList.contains '\n' then
    let divider := String.ofList (List.replicate 79 '~')
    ["regex parse error:", divider] ++ f.noted pattern ++ [divider] ++ f.across ++ [wording]
  else ["regex parse error:"] ++ f.noted pattern ++ [wording]

/-- The text that tells a fault. -/
def report (f : Fault) (pattern : String) : String := "\n".intercalate (f.reportLines pattern)

end Fault

end SymbolAtlas.Regex
