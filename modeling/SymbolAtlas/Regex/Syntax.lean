/-!
# The syntax of regular expressions

A regular expression as it is written: every part knows where it stands in the pattern, so that a
fault can be shown there.  Braces are left out, because no pattern of this program can close one.
-/

set_option autoImplicit false

namespace SymbolAtlas

/-- A place in a pattern; lines and columns count from one. -/
structure Regex.Place where
  line : Nat := 1
  column : Nat := 1
deriving DecidableEq, Repr, Inhabited

/-- The part of a pattern between two places. -/
structure Regex.Span where
  start : Regex.Place
  stop : Regex.Place
deriving DecidableEq, Repr, Inhabited

/-- What can be switched in a group. -/
inductive Regex.Flag where
  | ignoreCase
  | multiLine
  | dotMatchesNewLine
  | swapGreed
  | unicode
  | carriageReturn
  | extended
deriving DecidableEq, Repr

/-- One character of a list of flags. -/
inductive Regex.FlagItem where
  /-- Flags behind it are switched off. -/
  | negation
  | flag (f : Regex.Flag)
deriving DecidableEq, Repr

/-- A character that stands for itself. -/
structure Regex.Literal where
  span : Regex.Span
  char : Char
  /-- It was written as two hexadecimal digits, so it may stand for a byte. -/
  byte : Bool := false
deriving Repr

/-- The inside of a class in brackets. -/
inductive Regex.ClassSet where
  | empty (span : Regex.Span)
  | literal (l : Regex.Literal)
  | range (span : Regex.Span) (lo hi : Regex.Literal)
  /-- A class with a name, as in `[:alpha:]`. -/
  | named (span : Regex.Span) (negated : Bool)
  /-- A class of Unicode, named by one letter. -/
  | property (span : Regex.Span) (letter : Char)
  /-- Digits, blanks or word characters. -/
  | shorthand (span : Regex.Span) (negated : Bool)
  | bracketed (span : Regex.Span) (negated : Bool) (set : Regex.ClassSet)
  | union (span : Regex.Span) (items : List Regex.ClassSet)
  /-- A set operation. -/
  | operation (span : Regex.Span) (left right : Regex.ClassSet)
deriving Repr, Inhabited

/-- A regular expression. -/
inductive Regex where
  | empty (span : Regex.Span)
  /-- Flags for what follows. -/
  | flags (span : Regex.Span) (items : List Regex.FlagItem)
  | literal (l : Regex.Literal)
  | dot (span : Regex.Span)
  /-- A condition on a place in the text; `word` tells that it looks at word characters. -/
  | assertion (span : Regex.Span) (word : Bool)
  | property (span : Regex.Span) (letter : Char)
  | shorthand (span : Regex.Span) (negated : Bool)
  | bracketed (span : Regex.Span) (negated : Bool) (set : Regex.ClassSet)
  | repetition (span : Regex.Span) (body : Regex)
  /-- A group with flags for its inside. -/
  | group (span : Regex.Span) (items : List Regex.FlagItem) (body : Regex)
  | alternation (span : Regex.Span) (branches : List Regex)
  | concat (span : Regex.Span) (parts : List Regex)
deriving Repr, Inhabited

namespace Regex

/-- The place behind a character. -/
def Place.after (p : Place) (c : Char) : Place :=
  if c = '\n' then { line := p.line + 1, column := 1 } else { p with column := p.column + 1 }

/-- The place comes first in the pattern. -/
def Place.before (p q : Place) : Bool :=
  p.line < q.line || (p.line == q.line && p.column < q.column)

/-- The empty part at a place. -/
def Span.point (p : Place) : Span := ⟨p, p⟩

/-- The value that a list of flags gives to a flag: the first mention counts. -/
def flagState (f : Flag) : Bool → List FlagItem → Option Bool
  | _, [] => none
  | _, .negation :: items => flagState f false items
  | on, .flag g :: items => if f = g then some on else flagState f on items

/-- Where the inside of a class stands. -/
def ClassSet.span : ClassSet → Span
  | .empty s | .range s _ _ | .named s _ | .property s _ | .shorthand s _ | .bracketed s _ _
  | .union s _ | .operation s _ _ => s
  | .literal l => l.span

/-- Where a regular expression stands. -/
def span : Regex → Span
  | .empty s | .flags s _ | .dot s | .assertion s _ | .property s _ | .shorthand s _
  | .bracketed s _ _ | .repetition s _ | .group s _ _ | .alternation s _ | .concat s _ => s
  | .literal l => l.span

/-- Parts one after the other; a single part is no list. -/
def ofParts (s : Span) : List Regex → Regex
  | [] => .empty s
  | [r] => r
  | parts => .concat s parts

end Regex

end SymbolAtlas
