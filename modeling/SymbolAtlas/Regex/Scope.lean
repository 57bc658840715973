import SymbolAtlas.Regex.Nesting
import SymbolAtlas.Regex.Reader

/-!
# Regular expressions over texts

Flags hold from where they stand to the end of their group.  Where Unicode is switched off a part
may not describe single bytes of a character, since patterns are meant for texts.

Main facts: flags inside a group do not hold behind it (`Regex.unicode_of_enter_group`), and a
pattern that is accepted is not too deep (`Regex.tooDeep?_of_parse`).
-/

set_option autoImplicit false

namespace SymbolAtlas.Regex

/-- What holds at a place of a pattern. -/
structure Scope where
  /-- Characters are those of Unicode. -/
  unicode : Bool := true
  /-- A word's end that looks at Unicode's word characters was met. -/
  wordEnds : Bool := false
deriving DecidableEq, Repr

namespace Scope

/-- What holds behind flags. -/
def apply (s : Scope) (items : List FlagItem) : Scope :=
  { s with unicode := (flagState .unicode true items).getD s.unicode }

/-- A part that describes bytes beyond ASCII without Unicode. -/
def refuseBytes (s : Scope) (span : Span) (beyond : Bool) : Except Fault Scope :=
  if !s.unicode && beyond then .error { kind := .invalidBytes, span } else .ok s

/-- A character as part of a sequence. -/
def enterLiteral (s : Scope) (l : Literal) : Except Fault Scope :=
  s.refuseBytes l.span (l.byte && 127 < l.char.toNat)

/-- A character inside a class; without Unicode it is a byte. -/
def enterClassLiteral (s : Scope) (l : Literal) : Except Fault Scope :=
  if !s.unicode && !l.byte && 127 < l.char.toNat then
    .error { kind := .unicodeForbidden, span := l.span }
  else s.enterLiteral l

/-- The letters that name classes of Unicode, in either case. -/
def propertyLetters : List Char := ['C', 'L', 'M', 'N', 'P', 'S', 'Z']

/-- A class of Unicode. -/
def enterProperty (s : Scope) (span : Span) (letter : Char) : Except Fault Scope :=
  if !s.unicode then .error { kind := .unicodeForbidden, span }
  else if propertyLetters.contains letter.toUpper then .ok s
  else .error { kind := .unknownProperty, span }

end Scope

mutual

/-- What holds behind the inside of a class. -/
def ClassSet.enter : ClassSet → Scope → Except Fault Scope
  | .empty _, s => .ok s
  | .literal l, s => s.enterClassLiteral l
  | .range _ lo hi, s => do (← s.enterClassLiteral lo).enterClassLiteral hi
  | .named span negated, s => s.refuseBytes span negated
  | .property span letter, s => s.enterProperty span letter
  | .shorthand span negated, s => s.refuseBytes span negated
  | .bracketed span negated set, s => do (← set.enter s).refuseBytes span negated
  | .union _ items, s => ClassSet.enterAll items s
  | .operation _ left right, s => do right.enter (← left.enter s)

/-- What holds behind some insides of classes. -/
def ClassSet.enterAll : List ClassSet → Scope → Except Fault Scope
  | [], s => .ok s
  | c :: cs, s => do ClassSet.enterAll cs (← c.enter s)

end

mutual

/-- What holds behind a regular expression. -/
def enter : Regex → Scope → Except Fault Scope
  | .empty _, s => .ok s
  | .flags _ items, s => .ok (s.apply items)
  | .literal l, s => s.enterLiteral l
  | .dot span, s => s.refuseBytes span true
  | .assertion _ word, s => .ok { s with wordEnds := s.wordEnds || (word && s.unicode) }
  | .property span letter, s => s.enterProperty span letter
  | .shorthand span negated, s => s.refuseBytes span negated
  | .bracketed span negated set, s => do (← set.enter s).refuseBytes span negated
  | .repetition _ body, s => body.enter s
  | .group _ items body, s => do
    return { ← body.enter (s.apply items) with unicode := s.unicode }
  | .alternation _ branches, s => enterAll branches s
  | .concat _ parts, s => enterAll parts s

/-- What holds behind some regular expressions. -/
def enterAll : List Regex → Scope → Except Fault Scope
  | [], s => .ok s
  | r :: rs, s => do enterAll rs (← r.enter s)

end

/-- Reads a pattern that is not too deep. -/
def parse (pattern : String) : Except Fault Regex :=
  match readTree pattern with
  | .error e => .error e
  | .ok r =>
    match r.tooDeep? depthLimit with
    | some span => .error { kind := .tooDeep depthLimit, span }
    | none => .ok r

/-- Reads a pattern for texts, and what holds behind it. -/
def parseForText (pattern : String) : Except Fault (Regex × Scope) := do
  let r ← parse pattern
  return (r, ← r.enter {})

/-! ### Facts -/

theorem unicode_of_enter_group {span : Span} {items : List FlagItem} {body : Regex} {s t : Scope}
    (h : (Regex.group span items body).enter s = .ok t) : t.unicode = s.unicode := by
  rw [enter] at h
  cases hb : body.enter (s.apply items) with
  | error e => rw [hb] at h; cases h
  | ok u => rw [hb] at h; cases h; rfl

theorem tooDeep?_of_parse {pattern : String} {r : Regex} (h : parse pattern = .ok r) :
    r.tooDeep? depthLimit = none := by
  unfold parse at h
  split at h
  · cases h
  · split at h <;> cases h
    assumption

end SymbolAtlas.Regex
