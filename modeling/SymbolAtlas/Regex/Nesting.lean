import SymbolAtlas.Regex.Syntax

/-!
# The depth of regular expressions

`Regex.tooDeep? limit r` gives the first part of a regular expression that lies deeper than the
limit.  Repetitions, groups, alternatives, sequences and classes in brackets count, as do unions,
classes and set operations inside of brackets.
-/

set_option autoImplicit false

namespace SymbolAtlas.Regex

mutual

/-- The first part of the inside of a class that lies deeper than the limit. -/
def ClassSet.tooDeep? : Nat → ClassSet → Option Span
  | _, .empty _ | _, .literal _ | _, .range _ _ _ | _, .named _ _ | _, .property _ _
  | _, .shorthand _ _ => none
  | 0, .bracketed s _ _ | 0, .union s _ | 0, .operation s _ _ => some s
  | n + 1, .bracketed _ _ set => set.tooDeep? n
  | n + 1, .union _ items => ClassSet.anyTooDeep? n items
  | n + 1, .operation _ left right => left.tooDeep? n <|> right.tooDeep? n

/-- The first part of some insides of classes that lies deeper than the limit. -/
def ClassSet.anyTooDeep? : Nat → List ClassSet → Option Span
  | _, [] => none
  | n, c :: cs => c.tooDeep? n <|> ClassSet.anyTooDeep? n cs

end

mutual

/-- The first part that lies deeper than the limit. -/
def tooDeep? : Nat → Regex → Option Span
  | _, .empty _ | _, .flags _ _ | _, .literal _ | _, .dot _ | _, .assertion _ _
  | _, .property _ _ | _, .shorthand _ _ => none
  | 0, .bracketed s _ _ | 0, .repetition s _ | 0, .group s _ _ | 0, .alternation s _
  | 0, .concat s _ => some s
  | n + 1, .bracketed _ _ set => set.tooDeep? n
  | n + 1, .repetition _ body => body.tooDeep? n
  | n + 1, .group _ _ body => body.tooDeep? n
  | n + 1, .alternation _ branches => anyTooDeep? n branches
  | n + 1, .concat _ parts => anyTooDeep? n parts

/-- The first part of some regular expressions that lies deeper than the limit. -/
def anyTooDeep? : Nat → List Regex → Option Span
  | _, [] => none
  | n, r :: rs => r.tooDeep? n <|> anyTooDeep? n rs

end

/-- The greatest depth of a pattern. -/
def depthLimit : Nat := 250

end SymbolAtlas.Regex
