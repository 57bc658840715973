import SymbolAtlas.Regex.Escape

/-!
# Classes in brackets

`Regex.readBrackets` reads a class with the classes inside it: characters, ranges, named classes and
set operations.
-/

set_option autoImplicit false

namespace SymbolAtlas.Regex

/-- The items of a class so far, newest first, and where they stand. -/
structure Items where
  span : Span
  items : List ClassSet := []

namespace Items

/-- No items, at a place. -/
def none (p : Place) : Items := { span := .point p }

/-- Adds an item. -/
def push (is : Items) (c : ClassSet) : Items where
  span := ⟨if is.items.isEmpty then c.span.start else is.span.start, c.span.stop⟩
  items := c :: is.items

/-- The union of the items; a single item is no union. -/
def toSet (is : Items) : ClassSet :=
  match is.items with
  | [] => .empty is.span
  | [c] => c
  | items => .union is.span items.reverse

end Items

/-- A class that is still open. -/
structure OpenClass where
  /-- Where its opening stands. -/
  opening : Span
  negated : Bool
  /-- What stands in front of the newest set operation. -/
  left : Option ClassSet := none
  /-- The items before it in the class around it. -/
  before : Items

namespace OpenClass

/-- The fault that the class is never closed. -/
def unclosed (o : OpenClass) : Fault := { kind := .unclosedClass, span := o.opening }

/-- The inside of the class, with the items behind the newest set operation. -/
def inside (o : OpenClass) (right : ClassSet) : ClassSet :=
  match o.left with
  | none => right
  | some left => .operation ⟨left.span.start, right.span.stop⟩ left right

/-- The finished class, as an item of the class around it. -/
def close (o : OpenClass) (items : Items) (stop : Place) : ClassSet :=
  .bracketed ⟨o.opening.start, stop⟩ o.negated (o.inside items.toSet)

end OpenClass

/-- The names of classes. -/
def classNames : List String :=
  ["alnum", "alpha", "ascii", "blank", "cntrl", "digit", "graph", "lower", "print", "punct",
    "space", "upper", "word", "xdigit"]

/-- Reads a class by its name, as in `[:alpha:]`; the scanner stands at the bracket. -/
def readNamed? (s : Scanner) : Option (ClassSet × Scanner) := do
  let body ← s.after? "[:"
  let negated := body.rest.head? = some '^'
  let body := if negated then body.bump else body
  let name := body.rest.takeWhile (· ≠ ':')
  let after ← (name.foldl (fun s _ => s.bump) body).after? ":]"
  if classNames.contains (String.ofList name) then
    some (.named ⟨s.place, after.place⟩ negated, after)
  else none

/-- The dashes at the start of a class. -/
def readDashes (start : Place) : Nat → Items → Scanner → Except Fault (Items × Scanner)
  | 0, items, s => .ok (items, s)
  | n + 1, items, s =>
    if s.rest.head? = some '-' then
      let items := items.push (.literal { span := s.charSpan, char := '-' })
      if s.advance.rest.isEmpty then .error { kind := .unclosedClass, span := .point start }
      else readDashes start n items s.advance
    else .ok (items, s)

/-- Reads the opening of a class: its bracket, the mark of negation, and dashes or a closing bracket
    that stand for themselves. -/
def readOpening (before : Items) (s : Scanner) : Except Fault (OpenClass × Items × Scanner) := do
  let start := s.place
  let s := s.advance
  if s.rest.isEmpty then throw (s.faultFrom start .unclosedClass)
  let negated := s.rest.head? = some '^'
  let s := if negated then s.advance else s
  if s.rest.isEmpty then throw (s.faultFrom start .unclosedClass)
  let (items, s) ← readDashes start s.rest.length (.none s.place) s
  if items.items.isEmpty ∧ s.rest.head? = some ']' then
    let items := items.push (.literal { span := s.charSpan, char := ']' })
    let s := s.advance
    if s.rest.isEmpty then throw (s.faultFrom start .unclosedClass)
    return ({ opening := ⟨start, s.place⟩, negated, before }, items, s)
  return ({ opening := ⟨start, s.place⟩, negated, before }, items, s)

/-- Reads a character or an escape inside a class. -/
def readItem (s : Scanner) : Except Fault (Primitive × Scanner) :=
  match s.rest with
  | [] => .error (s.fault .unfinishedEscape)
  | '\\' :: _ => readEscape s
  | c :: _ => .ok (.literal { span := s.charSpan, char := c }, s.bump)

/-- Reads an item of a class, or a range between two of them.  A dash in front of the closing
    bracket or of another dash makes no range. -/
def readRange (o : OpenClass) (s : Scanner) : Except Fault (ClassSet × Scanner) := do
  let (first, s) ← readItem s
  let s := s.skip
  if s.rest.isEmpty then throw o.unclosed
  if s.rest.head? ≠ some '-' ∨ s.peekPast = some ']' ∨ s.peekPast = some '-' then
    return (← first.toClassSet, s)
  let s := s.advance
  if s.rest.isEmpty then throw o.unclosed
  let (last, s) ← readItem s
  let span : Span := ⟨first.span.start, last.span.stop⟩
  let lo ← first.toRangeEnd
  let hi ← last.toRangeEnd
  if hi.char < lo.char then throw { kind := .classRangeOrder, span }
  return (.range span lo hi, s)

/-- The scanner stands at a set operation: two ampersands, dashes or tildes. -/
def atOperation (s : Scanner) : Bool :=
  match s.rest with
  | '&' :: '&' :: _ | '-' :: '-' :: _ | '~' :: '~' :: _ => true
  | _ => false

/-- Reads items up to the closing bracket of the outermost class.  The first argument bounds the
    number of items, the list holds the classes around the one at hand. -/
def readItems : Nat → OpenClass → List OpenClass → Items → Scanner →
    Except Fault (ClassSet × Scanner)
  | 0, o, _, _, _ => .error o.unclosed
  | n + 1, o, around, items, s =>
    let s := s.skip
    match s.rest with
    | [] => .error o.unclosed
    | '[' :: _ =>
      match readNamed? s with
      | some (c, s) => readItems n o around (items.push c) s
      | none =>
        match readOpening items s with
        | .ok (inner, items, s) => readItems n inner (o :: around) items s
        | .error e => .error e
    | ']' :: _ =>
      let c := o.close items s.bump.place
      match around with
      | [] => .ok (c, s.bump)
      | outer :: around => readItems n outer around (o.before.push c) s.bump
    | _ =>
      if atOperation s then
        let s' := s.bump.bump
        readItems n { o with left := some (o.inside items.toSet) } around (.none s'.place) s'
      else match readRange o s with
        | .ok (c, s) => readItems n o around (items.push c) s
        | .error e => .error e

/-- Reads a class; the scanner stands at its bracket. -/
def readBrackets (s : Scanner) : Except Fault (Regex × Scanner) := do
  let (o, items, rest) ← readOpening (.none s.place) s
  let (c, rest) ← readItems (rest.rest.length + 1) o [] items rest
  match c with
  | .bracketed span negated set => return (.bracketed span negated set, rest)
  | other => return (.bracketed other.span false other, rest)

end SymbolAtlas.Regex
