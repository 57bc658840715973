import SymbolAtlas.Regex.Fault
import SymbolAtlas.Text.Blank
import SymbolAtlas.Text.Numeral

/-!
# Going through a pattern

A scanner stands at a place of a pattern and holds the characters from there on.  In extended
patterns blanks and comments between the parts do not count.

Main facts: going on never adds characters (`Regex.Scanner.length_advance`), and it takes a
character away where there is one (`Regex.Scanner.length_bump`).
-/

set_option autoImplicit false

namespace SymbolAtlas.Regex

/-- What is left of a pattern. -/
structure Scanner where
  rest : List Char
  place : Place := {}
  /-- Blanks and comments do not count. -/
  extended : Bool := false

namespace Scanner

/-- The fault at the part from a place up to here. -/
def faultFrom (s : Scanner) (start : Place) (kind : FaultKind) : Fault :=
  { kind, span := ⟨start, s.place⟩ }

/-- The fault at this place. -/
def fault (s : Scanner) (kind : FaultKind) : Fault := s.faultFrom s.place kind

/-- Behind the next character. -/
def bump (s : Scanner) : Scanner :=
  match s.rest with
  | [] => s
  | c :: rest => { s with rest, place := s.place.after c }

/-- The part that the next character takes. -/
def charSpan (s : Scanner) : Span := ⟨s.place, s.bump.place⟩

/-- The fault at the next character. -/
def charFault (s : Scanner) (kind : FaultKind) : Fault := { kind, span := s.charSpan }

/-- Behind blanks and comments.  The first argument tells that a comment is being passed. -/
def passLayout : Bool → List Char → Place → List Char × Place
  | _, [], p => ([], p)
  | true, c :: rest, p => passLayout (c != '\n') rest (p.after c)
  | false, c :: rest, p =>
    if Text.isBlank c then passLayout false rest (p.after c)
    else if c = '#' then passLayout true rest (p.after c)
    else (c :: rest, p)

/-- Behind what does not count here. -/
def skip (s : Scanner) : Scanner :=
  if s.extended then
    let (rest, place) := passLayout false s.rest s.place
    { s with rest, place }
  else s

/-- Behind the next character and what does not count after it. -/
def advance (s : Scanner) : Scanner := s.bump.skip

/-- The character after the next one. -/
def peek (s : Scanner) : Option Char := s.rest.tail.head?

/-- The character after the next one and after blanks and the mark of a comment, where they do not
    count. -/
def peekPast (s : Scanner) : Option Char :=
  if s.extended then
    let past := match s.rest.tail.dropWhile Text.isBlank with
      | '#' :: rest => rest.dropWhile Text.isBlank
      | rest => rest
    past.head? <|> s.peek
  else s.peek

/-- Behind a text, if it comes next. -/
def after? (s : Scanner) (text : String) : Option Scanner :=
  if text.toList.isPrefixOf s.rest then some (text.toList.foldl (fun s _ => s.bump) s) else none

/-! ### Facts -/

theorem length_bump {s : Scanner} (h : s.rest ≠ []) : s.bump.rest.length < s.rest.length := by
  unfold bump
  split <;> simp_all

theorem length_passLayout (comment : Bool) (cs : List Char) (p : Place) :
    (passLayout comment cs p).1.length ≤ cs.length := by
  fun_induction passLayout comment cs p <;> simp_all <;> omega

theorem length_skip (s : Scanner) : s.skip.rest.length ≤ s.rest.length := by
  unfold skip
  split
  · exact length_passLayout false s.rest s.place
  · exact Nat.le_refl _

theorem length_advance (s : Scanner) : s.advance.rest.length ≤ s.rest.length := by
  refine Nat.le_trans (length_skip _) ?_
  unfold bump
  split <;> simp_all

end Scanner

end SymbolAtlas.Regex
