import SymbolAtlas.Glob.Pattern

/-!
# Reading globs

`Glob.parse` reads the text of a pattern: `?`, `*`, `**`, classes in brackets, alternatives in
braces, and a backslash before a character that stands for itself.

Main facts: reading a class takes at least its closing bracket (`Glob.length_readClass`).
-/

set_option autoImplicit false

namespace SymbolAtlas

/-- Why a text is no glob. -/
inductive GlobError where
  | unclosedClass
  | invalidRange (lo hi : Char)
  | unopenedAlternatives
  | unclosedAlternatives
  | danglingEscape
deriving DecidableEq, Repr

/-- The wording of a glob error. -/
def GlobError.message : GlobError → String
  | .unclosedClass => "unclosed character class; missing ']'"
  | .invalidRange lo hi => s!"invalid range; '{lo}' > '{hi}'"
  | .unopenedAlternatives =>
    "unopened alternate group; missing '\x7b' (maybe escape '\x7d' with '[\x7d]'?)"
  | .unclosedAlternatives =>
    "unclosed alternate group; missing '\x7d' (maybe escape '\x7b' with '[\x7b]'?)"
  | .danglingEscape => "dangling '\\'"

namespace Glob

/-! ### Classes -/

/-- Reads the ranges of a class up to its closing bracket.  A bracket or a dash right at the start
    stands for itself, and so does a dash at the end.  `dashed` tells that a dash waits for the
    upper end of the newest range. -/
def readRanges (first dashed : Bool) (ranges : List (Char × Char)) :
    List Char → Except GlobError (List (Char × Char) × List Char)
  | [] => .error .unclosedClass
  | c :: rest =>
    if c = ']' ∧ !first then
      .ok ((if dashed then ('-', '-') :: ranges else ranges).reverse, rest)
    else if c = '-' ∧ !first ∧ !dashed then readRanges false true ranges rest
    else
      match dashed, ranges with
      | true, (lo, _) :: others =>
        if c < lo then .error (.invalidRange lo c)
        else readRanges false false ((lo, c) :: others) rest
      | _, _ => readRanges false false ((c, c) :: ranges) rest

/-- The class after its opening bracket: whether it is negated, and its ranges. -/
def classBody : List Char → Bool × List Char
  | '!' :: rest | '^' :: rest => (true, rest)
  | cs => (false, cs)

/-- Reads a class after its opening bracket. -/
def readClass (cs : List Char) : Except GlobError (Token × List Char) :=
  match readRanges true false [] (classBody cs).2 with
  | .ok (ranges, rest) => .ok (.oneOf (classBody cs).1 ranges, rest)
  | .error e => .error e

theorem length_classBody (cs : List Char) : (classBody cs).2.length ≤ cs.length := by
  unfold classBody
  split <;> simp

theorem length_readRanges {first dashed : Bool} {ranges out : List (Char × Char)}
    {cs rest : List Char} (h : readRanges first dashed ranges cs = .ok (out, rest)) :
    rest.length < cs.length := by
  induction cs generalizing first dashed ranges with
  | nil => simp [readRanges] at h
  | cons c cs ih =>
    unfold readRanges at h
    split at h
    · cases h; simp
    · split at h
      · exact Nat.lt_succ_of_lt (ih h)
      · split at h
        · split at h
          · cases h
          · exact Nat.lt_succ_of_lt (ih h)
        · exact Nat.lt_succ_of_lt (ih h)

theorem length_readClass {cs rest : List Char} {t : Token} (h : readClass cs = .ok (t, rest)) :
    rest.length < cs.length := by
  unfold readClass at h
  split at h
  · rename_i hr
    cases h
    exact Nat.lt_of_lt_of_le (length_readRanges hr) (length_classBody cs)
  · cases h

/-! ### Patterns -/

/-- A group of alternatives that is still open: the finished branches, and the tokens in front of
    the group; newest first. -/
structure OpenGroup where
  branches : List (List Token)
  before : List Token

/-- What was read so far: the tokens of the branch at hand, newest first, and the groups around it,
    innermost first. -/
structure Progress where
  tokens : List Token := []
  groups : List OpenGroup := []

namespace Progress

/-- Adds a token. -/
def add (p : Progress) (t : Token) : Progress := { p with tokens := t :: p.tokens }

/-- Opens a group. -/
def openGroup (p : Progress) : Progress :=
  { tokens := [], groups := { branches := [], before := p.tokens } :: p.groups }

/-- Begins the next branch of the innermost group; outside of groups a comma stands for itself. -/
def nextBranch (p : Progress) : Progress :=
  match p.groups with
  | [] => p.add (.literal ',')
  | g :: gs =>
    { tokens := [], groups := { g with branches := p.tokens.reverse :: g.branches } :: gs }

/-- Closes the innermost group. -/
def closeGroup (p : Progress) : Except GlobError Progress :=
  match p.groups with
  | [] => .error .unopenedAlternatives
  | g :: gs =>
    let branches := (p.tokens.reverse :: g.branches).reverse
    .ok { tokens := .alternatives branches :: g.before, groups := gs }

/-- Two stars that do not stand for directories. -/
def addStars (p : Progress) : Progress := (p.add .many).add .many

/-- Puts a token for directories in place of the newest token, which was the separator in front of
    it; a token for directories there stays. -/
def mergeDirectories (p : Progress) (t : Token) : Progress :=
  match p.tokens with
  | .leading :: _ | .trailing :: _ => p
  | _ :: rest => { p with tokens := t :: rest }
  | [] => { p with tokens := [t] }

/-- Reads `**` with what stands around it; tells whether the separator behind it belongs to it. -/
def addDoubleStar (p : Progress) (previous next : Option Char) : Progress × Bool :=
  let ends := next.all (· = '/')
  if p.tokens.isEmpty then
    if ends then (p.add .leading, next.isSome) else (p.addStars, false)
  else
    let begins := previous = some '/' ∨
      (p.groups ≠ [] ∧ (previous = some ',' ∨ previous = some '\x7b'))
    if !decide begins then (p.addStars, false)
    else if next = some '/' then (p.mergeDirectories .between, true)
    else if next = none ∨ (p.groups ≠ [] ∧ (next = some ',' ∨ next = some '\x7d')) then
      (p.mergeDirectories .trailing, false)
    else (p.addStars, false)

end Progress

/-- What an opening bracket is taken for. -/
inductive Brackets where
  /-- It opens a class, which has to be closed. -/
  | strict
  /-- It opens a class; one that is never closed stands for itself, and so do all behind it. -/
  | lenient
  /-- It stands for itself. -/
  | plain
deriving DecidableEq, Repr

/-- Reads the rest of a pattern after a character. -/
def readFrom (brackets : Brackets) (p : Progress) (previous : Option Char) :
    List Char → Except GlobError Progress
  | [] => .ok p
  | '*' :: '*' :: rest =>
    match p.addDoubleStar previous rest.head?, rest with
    | (p, true), c :: rest => readFrom brackets p (some c) rest
    | (p, _), rest => readFrom brackets p (some '*') rest
  | '\\' :: c :: rest => readFrom brackets (p.add (.literal c)) (some c) rest
  | ['\\'] => .error .danglingEscape
  | '[' :: rest =>
    if brackets = .plain then readFrom .plain (p.add (.literal '[')) (some '[') rest
    else match _h : readClass rest with
    | .ok (t, rest') =>
      have := length_readClass _h
      readFrom brackets (p.add t) (some ']') rest'
    | .error .unclosedClass =>
      if brackets = .lenient then readFrom .plain (p.add (.literal '[')) (some '[') rest
      else .error .unclosedClass
    | .error e => .error e
  | '\x7d' :: rest =>
    match p.closeGroup with
    | .ok p => readFrom brackets p (some '\x7d') rest
    | .error e => .error e
  | '\x7b' :: rest => readFrom brackets p.openGroup (some '\x7b') rest
  | ',' :: rest => readFrom brackets p.nextBranch (some ',') rest
  | '*' :: rest => readFrom brackets (p.add .many) (some '*') rest
  | '?' :: rest => readFrom brackets (p.add .any) (some '?') rest
  | c :: rest => readFrom brackets (p.add (.literal c)) (some c) rest
termination_by cs => cs.length
decreasing_by all_goals (simp only [List.length_cons]; omega)

/-- Reads a pattern. -/
def parse (s : String) (strict : Bool := false) (brackets : Brackets := .strict) :
    Except GlobError Glob :=
  match readFrom brackets {} none s.toList with
  | .error e => .error e
  | .ok p =>
    match p.groups with
    | [] => .ok { tokens := p.tokens.reverse, strict }
    | _ => .error .unclosedAlternatives

end Glob

end SymbolAtlas
