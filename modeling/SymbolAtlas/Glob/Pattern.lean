/-!
# Glob patterns

A glob is a list of tokens that is matched against the bytes of a path.  `*` and `?` stand for bytes
of a name, or of a whole path where separators do not count; `**` between separators stands for
directories.

Matching goes through the tokens once.  It keeps the places of the text that the tokens so far can
lead to, as one mark for each place, so its time grows with the product of both lengths.

Main facts: a pattern of bare characters matches exactly its own text
(`Glob.reaches_literals`).
-/

set_option autoImplicit false

namespace SymbolAtlas.Glob

/-- A part of a pattern. -/
inductive Token where
  /-- One character. -/
  | literal (c : Char)
  /-- `?`: one byte. -/
  | any
  /-- `*`: any number of bytes. -/
  | many
  /-- `**/` at the start: any directories. -/
  | leading
  /-- `/**` at the end: everything below. -/
  | trailing
  /-- `/**/`: any directories in between. -/
  | between
  /-- `[a-z]`: one byte of some ranges, or of none of them. -/
  | oneOf (negated : Bool) (ranges : List (Char × Char))
  /-- `{a,b}`: one of some patterns. -/
  | alternatives (branches : List (List Token))
deriving Repr, Inhabited

/-- The byte between directories. -/
def separator : UInt8 := 47

/-- The bytes of a character. -/
def bytesOf (c : Char) : List UInt8 := String.utf8EncodeChar c

/-- A byte belongs to a range.  Ends of several bytes are taken byte by byte: only the last byte of
    the lower end and the first byte of the upper end span a range. -/
def inRange (lo hi : Char) (b : UInt8) : Bool :=
  let l := bytesOf lo
  let h := bytesOf hi
  if lo = hi then l.contains b
  else l.dropLast.contains b || h.tail.contains b ||
    (l.getLast?.any (· ≤ b) && h.head?.any (b ≤ ·))

mutual

/-- The token stands for nothing at all, because all its branches are empty. -/
def Token.isVoid : Token → Bool
  | .alternatives branches => allVoid branches
  | _ => false

/-- All patterns of a list stand for nothing. -/
def allVoid : List (List Token) → Bool
  | [] => true
  | b :: bs => isVoid b && allVoid bs

/-- The pattern stands for nothing. -/
def isVoid : List Token → Bool
  | [] => true
  | t :: ts => t.isVoid && isVoid ts

end

/-! ### Matching -/

/-- Which places of a text can be reached: one mark for the start and one for the place behind each
    byte. -/
abbrev Marks := List Bool

/-- The places one byte of a class further on. -/
def shift (p : UInt8 → Bool) (text : List UInt8) (marks : Marks) : Marks :=
  false :: List.zipWith (fun b m => m && p b) text marks

/-- The places any number of bytes of a class further on; `on` tells that the place before the first
    one leads there. -/
def spread (p : UInt8 → Bool) : Bool → List UInt8 → Marks → Marks
  | _, _, [] => []
  | on, [], m :: marks => (on || m) :: marks
  | on, b :: text, m :: marks => (on || m) :: spread p ((on || m) && p b) text marks

/-- Places of either kind. -/
def either (a b : Marks) : Marks := List.zipWith (· || ·) a b

/-- The places themselves, and those behind a separator anywhere further on. -/
def below (text : List UInt8) (marks : Marks) : Marks :=
  either marks (shift (· == separator) text (spread (fun _ => true) false text marks))

mutual

/-- The places that a token leads to.  With `strict` bytes of a name only stand for `*` and `?`.
    Empty branches of alternatives do not count. -/
def Token.advance (strict : Bool) (text : List UInt8) : Token → Marks → Marks
  | .literal c, m => (bytesOf c).foldl (fun m b => shift (· == b) text m) m
  | .any, m => shift (fun b => !strict || b != separator) text m
  | .many, m => spread (fun b => !strict || b != separator) false text m
  | .leading, m => below text m
  | .trailing, m => spread (fun _ => true) false text (shift (· == separator) text m)
  | .between, m => below text (shift (· == separator) text m)
  | .oneOf negated ranges, m =>
    shift (fun b => ranges.any (fun r => inRange r.1 r.2 b) != negated) text m
  | .alternatives branches, m =>
    if allVoid branches then m else advanceAny strict text branches m

/-- The places that the patterns lead to which are not empty. -/
def advanceAny (strict : Bool) (text : List UInt8) : List (List Token) → Marks → Marks
  | [], m => m.map fun _ => false
  | b :: bs, m =>
    if isVoid b then advanceAny strict text bs m
    else either (advanceAll strict text b m) (advanceAny strict text bs m)

/-- The places that tokens lead to, one after the other. -/
def advanceAll (strict : Bool) (text : List UInt8) : List Token → Marks → Marks
  | [], m => m
  | t :: ts, m => advanceAll strict text ts (t.advance strict text m)

end

/-- The mark at the start of a text alone. -/
def startOf (text : List UInt8) : Marks := true :: text.map fun _ => false

/-- No mark at all. -/
def noMarks (text : List UInt8) : Marks := false :: text.map fun _ => false

/-- The tokens lead from the start of a text to its end. -/
def reaches (strict : Bool) (tokens : List Token) (text : List UInt8) : Bool :=
  (advanceAll strict text tokens (startOf text)).getLast? == some true

end Glob

/-- A glob: its tokens, and whether `*` and `?` stop at separators. -/
structure Glob where
  tokens : List Glob.Token
  strict : Bool := false
deriving Repr

namespace Glob

/-- The glob matches a text as a whole.  A lone `**` matches everything. -/
def isMatch (g : Glob) (text : String) : Bool :=
  match g.tokens with
  | [.leading] => true
  | tokens => reaches g.strict tokens text.toUTF8.toList

/-! ### Facts -/

theorem zipWith_none (p : UInt8 → Bool) (text : List UInt8) :
    List.zipWith (fun b m => m && p b) text (noMarks text) = text.map fun _ => false := by
  have h : ∀ (text : List UInt8) (m : Bool), m = false →
      List.zipWith (fun b m => m && p b) text (m :: text.map fun _ => false) =
        text.map fun _ => false := by
    intro text
    induction text with
    | nil => simp
    | cons b text ih =>
      rintro m rfl
      show (false && p b) :: List.zipWith _ text (false :: text.map fun _ => false) = _
      rw [ih false rfl]
      rfl
  exact h text false rfl

/-- No place is reached from none. -/
theorem shift_none (p : UInt8 → Bool) (text : List UInt8) :
    shift p text (noMarks text) = noMarks text := by
  rw [shift, zipWith_none, noMarks]

/-- A step from the start of a text leads to the start of its rest, if the byte fits. -/
theorem shift_startOf (p : UInt8 → Bool) (b : UInt8) (text : List UInt8) :
    shift p (b :: text) (startOf (b :: text)) =
      if p b then false :: startOf text else noMarks (b :: text) := by
  have h : List.zipWith (fun b m => m && p b) text (false :: text.map fun _ => false) =
      text.map fun _ => false := zipWith_none p text
  show false :: (true && p b) :: List.zipWith _ text (false :: text.map fun _ => false) = _
  rw [h]
  cases p b <;> rfl

/-- A byte in front of all marks does not count. -/
theorem shift_cons_false (p : UInt8 → Bool) (b : UInt8) (text : List UInt8) (m : Marks) :
    shift p (b :: text) (false :: m) = false :: shift p text m := by
  simp [shift]

/-- Going through bytes one after the other. -/
def shifts (text : List UInt8) (bytes : List UInt8) (m : Marks) : Marks :=
  bytes.foldl (fun m b => shift (· == b) text m) m

theorem shifts_cons_false (b : UInt8) (text bytes : List UInt8) (m : Marks) :
    shifts (b :: text) bytes (false :: m) = false :: shifts text bytes m := by
  induction bytes generalizing m with
  | nil => rfl
  | cons c bytes ih =>
    show shifts (b :: text) bytes (shift _ (b :: text) (false :: m)) = _
    rw [shift_cons_false, ih]
    rfl

theorem shifts_none (text bytes : List UInt8) :
    shifts text bytes (noMarks text) = noMarks text := by
  induction bytes with
  | nil => rfl
  | cons c bytes ih =>
    show shifts text bytes (shift _ text _) = _
    rw [shift_none, ih]

theorem getLast?_noMarks (text : List UInt8) : (noMarks text).getLast? = some false := by
  induction text with
  | nil => rfl
  | cons b text ih => rw [noMarks, List.map_cons, List.getLast?_cons_cons]; exact ih

theorem shifts_startOf (text bytes : List UInt8) :
    (shifts text bytes (startOf text)).getLast? = some true ↔ text = bytes := by
  induction bytes generalizing text with
  | nil =>
    cases text with
    | nil => simp [shifts, startOf]
    | cons b text =>
      show (true :: noMarks text).getLast? = some true ↔ _
      rw [noMarks, List.getLast?_cons_cons, ← noMarks, getLast?_noMarks]
      simp
  | cons c bytes ih =>
    cases text with
    | nil =>
      show (shifts [] bytes (shift _ [] (startOf []))).getLast? = _ ↔ _
      rw [show shift (· == c) [] (startOf []) = noMarks [] from rfl, shifts_none]
      simp [noMarks]
    | cons b text =>
      show (shifts (b :: text) bytes (shift _ (b :: text) (startOf (b :: text)))).getLast? = _ ↔ _
      rw [shift_startOf]
      by_cases h : b = c
      · subst h
        rw [if_pos (by simp), shifts_cons_false]
        have hne : shifts text bytes (startOf text) ≠ [] := by
          cases bytes with
          | nil => simp [shifts, startOf]
          | cons c bytes =>
            intro he
            have : ∀ (bytes : List UInt8) (m : Marks), m ≠ [] → shifts text bytes m ≠ [] := by
              intro bytes
              induction bytes with
              | nil => exact fun m hm => hm
              | cons d bytes ihb => exact fun m _ => ihb _ (by simp [shift])
            exact this _ _ (by simp [startOf]) he
        obtain ⟨m, ms, hm⟩ := List.exists_cons_of_ne_nil hne
        rw [hm, List.getLast?_cons_cons, ← hm, ih]
        simp
      · rw [if_neg (by simpa using h), shifts_none, getLast?_noMarks]
        simp [h]

/-- Bare characters lead through their own bytes. -/
theorem advanceAll_literals (strict : Bool) (text : List UInt8) (cs : List Char) (m : Marks) :
    advanceAll strict text (cs.map .literal) m = shifts text (cs.flatMap bytesOf) m := by
  induction cs generalizing m with
  | nil => simp [advanceAll, shifts]
  | cons c cs ih =>
    rw [List.map_cons, advanceAll, ih, Token.advance, List.flatMap_cons, shifts, shifts,
      List.foldl_append]

theorem reaches_literals (strict : Bool) (cs : List Char) (text : List UInt8) :
    reaches strict (cs.map .literal) text = true ↔ text = cs.flatMap bytesOf := by
  rw [reaches, advanceAll_literals, beq_iff_eq, shifts_startOf]

end Glob

end SymbolAtlas
