import SymbolAtlas.Text.Numeral

/-!
# TOML tokens

Readers of blanks, comments, keys, texts, numbers and points in time.  Each takes the characters at
hand and gives what it read with the characters behind it, or nothing.

Main facts: skipping blanks never adds characters (`Toml.length_skipLayout`).
-/

set_option autoImplicit false

namespace SymbolAtlas.Toml

/-- What a reader found, and the characters behind it. -/
abbrev Reading (α : Type) := α × List Char

/-! ### Blanks and comments -/

/-- Blanks inside a line. -/
def isBlank (c : Char) : Bool := c == ' ' || c == '\t'

/-- Characters that may stand in a comment: no control characters but the tab. -/
def inComment (c : Char) : Bool := c == '\t' || (32 ≤ c.toNat && c.toNat != 127)

/-- The characters behind blanks. -/
def skipBlanks (cs : List Char) : List Char := cs.dropWhile isBlank

/-- The characters behind a line break. -/
def lineBreak? : List Char → Option (List Char)
  | '\n' :: rest => some rest
  | '\r' :: '\n' :: rest => some rest
  | _ => none

/-- The characters behind a comment, if there is one. -/
def skipComment : List Char → List Char
  | '#' :: rest => rest.dropWhile inComment
  | cs => cs

/-- The characters behind what may end a line: blanks, a comment, and the line break or the end of
    the document. -/
def lineEnd? (cs : List Char) : Option (List Char) :=
  match skipComment (skipBlanks cs) with
  | [] => some []
  | rest => lineBreak? rest

theorem length_dropWhile_le (p : Char → Bool) (cs : List Char) :
    (cs.dropWhile p).length ≤ cs.length :=
  (List.dropWhile_suffix p).length_le

/-- The characters behind blanks, comments and line breaks. -/
def skipLayout : List Char → List Char
  | [] => []
  | '\n' :: rest => skipLayout rest
  | '\r' :: '\n' :: rest => skipLayout rest
  | '#' :: rest => skipLayout (rest.dropWhile inComment)
  | c :: rest => if isBlank c then skipLayout rest else c :: rest
termination_by cs => cs.length
decreasing_by
  · simp
  · simp only [List.length_cons]; omega
  · have := length_dropWhile_le inComment rest
    simp only [List.length_cons]; omega
  · simp

theorem length_skipLayout (cs : List Char) : (skipLayout cs).length ≤ cs.length := by
  fun_induction skipLayout cs with
  | case1 => simp
  | case2 rest ih => simp; omega
  | case3 rest ih => simp; omega
  | case4 rest ih =>
    have := length_dropWhile_le inComment rest
    simp; omega
  | case5 c rest _ _ _ _ ih => simp; omega
  | case6 => simp

/-! ### Texts -/

/-- A character by its number in this many hexadecimal digits. -/
def readScalar (digits : Nat) (cs : List Char) : Option (Reading Char) := do
  let ds ← (cs.take digits).mapM Text.hexValue?
  let n := ds.foldl (fun n d => n * 16 + d) 0
  if ds.length = digits ∧ n.isValidChar then pure (Char.ofNat n, cs.drop digits) else none

/-- What a backslash stands for together with the characters behind it. -/
def readEscape : List Char → Option (Reading Char)
  | 'b' :: rest => some ('\x08', rest)
  | 't' :: rest => some ('\t', rest)
  | 'n' :: rest => some ('\n', rest)
  | 'f' :: rest => some ('\x0c', rest)
  | 'r' :: rest => some ('\r', rest)
  | '"' :: rest => some ('"', rest)
  | '\\' :: rest => some ('\\', rest)
  | 'u' :: rest => readScalar 4 rest
  | 'U' :: rest => readScalar 8 rest
  | _ => none

/-- Reads the inside of a text in quotation marks. -/
def readBasic : Nat → List Char → Option (Reading (List Char))
  | 0, _ => none
  | _ + 1, [] => none
  | _ + 1, '"' :: rest => some ([], rest)
  | n + 1, '\\' :: rest => do
    let (c, rest) ← readEscape rest
    let (cs, rest) ← readBasic n rest
    pure (c :: cs, rest)
  | n + 1, c :: rest =>
    if inComment c then (readBasic n rest).map fun (cs, rest) => (c :: cs, rest) else none

/-- Reads the inside of a text in apostrophes. -/
def readLiteral : List Char → Option (Reading (List Char))
  | [] => none
  | '\'' :: rest => some ([], rest)
  | c :: rest =>
    if inComment c then (readLiteral rest).map fun (cs, rest) => (c :: cs, rest) else none

/-- How many of the first characters are a mark. -/
def countMarks (mark : Char) (cs : List Char) : Nat := (cs.takeWhile (· = mark)).length

/-- The blanks and line breaks behind a backslash at the end of a line. -/
def foldedBreak? (cs : List Char) : Option (List Char) := do
  let rest ← lineBreak? (skipBlanks cs)
  pure (dropBreaks rest.length rest)
where
  /-- Drops blanks and line breaks. -/
  dropBreaks : Nat → List Char → List Char
    | 0, cs => cs
    | n + 1, cs =>
      match lineBreak? (skipBlanks cs) with
      | some rest => dropBreaks n rest
      | none => skipBlanks cs

/-- Reads the inside of a text in three marks, over several lines.  Up to two marks in a row belong
    to the text, also right before the closing ones. -/
def readMultiline (mark : Char) (escapes : Bool) : Nat → List Char → Option (Reading (List Char))
  | 0, _ => none
  | _ + 1, [] => none
  | n + 1, c :: rest =>
    if c = mark then
      let k := countMarks mark (c :: rest)
      if 3 ≤ k then
        if k ≤ 5 then some (List.replicate (k - 3) mark, (c :: rest).drop k) else none
      else (readMultiline mark escapes n rest).map fun (cs, rest) => (c :: cs, rest)
    else if c = '\\' ∧ escapes then
      match foldedBreak? rest with
      | some rest => readMultiline mark escapes n rest
      | none => do
        let (c, rest) ← readEscape rest
        let (cs, rest) ← readMultiline mark escapes n rest
        pure (c :: cs, rest)
    else match lineBreak? (c :: rest) with
      | some rest => (readMultiline mark escapes n rest).map fun (cs, rest) => ('\n' :: cs, rest)
      | none =>
        if inComment c then
          (readMultiline mark escapes n rest).map fun (cs, rest) => (c :: cs, rest)
        else none

/-- Drops one line break right behind the opening marks. -/
def afterOpening (cs : List Char) : List Char := (lineBreak? cs).getD cs

/-- Reads a text of any kind. -/
def readText : List Char → Option (Reading String)
  | '"' :: '"' :: '"' :: rest =>
    (readMultiline '"' true (rest.length + 1) (afterOpening rest)).map
      fun (cs, rest) => (String.ofList cs, rest)
  | '"' :: rest => (readBasic (rest.length + 1) rest).map fun (cs, rest) => (String.ofList cs, rest)
  | '\'' :: '\'' :: '\'' :: rest =>
    (readMultiline '\'' false (rest.length + 1) (afterOpening rest)).map
      fun (cs, rest) => (String.ofList cs, rest)
  | '\'' :: rest => (readLiteral rest).map fun (cs, rest) => (String.ofList cs, rest)
  | _ => none

/-! ### Keys -/

/-- Characters of a bare key. -/
def inBareKey (c : Char) : Bool := c.isAlphanum || c == '-' || c == '_'

/-- Reads one part of a key. -/
def readKeyPart : List Char → Option (Reading String)
  | '"' :: rest => (readBasic (rest.length + 1) rest).map fun (cs, rest) => (String.ofList cs, rest)
  | '\'' :: rest => (readLiteral rest).map fun (cs, rest) => (String.ofList cs, rest)
  | cs =>
    match cs.takeWhile inBareKey with
    | [] => none
    | name => some (String.ofList name, cs.dropWhile inBareKey)

/-- Reads a key of at most this many parts, with the blanks around them. -/
def readKey : Nat → List Char → Option (Reading (List String))
  | 0, _ => none
  | n + 1, cs => do
    let (part, rest) ← readKeyPart (skipBlanks cs)
    match skipBlanks rest with
    | '.' :: more =>
      let (parts, rest) ← readKey n more
      pure (part :: parts, rest)
    | rest => pure ([part], rest)

/-! ### Numbers -/

/-- Reads further digits; an underscore stands between two digits only. -/
def readMoreDigits (isDigit : Char → Bool) : List Char → Option (Reading (List Char))
  | [] => some ([], [])
  | ['_'] => none
  | '_' :: c :: rest =>
    if isDigit c then
      (readMoreDigits isDigit rest).map fun (ds, rest) => (c :: ds, rest)
    else none
  | c :: rest =>
    if isDigit c then
      (readMoreDigits isDigit rest).map fun (ds, rest) => (c :: ds, rest)
    else some ([], c :: rest)

/-- Reads at least one digit. -/
def readSomeDigits (isDigit : Char → Bool) : List Char → Option (Reading (List Char))
  | c :: rest =>
    if isDigit c then
      (readMoreDigits isDigit rest).map fun (ds, rest) => (c :: ds, rest)
    else none
  | [] => none

/-- Reads a sign, if there is one; tells whether it is a minus. -/
def readSign : List Char → Bool × List Char
  | '-' :: rest => (true, rest)
  | '+' :: rest => (false, rest)
  | cs => (false, cs)

/-- Reads decimal digits without leading zeros. -/
def readWhole : List Char → Option (Reading (List Char))
  | '0' :: rest => some (['0'], rest)
  | cs => readSomeDigits Char.isDigit cs

/-- The number that digits of a base spell. -/
def numberOf (base : Nat) (ds : List Char) : Nat :=
  ds.foldl (fun n d => n * base + (Text.hexValue? d).getD 0) 0

/-- Reads digits of a base behind its mark. -/
def readRadix (base : Nat) (cs : List Char) : Option (Reading Int) := do
  let isDigit := fun c => (Text.hexValue? c).any (· < base)
  let (ds, rest) ← readSomeDigits isDigit cs
  pure ((numberOf base ds : Int), rest)

/-- Reads an integer of 64 bits. -/
def readInteger (cs : List Char) : Option (Reading Int) := do
  let (n, rest) ← match cs with
    | '0' :: 'x' :: rest => readRadix 16 rest
    | '0' :: 'o' :: rest => readRadix 8 rest
    | '0' :: 'b' :: rest => readRadix 2 rest
    | _ => do
      let (negative, cs) := readSign cs
      let (ds, rest) ← readWhole cs
      let n : Int := numberOf 10 ds
      pure (if negative then -n else n, rest)
  if -9223372036854775808 ≤ n ∧ n ≤ 9223372036854775807 then pure (n, rest) else none

/-- The number `digits · 10 ^ (exponent - scale)` is too large for a floating point number of 64
    bits. -/
def overflows (digits scale exponent : Nat) : Bool :=
  let limit := Nat.pow 2 1024 - Nat.pow 2 970
  if digits = 0 then false
  else if exponent ≤ scale then digits ≥ limit * Nat.pow 10 (scale - exponent)
  else if exponent - scale > 400 then true
  else digits * Nat.pow 10 (exponent - scale) ≥ limit

/-- Reads an exponent, if there is one; a negative one is told by its sign. -/
def readExponent : List Char → Option (Reading (Option (Bool × Nat)))
  | c :: rest =>
    if c = 'e' ∨ c = 'E' then do
      let (negative, cs) := readSign rest
      let (ds, rest) ← readSomeDigits Char.isDigit cs
      pure (some (negative, numberOf 10 ds), rest)
    else some (none, c :: rest)
  | [] => some (none, [])

/-- Reads a floating point number; one that is too large is none, unless it is negative. -/
def readFloat (cs : List Char) : Option (Reading Unit) := do
  let (negative, cs) := readSign cs
  match cs with
  | 'i' :: 'n' :: 'f' :: rest => pure ((), rest)
  | 'n' :: 'a' :: 'n' :: rest => pure ((), rest)
  | _ =>
    let (whole, cs) ← readWhole cs
    let (fraction, cs) ← match cs with
      | '.' :: rest => (readSomeDigits Char.isDigit rest).map fun (ds, rest) => (some ds, rest)
      | rest => some (none, rest)
    let (exponent, rest) ← readExponent cs
    if fraction.isNone && exponent.isNone then none
    else
      let digits := numberOf 10 (whole ++ fraction.getD [])
      let scale := (fraction.getD []).length
      let large := match exponent with
        | some (true, e) => overflows digits (scale + min e 100000) 0
        | some (false, e) => overflows digits scale e
        | none => overflows digits scale 0
      if large && !negative then none else pure ((), rest)

/-! ### Points in time -/

/-- Reads exactly this many digits, as a number in a range. -/
def readField (width low high : Nat) (cs : List Char) : Option (Reading Nat) :=
  let ds := cs.take width
  let n := numberOf 10 ds
  if ds.length = width ∧ ds.all Char.isDigit ∧ low ≤ n ∧ n ≤ high then some (n, cs.drop width)
  else none

/-- Reads one given character. -/
def readMark (mark : Char) : List Char → Option (Reading Unit)
  | c :: rest => if c = mark then some ((), rest) else none
  | [] => none

/-- Number of days in a month. -/
def daysIn (year month : Nat) : Nat :=
  let leap := decide (year % 4 = 0 ∧ (year % 100 ≠ 0 ∨ year % 400 = 0))
  match month with
  | 2 => if leap then 29 else 28
  | 4 | 6 | 9 | 11 => 30
  | _ => 31

/-- Reads a date. -/
def readDate (cs : List Char) : Option (Reading Unit) := do
  let (year, cs) ← readField 4 0 9999 cs
  let (_, cs) ← readMark '-' cs
  let (month, cs) ← readField 2 1 12 cs
  let (_, cs) ← readMark '-' cs
  let (_, cs) ← readField 2 1 (daysIn year month) cs
  pure ((), cs)

/-- Reads a time of day. -/
def readTime (cs : List Char) : Option (Reading Unit) := do
  let (_, cs) ← readField 2 0 23 cs
  let (_, cs) ← readMark ':' cs
  let (_, cs) ← readField 2 0 59 cs
  let (_, cs) ← readMark ':' cs
  let (_, cs) ← readField 2 0 60 cs
  match cs with
  | '.' :: rest =>
    if rest.head?.any Char.isDigit then pure ((), rest.dropWhile Char.isDigit) else pure ((), cs)
  | _ => pure ((), cs)

/-- Reads a distance from universal time. -/
def readOffset : List Char → Option (Reading Unit)
  | 'Z' :: rest | 'z' :: rest => some ((), rest)
  | c :: rest =>
    if c = '+' ∨ c = '-' then do
      let (_, cs) ← readField 2 0 23 rest
      let (_, cs) ← readMark ':' cs
      let (_, cs) ← readField 2 0 59 cs
      pure ((), cs)
    else none
  | [] => none

/-- Reads a date, a time of day, or both with or without a distance from universal time. -/
def readMoment (cs : List Char) : Option (Reading Unit) :=
  match readDate cs with
  | none => readTime cs
  | some (_, rest) =>
    match rest with
    | c :: more =>
      if c = 'T' ∨ c = 't' ∨ c = ' ' then
        match readTime more with
        | some (_, rest) => readOffset rest <|> some ((), rest)
        | none => some ((), rest)
      else some ((), rest)
    | [] => some ((), rest)

end SymbolAtlas.Toml
