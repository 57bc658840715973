/-!
# Numerals

`readNat? bound s` reads an optional plus sign and at least one decimal digit, and refuses values
above the bound.  `isDecimal` tells whether a text is a decimal numeral with sign, fraction and
exponent.

Main facts: digits alone are a decimal numeral (`Text.isDecimal_of_digits`).
-/

set_option autoImplicit false

namespace SymbolAtlas.Text

/-- The value of a run of decimal digits after those that gave `acc`; `none` at any other
    character. -/
def readDigits : Nat → List Char → Option Nat
  | acc, [] => some acc
  | acc, c :: rest =>
    if '0' ≤ c ∧ c ≤ '9' then readDigits (acc * 10 + (c.toNat - '0'.toNat)) rest else none

/-- The digits of a numeral without its optional plus sign. -/
def unsigned : List Char → List Char
  | '+' :: rest => rest
  | cs => cs

/-- A numeral of value at most `bound`: an optional `+`, then at least one digit. -/
def readNat? (bound : Nat) (s : String) : Option Nat :=
  match unsigned s.toList with
  | [] => none
  | digits => (readDigits 0 digits).filter (· ≤ bound)

/-- Without a sign in front. -/
def withoutSign : List Char → List Char
  | '+' :: rest | '-' :: rest => rest
  | cs => cs

/-- At least one digit and nothing else. -/
def isDigits (cs : List Char) : Bool := !cs.isEmpty && cs.all Char.isDigit

/-- Nothing, or the mark of an exponent and its digits. -/
def isExponent : List Char → Bool
  | [] => true
  | c :: rest => (c == 'e' || c == 'E') && isDigits (withoutSign rest)

/-- Digits with an optional point among or around them, and an optional exponent. -/
def isFraction (cs : List Char) : Bool :=
  let whole := cs.takeWhile Char.isDigit
  match cs.dropWhile Char.isDigit with
  | '.' :: rest =>
    !(whole ++ rest.takeWhile Char.isDigit).isEmpty && isExponent (rest.dropWhile Char.isDigit)
  | rest => !whole.isEmpty && isExponent rest

/-- A decimal numeral: an optional sign, then digits with point and exponent, or a word for what is
    no finite number. -/
def isDecimal (s : String) : Bool :=
  let body := withoutSign s.toList
  ["inf", "infinity", "nan"].contains (String.ofList (body.map Char.toLower)) || isFraction body

/-- The hexadecimal digit of a value below sixteen. -/
def hexDigit (n : Nat) : Char := if n < 10 then Char.ofNat (48 + n) else Char.ofNat (87 + n)

/-- The value of a hexadecimal digit. -/
def hexValue? (c : Char) : Option Nat :=
  if '0' ≤ c ∧ c ≤ '9' then some (c.toNat - 48)
  else if 'a' ≤ c ∧ c ≤ 'f' then some (c.toNat - 87)
  else if 'A' ≤ c ∧ c ≤ 'F' then some (c.toNat - 55)
  else none

/-- The largest unsigned 32-bit number. -/
def maxWord32 : Nat := 4294967295

/-! ### Facts -/

theorem isDecimal_of_digits {cs : List Char} (h : isDigits cs = true)
    (hs : withoutSign cs = cs) : isDecimal (String.ofList cs) = true := by
  simp only [isDigits, Bool.and_eq_true, Bool.not_eq_true'] at h
  have hall : ∀ c ∈ cs, Char.isDigit c = true := List.all_eq_true.mp h.2
  have hdrop : cs.dropWhile Char.isDigit = [] := by
    rw [← List.append_nil cs, List.dropWhile_append_of_pos hall, List.dropWhile_nil]
  have htake : cs.takeWhile Char.isDigit = cs := by
    rw [← List.append_nil cs, List.takeWhile_append_of_pos hall, List.takeWhile_nil]
  simp [isDecimal, isFraction, hs, hdrop, htake, h.1, isExponent]

end SymbolAtlas.Text
