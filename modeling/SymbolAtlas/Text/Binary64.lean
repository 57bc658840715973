import SymbolAtlas.Text.Numeral

/-!
# Numbers with 53 binary digits

`Binary64.ofRatio?` rounds a fraction to the nearest number of the form `mantissa * 2 ^ exponent`
with at most 53 binary digits and a bounded exponent; a tie goes to the even mantissa.
`Binary64.text` writes such a number with the fewest decimal digits that lead back to it.

Main facts: dividing with rounding is off by half the divisor at most (`Text.roundDiv_close`).
-/

set_option autoImplicit false

namespace SymbolAtlas.Text

/-- The quotient nearest to a fraction; a tie goes to the even one. -/
def roundDiv (num den : Nat) : Nat :=
  let q := num / den
  let twice := 2 * (num % den)
  if twice < den ∨ (twice = den ∧ q % 2 = 0) then q else q + 1

/-- A number `mantissa * 2 ^ exponent` without a sign. -/
structure Binary64 where
  mantissa : Nat
  exponent : Int
deriving DecidableEq, Repr

namespace Binary64

/-- The number of binary digits. -/
def precision : Nat := 53

/-- The least exponent. -/
def leastExponent : Int := -1074

/-- The greatest exponent. -/
def greatestExponent : Int := 971

/-- The fraction `num / den` in units of `2 ^ exponent`. -/
def scaled (num den : Nat) (exponent : Int) : Nat × Nat :=
  (num * Nat.pow 2 (-exponent).toNat, den * Nat.pow 2 exponent.toNat)

/-- The nearest number to a fraction; none if it is too large. -/
def ofRatio? (num den : Nat) : Option Binary64 :=
  if num = 0 then some ⟨0, leastExponent⟩
  else
    let guess := max leastExponent ((Nat.log2 num : Int) - Nat.log2 den - precision)
    let whole := (scaled num den guess).1 / (scaled num den guess).2
    let exponent := if Nat.pow 2 precision ≤ whole then guess + 1 else guess
    let mantissa := roundDiv (scaled num den exponent).1 (scaled num den exponent).2
    let b : Binary64 :=
      if mantissa = Nat.pow 2 precision then ⟨mantissa / 2, exponent + 1⟩ else ⟨mantissa, exponent⟩
    if b.exponent ≤ greatestExponent then some b else none

/-- A number as a fraction. -/
def ratio (b : Binary64) : Nat × Nat :=
  (b.mantissa * Nat.pow 2 b.exponent.toNat, Nat.pow 2 (-b.exponent).toNat)

/-- The product of two numbers. -/
def mul? (a b : Binary64) : Option Binary64 :=
  ofRatio? (a.ratio.1 * b.ratio.1) (a.ratio.2 * b.ratio.2)

/-- The quotient of two numbers. -/
def div? (a b : Binary64) : Option Binary64 :=
  ofRatio? (a.ratio.1 * b.ratio.2) (a.ratio.2 * b.ratio.1)

/-- A power of ten. -/
def tenTo? (n : Nat) : Option Binary64 := ofRatio? (Nat.pow 10 n) 1

/-! ### Decimal text -/

/-- The fraction `num / den` rounds to the number: it lies between the halves of the steps to its
    neighbours, ends included for an even mantissa. -/
def isNearest (b : Binary64) (num den : Nat) : Bool :=
  let low := if b.mantissa = Nat.pow 2 (precision - 1) ∧ leastExponent < b.exponent then 1 else 2
  let (unitNum, unitDen) := (Binary64.mk 1 (b.exponent - 2)).ratio
  -- all in quarters of the step upwards
  let value := num * unitDen
  let at' := fun (quarters : Nat) => quarters * unitNum * den
  let lowest := at' (4 * b.mantissa - low)
  let highest := at' (4 * b.mantissa + 2)
  if b.mantissa % 2 = 0 then decide (lowest ≤ value ∧ value ≤ highest)
  else decide (lowest < value ∧ value < highest)

/-- Decimal digits, as a number and the power of ten that it counts, if they lead back to the
    number: the closer one of its two neighbours among the multiples of that power. -/
def digitsAt? (b : Binary64) (power : Int) : Option (Nat × Int) :=
  let (num, den) := b.ratio
  let unitNum := Nat.pow 10 power.toNat
  let unitDen := Nat.pow 10 (-power).toNat
  let near := roundDiv (num * unitDen) (den * unitNum)
  let leadsBack := fun (n : Nat) => b.isNearest (n * unitNum) unitDen
  if leadsBack near then some (near, power)
  else if leadsBack (near + 1) then some (near + 1, power)
  else none

/-- The fewest decimal digits that lead back to the number; tries powers of ten downwards. -/
def shortestFrom (b : Binary64) : Nat → Int → Nat × Int
  | 0, power => (b.mantissa, power)
  | n + 1, power =>
    match b.digitsAt? power with
    | some (0, _) | none => shortestFrom b n (power - 1)
    | some found => found

/-- Takes zeros off the end of digits. -/
def trimZeros : Nat → Nat × Int → Nat × Int
  | 0, d => d
  | n + 1, (digits, power) =>
    if digits % 10 = 0 ∧ digits ≠ 0 then trimZeros n (digits / 10, power + 1) else (digits, power)

/-- The fewest decimal digits that lead back to the number, and the power of ten that they
    count. -/
def shortest (b : Binary64) : Nat × Int :=
  let digitCount := (Nat.toDigits 10 (b.ratio.1 / b.ratio.2)).length
  let top : Int := if b.ratio.1 < b.ratio.2 then 0 else digitCount
  trimZeros 400 (shortestFrom b 800 top)

/-- The decimal text: with a point where the number has at most sixteen digits in front of it and
    at most four zeros behind it, and with an exponent otherwise. -/
def text (b : Binary64) : String :=
  if b.mantissa = 0 then "0.0"
  else
    let (digits, power) := b.shortest
    let ds := Nat.toDigits 10 digits
    let point := ds.length + power
    if 0 ≤ power ∧ point ≤ 16 then
      String.ofList (ds ++ List.replicate power.toNat '0') ++ ".0"
    else if 0 < point ∧ point ≤ 16 then
      String.ofList (ds.take point.toNat) ++ "." ++ String.ofList (ds.drop point.toNat)
    else if -5 < point ∧ point ≤ 0 then
      "0." ++ String.ofList (List.replicate (-point).toNat '0' ++ ds)
    else
      let tail := if ds.length = 1 then "" else "." ++ String.ofList (ds.drop 1)
      String.ofList (ds.take 1) ++ tail ++ "e" ++ toString (point - 1)

end Binary64

/-! ### Facts -/

theorem roundDiv_close (num : Nat) {den : Nat} (h : 0 < den) :
    2 * num ≤ 2 * (roundDiv num den * den) + den ∧
      2 * (roundDiv num den * den) ≤ 2 * num + den := by
  have hmod := Nat.mod_lt num h
  have hdiv := Nat.div_add_mod num den
  rw [Nat.mul_comm] at hdiv
  have hsucc : (num / den + 1) * den = num / den * den + den := Nat.succ_mul _ _
  unfold roundDiv
  dsimp only
  split
  · rename_i hle
    omega
  · rename_i hgt
    rw [hsucc]
    omega

end SymbolAtlas.Text
