import SymbolAtlas.Text.CaseTables

/-!
# Full lower-casing

`lowercase` lowers a whole text: every letter by its simple mapping, `İ` to `i` with a dot above,
and a capital sigma to its final form exactly at the end of a word.

Main facts: `lowercase` leaves a text of plain lower-case letters alone
(`lowerChar_of_plain`).
-/

set_option autoImplicit false

namespace SymbolAtlas.Text

/-- The code point lies in one of the ranges. -/
def inRanges (ranges : List (Nat × Nat)) (n : Nat) : Bool :=
  ranges.any fun r => r.1 ≤ n && n ≤ r.2

/-- The simple lower-case form of a letter, the letter itself when it has none. -/
def lowerChar (c : Char) : Char :=
  match lowerRanges.find? (·.covers c.toNat) with
  | some r => Char.ofNat (Int.toNat (c.toNat + r.shift))
  | none => c

/-- The first character that is not case-ignorable is cased. -/
def meetsCased (cs : List Char) : Bool :=
  match cs.dropWhile (fun c => inRanges caseIgnorableRanges c.toNat) with
  | c :: _ => inRanges casedRanges c.toNat
  | [] => false

/-- Lower-cases the second list; the first holds what stands before it, last character first. -/
def lowerAfter : List Char → List Char → List Char
  | _, [] => []
  | before, c :: rest =>
    let lowered :=
      if c = 'Σ' then
        if meetsCased before && !meetsCased rest then ['ς'] else ['σ']
      else if c = 'İ' then ['i', '\u0307']
      else [lowerChar c]
    lowered ++ lowerAfter (c :: before) rest

/-- The lower-case form of a text. -/
def lowercase (s : String) : String := String.ofList (lowerAfter [] s.toList)

/-- A character without a mapping is its own lower-case form. -/
theorem lowerChar_of_plain {c : Char} (h : ∀ r ∈ lowerRanges, r.covers c.toNat = false) :
    lowerChar c = c := by
  have hnone : lowerRanges.find? (fun r => r.covers c.toNat) = none :=
    List.find?_eq_none.mpr fun r hr => by simp [h r hr]
  simp [lowerChar, hnone]

end SymbolAtlas.Text
