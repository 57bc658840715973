import SymbolAtlas.SymbolGraph

/-!
# The order of locations

Locations are compared by path, line and column, and paths by their components.  Each of these
comparisons is oriented and transitive, so sorting by place puts any two nodes in order.

Principal results: `SymbolGraph.placeLe_total`, `SymbolGraph.placeLe_trans` — the order of places
is total and transitive; `SymbolGraph.children_sorted` — the children of a node stand in that order.
-/

set_option autoImplicit false

namespace SymbolAtlas

open Std (LawfulEqCmp OrientedCmp TransCmp)

/-! ## Components and paths -/

theorem Part.compare_eq_swap (a b : Part) : a.compare b = (b.compare a).swap := by
  cases a with
  | name a =>
    cases b with
    | name b => exact Std.OrientedOrd.eq_swap
    | _ => rfl
  | _ => cases b <;> rfl

instance : OrientedCmp Part.compare where
  eq_swap := Part.compare_eq_swap _ _

instance : TransCmp Part.compare where
  isLE_trans {a b c} hab hbc := by
    cases a with
    | name a =>
      cases b with
      | name b =>
        cases c with
        | name c => exact Std.TransOrd.isLE_trans hab hbc
        | _ => cases hbc
      | _ => cases hab
    | _ =>
      cases b <;> cases c <;> first
        | rfl
        | exact absurd hab Bool.false_ne_true
        | exact absurd hbc Bool.false_ne_true

instance : LawfulEqCmp Part.compare where
  compare_self {a} := by
    cases a with
    | name a => exact Std.ReflOrd.compare_self
    | _ => rfl
  eq_of_compare {a b} h := by
    cases a with
    | name a =>
      cases b with
      | name b => exact congrArg Part.name (Std.LawfulEqOrd.eq_of_compare h)
      | _ => cases h
    | _ =>
      cases b <;> first
        | rfl
        | cases h

theorem Path.compareParts_eq (as bs : List Part) :
    compareParts as bs = List.compareLex Part.compare as bs := by
  induction as generalizing bs with
  | nil => cases bs <;> simp [compareParts, List.compareLex_nil_nil, List.compareLex_nil_cons]
  | cons a as ih =>
    cases bs with
    | nil => simp [compareParts, List.compareLex_cons_nil]
    | cons b bs => rw [compareParts, ih, List.compareLex_cons_cons]

instance : OrientedCmp Path.compare where
  eq_swap {a b} := by
    rw [Path.compare, Path.compare, Path.compareParts_eq, Path.compareParts_eq]
    exact OrientedCmp.eq_swap

instance : TransCmp Path.compare where
  isLE_trans {a b c} hab hbc := by
    rw [Path.compare, Path.compareParts_eq] at hab hbc ⊢
    exact TransCmp.isLE_trans hab hbc

/-! ## Locations -/

theorem Location.compare_eq_compareLex :
    Location.compare = compareLex (fun a b => a.path.compare b.path)
      (compareLex (compareOn (·.line)) (compareOn (·.column))) := rfl

instance : TransCmp fun (a b : Location) => a.path.compare b.path where
  eq_swap := OrientedCmp.eq_swap
  isLE_trans hab hbc := TransCmp.isLE_trans hab hbc

instance : TransCmp Location.compare := by
  rw [Location.compare_eq_compareLex]
  infer_instance

theorem Location.le_total (a b : Location) : a.le b = true ∨ b.le a = true := by
  have hswap : a.compare b = (b.compare a).swap := OrientedCmp.eq_swap
  unfold Location.le
  rw [hswap]
  cases b.compare a <;> simp

theorem Location.le_trans {a b c : Location} (hab : a.le b = true) (hbc : b.le c = true) :
    a.le c = true :=
  TransCmp.isLE_trans hab hbc

namespace SymbolGraph

theorem placeLe_total (a b : Option Location) : (placeLe a b || placeLe b a) = true := by
  cases a with
  | none => rfl
  | some a =>
    cases b with
    | none => rfl
    | some b => exact Bool.or_eq_true_iff.mpr (Location.le_total a b)

theorem placeLe_trans {a b c : Option Location} (hab : placeLe a b = true)
    (hbc : placeLe b c = true) : placeLe a c = true := by
  cases a with
  | none => rfl
  | some a =>
    cases b with
    | none => cases hab
    | some b =>
      cases c with
      | none => cases hbc
      | some c => exact Location.le_trans hab hbc

/-- The children of a node stand in the order of their places. -/
theorem children_sorted (g : SymbolGraph) (i : Nat) :
    (g.children i).Pairwise fun a b => placeLe (g.place a) (g.place b) = true :=
  List.pairwise_mergeSort
    (fun a b c => @placeLe_trans (g.place a) (g.place b) (g.place c))
    (fun a b => placeLe_total (g.place a) (g.place b)) _

end SymbolGraph

end SymbolAtlas
