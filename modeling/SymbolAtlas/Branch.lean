/-!
# Forests over an arena

An arena numbers its items 0, 1, 2, … and gives each at most one parent.  `Branch.table` turns the
parent links into trees: its entry `i` lists the branches directly below item `i`, in ascending
order.  Links to an item that does not come earlier are ignored, so the result is always a forest.

Main facts: `Branch.walk` visits a forest in pre-order and obeys the verdict on every item;
`Branch.preorder` lists what a walk that always descends visits (`Branch.walkAll_descend`), and what
the visitor keeps at every item the walk keeps (`Branch.walkAll_keeps`).
-/

set_option autoImplicit false

namespace SymbolAtlas

/-- An item of an arena with everything below it. -/
inductive Branch where
  | node (item : Nat) (children : List Branch)
deriving Repr, Inhabited

/-- What a visitor decides on an item. -/
inductive Verdict where
  /-- End the whole walk. -/
  | stop
  /-- Leave out what is below the item. -/
  | skip
  /-- Go on with what is below the item. -/
  | descend
deriving DecidableEq, Repr

namespace Branch

/-- The number of the item at the top. -/
def item : Branch → Nat
  | .node i _ => i

/-- The branches directly below the top. -/
def children : Branch → List Branch
  | .node _ cs => cs

/-- Hangs a finished item under its parent. -/
def attach (parents : Array (Option Nat)) (i : Nat) (table : Array (List Branch)) :
    Array (List Branch) :=
  match parents[i]?.join with
  | some p => if p < i then table.modify p (.node i (table.getD i []) :: ·) else table
  | none => table

/-- For every item the branches directly below it. -/
def table (parents : Array (Option Nat)) : Array (List Branch) :=
  (List.range parents.size).foldr (attach parents) (Array.replicate parents.size [])

/-- The whole branch at an item. -/
def rooted (parents : Array (Option Nat)) (i : Nat) : Branch := .node i ((table parents).getD i [])

mutual

/-- The items of a branch, each before those below it. -/
def preorder : Branch → List Nat
  | .node i cs => i :: preorderAll cs

/-- The items of several branches in turn. -/
def preorderAll : List Branch → List Nat
  | [] => []
  | b :: bs => b.preorder ++ preorderAll bs

end

variable {σ : Type}

mutual

/-- Walks a branch that hangs below the item `above`, handing every item and the item above it to
    the visitor; the flag tells whether the walk may go on. -/
def walk (visit : σ → Nat → Nat → σ × Verdict) (above : Nat) : Branch → σ → σ × Bool
  | .node i cs, s =>
    match visit s i above with
    | (s', .stop) => (s', false)
    | (s', .skip) => (s', true)
    | (s', .descend) => walkAll visit i cs s'

/-- Walks several branches in turn, as long as the walk may go on. -/
def walkAll (visit : σ → Nat → Nat → σ × Verdict) (above : Nat) : List Branch → σ → σ × Bool
  | [], s => (s, true)
  | b :: bs, s =>
    match b.walk visit above s with
    | (s', true) => walkAll visit above bs s'
    | (s', false) => (s', false)

end

/-! ### Facts -/

mutual

/-- A visitor that always descends sees the pre-order. -/
theorem walk_descend (f : σ → Nat → σ) (above : Nat) :
    ∀ (b : Branch) (s : σ),
      b.walk (fun s i _ => (f s i, .descend)) above s = (b.preorder.foldl f s, true)
  | .node i cs, s => by simp [walk, preorder, walkAll_descend f i cs]

theorem walkAll_descend (f : σ → Nat → σ) (above : Nat) :
    ∀ (bs : List Branch) (s : σ),
      walkAll (fun s i _ => (f s i, .descend)) above bs s = ((preorderAll bs).foldl f s, true)
  | [], s => rfl
  | b :: bs, s => by
    simp [walkAll, preorderAll, walk_descend f above b, walkAll_descend f above bs]

end

mutual

/-- What a visitor keeps holds after the walk of a branch. -/
theorem walk_keeps {P : σ → Prop} {visit : σ → Nat → Nat → σ × Verdict}
    (hv : ∀ s i above, P s → P (visit s i above).1) (above : Nat) :
    ∀ (b : Branch) (s : σ), P s → P (b.walk visit above s).1
  | .node i cs, s, hs => by
    have h := hv s i above hs
    unfold walk
    split
    · rename_i s' he
      rwa [he] at h
    · rename_i s' he
      rwa [he] at h
    · rename_i s' he
      rw [he] at h
      exact walkAll_keeps hv i cs s' h

theorem walkAll_keeps {P : σ → Prop} {visit : σ → Nat → Nat → σ × Verdict}
    (hv : ∀ s i above, P s → P (visit s i above).1) (above : Nat) :
    ∀ (bs : List Branch) (s : σ), P s → P (walkAll visit above bs s).1
  | [], s, hs => hs
  | b :: bs, s, hs => by
    have h := walk_keeps hv above b s hs
    unfold walkAll
    split
    · rename_i s' he
      rw [he] at h
      exact walkAll_keeps hv above bs s' h
    · rename_i s' he
      rwa [he] at h

end

end Branch

end SymbolAtlas
