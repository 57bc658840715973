import Mathlib.Data.List.Pairwise
import SymbolAtlas.Proofs.MacroUses

/-!
# Units of which nothing is in the graph

The first pass is recursive: it hands down the node that encloses a declaration, skips the inside of
uses, and looks up what it has put into the graph itself.  For a unit that is new to the graph it
does the same as going through the tree once, in pre-order, where each node is judged by itself.

* `CursorTree.Fresh` — no two nodes of the tree stand at one place, and none at a place of the
  graph.
* `newNode`, `leftOver` — what becomes of a node of the tree, given what is found at a place.
* `held` — what was at a place when the pass came to a node.
* `turn` — a node of the tree is dealt with by itself.

Principal results: `visit_eq_foldl` — visiting a node is one turn for everything at or below it, in
pre-order; `build_fresh` — all nodes that the first pass adds, with their owners, and all uses that
it leaves over.
-/

set_option autoImplicit false

namespace SymbolAtlas

variable {lu : LocatedUnit} {tree : CursorTree} {g : SymbolGraph}

/-! ## Around and beside -/

namespace CursorTree

/-- The nodes around a node, the nearest first. -/
def around (tree : CursorTree) (id : Nat) : List Nat := (Branch.lineage (links tree.nodes) id).tail

/-- The nodes beside a node, itself included. -/
def beside (tree : CursorTree) (id : Nat) : List Nat :=
  match (tree.node id).parent with
  | some p => tree.inside p
  | none => []

/-- The nodes that come before a node in pre-order. -/
def earlier (tree : CursorTree) (id : Nat) : List Nat := tree.preorder.takeWhile (· != id)

/-- One of the nodes around a node is a use. -/
def withinUse (lu : LocatedUnit) (tree : CursorTree) (id : Nat) : Bool :=
  (tree.around id).any fun a => lu.unit.category (tree.cursor a) = .reference

/-- The places of the nodes, in pre-order. -/
def places (lu : LocatedUnit) (tree : CursorTree) : List Location :=
  tree.preorder.filterMap fun id => lu.place (tree.cursor id)

/-- No two nodes of the tree stand at one place, and none at a place of the graph. -/
structure Fresh (lu : LocatedUnit) (tree : CursorTree) (g : SymbolGraph) : Prop where
  apart : (tree.places lu).Pairwise fun a b => (a == b) = false
  free : ∀ l ∈ tree.places lu, g.nodeAt l = none

instance (lu : LocatedUnit) (tree : CursorTree) (g : SymbolGraph) : Decidable (tree.Fresh lu g) :=
  decidable_of_iff ((tree.places lu).Pairwise (fun a b => (a == b) = false) ∧
    ∀ l ∈ tree.places lu, g.nodeAt l = none) ⟨fun h => ⟨h.1, h.2⟩, fun h => ⟨h.apart, h.free⟩⟩

theorem lineage_eq (tree : CursorTree) (id : Nat) :
    Branch.lineage (links tree.nodes) id = id :: tree.around id := by
  unfold around
  rw [Branch.lineage]
  rfl

theorem around_of_inside {i c : Nat} (hc : c ∈ tree.inside i) :
    tree.around c = i :: tree.around i := by
  rw [around, Branch.lineage_of_hangs (Branch.mem_directlyBelow.mp hc), List.tail_cons, lineage_eq]

theorem around_zero (tree : CursorTree) : tree.around 0 = [] := by
  rw [around, Branch.lineage_of_top fun p => Bool.eq_false_iff.mpr fun hp =>
    Nat.not_lt_zero p (Branch.hangs_lt hp)]
  rfl

theorem lt_of_mem_around {a i : Nat} (h : a ∈ tree.around i) : a < i := by
  rcases Branch.hangs_or_top (links tree.nodes) i with ⟨p, hp⟩ | htop
  · rw [around, Branch.lineage_of_hangs hp, List.tail_cons] at h
    exact Nat.lt_of_le_of_lt (Branch.le_of_mem_lineage h) (Branch.hangs_lt hp)
  · rw [around, Branch.lineage_of_top htop] at h
    cases h

theorem mem_preorder_of_around {a i : Nat} (hi : i ∈ tree.preorder) (ha : a ∈ tree.around i) :
    a ∈ tree.preorder := by
  have ha' : a ∈ Branch.lineage (links tree.nodes) i := List.mem_of_mem_tail ha
  rcases Branch.mem_lineage_total (mem_preorder.mp hi) ha' with h | h
  · exact mem_preorder.mpr h
  · obtain rfl : a = 0 := Nat.le_zero.mp (Branch.le_of_mem_lineage h)
    exact tree.zero_mem_preorder

theorem beside_of_inside {i c : Nat} (hc : c ∈ tree.inside i) : tree.beside c = tree.inside i := by
  rw [beside, parent_of_inside hc]

theorem preorder_branchAt (tree : CursorTree) (i : Nat) :
    (tree.branchAt i).preorder = i :: (tree.inside i).flatMap fun c => (tree.branchAt c).preorder :=
  Branch.preorder_rooted i

theorem mem_preorder_branchAt {i m : Nat} :
    m ∈ (tree.branchAt i).preorder ↔ i ∈ Branch.lineage (links tree.nodes) m :=
  Branch.mem_preorder_rooted i m

theorem mem_preorder_of_below {i m : Nat} (hi : i ∈ tree.preorder)
    (hm : i ∈ Branch.lineage (links tree.nodes) m) : m ∈ tree.preorder :=
  mem_preorder.mpr (Branch.mem_lineage_trans (mem_preorder.mp hi) hm)

/-- What is below a use is within a use. -/
theorem withinUse_of_below {i c m : Nat} (hu : lu.unit.category (tree.cursor i) = .reference)
    (hc : c ∈ tree.inside i) (hm : c ∈ Branch.lineage (links tree.nodes) m) :
    tree.withinUse lu m = true := by
  have hi : i ∈ Branch.lineage (links tree.nodes) m :=
    Branch.mem_lineage_trans (mem_lineage_of_inside hc (Branch.self_mem_lineage i)) hm
  have hlt := Branch.hangs_lt (Branch.mem_directlyBelow.mp hc)
  have hle := Branch.le_of_mem_lineage hm
  rw [lineage_eq, List.mem_cons] at hi
  exact List.any_eq_true.mpr ⟨i, hi.resolve_left (by omega), decide_eq_true hu⟩

theorem withinUse_of_inside {i c : Nat} (hi : tree.withinUse lu i = false)
    (hu : lu.unit.category (tree.cursor i) ≠ .reference) (hc : c ∈ tree.inside i) :
    tree.withinUse lu c = false := by
  unfold withinUse at hi ⊢
  rw [around_of_inside hc, List.any_cons, hi, Bool.or_false]
  exact decide_eq_false hu

/-- The nodes of a tree at one place are the same. -/
theorem Fresh.eq_of_places (hfresh : tree.Fresh lu g) {i j : Nat} (hi : i ∈ tree.preorder)
    (hj : j ∈ tree.preorder) {a b : Location} (ha : lu.place (tree.cursor i) = some a)
    (hb : lu.place (tree.cursor j) = some b) (hab : (a == b) = true) : i = j := by
  have hpairs := List.pairwise_filterMap.mp hfresh.apart
  refine Classical.byContradiction fun hne => ?_
  have : Std.Symm fun x y : Nat => ∀ a, lu.place (tree.cursor x) = some a → ∀ b,
      lu.place (tree.cursor y) = some b → (a == b) = false :=
    ⟨fun _ _ h a ha b hb => by rw [BEq.comm]; exact h b hb a ha⟩
  have hfalse := hpairs.forall hi hj hne a ha b hb
  rw [hab] at hfalse
  cases hfalse

theorem Fresh.apart_of_ne (hfresh : tree.Fresh lu g) {i j : Nat} (hi : i ∈ tree.preorder)
    (hj : j ∈ tree.preorder) (hne : i ≠ j) {a b : Location} (ha : lu.place (tree.cursor i) = some a)
    (hb : lu.place (tree.cursor j) = some b) : (a == b) = false :=
  Bool.eq_false_iff.mpr fun hab => hne (hfresh.eq_of_places hi hj ha hb hab)

theorem Fresh.nodeAt_eq_none (hfresh : tree.Fresh lu g) {i : Nat} (hi : i ∈ tree.preorder)
    {l : Location} (hl : lu.place (tree.cursor i) = some l) : g.nodeAt l = none :=
  hfresh.free l (List.mem_filterMap.mpr ⟨i, hi, hl⟩)

end CursorTree

/-- A node that is appended at a free place is found there. -/
theorem SymbolGraph.nodeAt_append_of_free {p : Nat} {s : Symbol} {l : Location}
    (hs : s.location = some l) (hfree : g.nodeAt l = none) :
    (g.append p s).nodeAt l = some g.size := by
  unfold nodeAt append at *
  rw [Array.findIdx?_push, hfree]
  exact if_pos (by rw [hs]; exact BEq.refl l)

namespace Declarations

/-! ## What becomes of a node -/

/-- The node that owns a declaration by meaning: the one found where its semantic parent stands, if
    that is not what is around it in the tree. -/
def ownerByMeaning (lu : LocatedUnit) (tree : CursorTree) (find : Location → Option Nat)
    (id : Nat) : Option Nat := do
  let meant ← lu.unit.semanticParent (tree.cursor id)
  let outer ← (tree.node id).parent
  if lu.alike meant (tree.cursor outer) then none else (lu.place meant).bind find

/-- The node of what is around a node of the tree: the nearest that has one, else the root. -/
def ownerAround (lu : LocatedUnit) (tree : CursorTree) (find : Location → Option Nat) (id : Nat) :
    Nat :=
  ((tree.around id).findSome? fun a => (lu.place (tree.cursor a)).bind find).getD SymbolGraph.root

/-- The node of the first macro definition of its name beside a macro expansion. -/
def macroFor (lu : LocatedUnit) (tree : CursorTree) (find : Location → Option Nat) (id : Nat) :
    Option Nat :=
  (tree.beside id).findSome? fun m =>
    if lu.unit.kind (tree.cursor m) = .macroDefinition ∧
        lu.unit.spelling (tree.cursor m) = lu.unit.spelling (tree.cursor id) then
      (lu.place (tree.cursor m)).bind find
    else none

/-- The owner and the symbol of the node that is made for a node of the tree: for a declaration with
    a place of its own and no use around it, and for a macro expansion that finds its macro. -/
def newNode (lu : LocatedUnit) (tree : CursorTree) (find : Location → Option Nat) (id : Nat) :
    Option (Nat × Symbol) := do
  let l ← lu.place (tree.cursor id)
  if tree.withinUse lu id then none
  else if (lu.unit.category (tree.cursor id)).declares ∧ (tree.node id).parent ≠ none then
    some ((ownerByMeaning lu tree find id).getD (ownerAround lu tree find id),
      lu.symbol (lu.unit.category (tree.cursor id)) (tree.cursor id) l)
  else if lu.unit.kind (tree.cursor id) = .macroExpansion then
    (macroFor lu tree find id).map fun definition =>
      (definition, lu.symbol .reference (tree.cursor id) l)
  else none

/-- What is left over for the second pass: a use with a place and no use around it that got no
    node. -/
def leftOver (lu : LocatedUnit) (tree : CursorTree) (find : Location → Option Nat) (id : Nat) :
    Option (Location × Nat) := do
  let l ← lu.place (tree.cursor id)
  if tree.withinUse lu id = false ∧ lu.unit.category (tree.cursor id) = .reference ∧
      newNode lu tree find id = none then
    some (l, id)
  else none

/-- What was at a place when the pass came to a node: what is there in `h`, if the place was held in
    `g` from the start or is that of a node earlier in pre-order. -/
def held (lu : LocatedUnit) (tree : CursorTree) (g h : SymbolGraph) (id : Nat) (l : Location) :
    Option Nat :=
  if g.occupied l || (tree.earlier id).any fun m => (lu.place (tree.cursor m)).any (· == l) then
    h.nodeAt l
  else none

theorem newNode_of_withinUse {find : Location → Option Nat} {id : Nat}
    (h : tree.withinUse lu id = true) : newNode lu tree find id = none := by
  unfold newNode
  cases lu.place (tree.cursor id) with
  | none => rfl
  | some l => exact if_pos h

theorem newNode_of_place {find : Location → Option Nat} {id : Nat} {l : Location}
    (hl : lu.place (tree.cursor id) = some l) (h : tree.withinUse lu id = false) :
    newNode lu tree find id =
      if (lu.unit.category (tree.cursor id)).declares ∧ (tree.node id).parent ≠ none then
        some ((ownerByMeaning lu tree find id).getD (ownerAround lu tree find id),
          lu.symbol (lu.unit.category (tree.cursor id)) (tree.cursor id) l)
      else if lu.unit.kind (tree.cursor id) = .macroExpansion then
        (macroFor lu tree find id).map fun definition =>
          (definition, lu.symbol .reference (tree.cursor id) l)
      else none := by
  unfold newNode
  rw [hl]
  exact if_neg (by rw [h]; exact Bool.false_ne_true)

theorem leftOver_of_withinUse {find : Location → Option Nat} {id : Nat}
    (h : tree.withinUse lu id = true) : leftOver lu tree find id = none := by
  unfold leftOver
  cases lu.place (tree.cursor id) with
  | none => rfl
  | some l => exact if_neg fun hnot => by rw [h] at hnot; cases hnot.1

theorem leftOver_of_place {find : Location → Option Nat} {id : Nat} {l : Location}
    (hl : lu.place (tree.cursor id) = some l) (h : tree.withinUse lu id = false) :
    leftOver lu tree find id =
      if lu.unit.category (tree.cursor id) = .reference ∧ newNode lu tree find id = none then
        some (l, id)
      else none := by
  unfold leftOver
  rw [hl]
  simp only [h, true_and]
  rfl

/-- Nothing is left over of what is no use. -/
theorem leftOver_of_category {find : Location → Option Nat} {id : Nat}
    (h : lu.unit.category (tree.cursor id) ≠ .reference) : leftOver lu tree find id = none := by
  unfold leftOver
  cases lu.place (tree.cursor id) with
  | none => rfl
  | some l => exact if_neg fun hnot => h hnot.2.1

/-- A use gets a node only if it is a macro expansion that finds its macro. -/
theorem newNode_of_use {find : Location → Option Nat} {id : Nat} {l : Location}
    (hl : lu.place (tree.cursor id) = some l) (h : tree.withinUse lu id = false)
    (hc : lu.unit.category (tree.cursor id) = .reference) :
    newNode lu tree find id =
      if lu.unit.kind (tree.cursor id) = .macroExpansion then
        (macroFor lu tree find id).map fun definition =>
          (definition, lu.symbol .reference (tree.cursor id) l)
      else none := by
  rw [newNode_of_place hl h]
  exact if_neg fun hd => Category.ne_reference hd.1 hc

theorem newNode_of_macro {find : Location → Option Nat} {id definition : Nat} {l : Location}
    (hl : lu.place (tree.cursor id) = some l) (h : tree.withinUse lu id = false)
    (hk : lu.unit.kind (tree.cursor id) = .macroExpansion)
    (hm : macroFor lu tree find id = some definition) :
    newNode lu tree find id = some (definition, lu.symbol .reference (tree.cursor id) l) := by
  rw [newNode_of_use hl h (category_of_macroExpansion hk), if_pos hk, hm]
  rfl

theorem newNode_of_no_macro {find : Location → Option Nat} {id : Nat} {l : Location}
    (hl : lu.place (tree.cursor id) = some l) (h : tree.withinUse lu id = false)
    (hc : lu.unit.category (tree.cursor id) = .reference)
    (hm : lu.unit.kind (tree.cursor id) = .macroExpansion → macroFor lu tree find id = none) :
    newNode lu tree find id = none := by
  rw [newNode_of_use hl h hc]
  split
  · rename_i hk
    exact Option.map_eq_none_iff.mpr (hm hk)
  · rfl

/-- Nothing becomes of a node that the first pass goes through. -/
theorem newNode_of_passesThrough {find : Location → Option Nat} {id : Nat}
    (h : tree.PassesThrough lu id) (hfree : tree.withinUse lu id = false) :
    newNode lu tree find id = none := by
  cases hl : lu.place (tree.cursor id) with
  | none =>
    unfold newNode
    rw [hl]
    rfl
  | some l =>
    rw [newNode_of_place hl hfree, if_neg, if_neg]
    · exact fun hk => h.category_ne (category_of_macroExpansion hk)
    · rintro ⟨hd, hp⟩
      exact CursorTree.not_passesThrough hd hp (by rw [hl]; exact Option.some_ne_none l) h

/-- A new node stands where the node of the tree does. -/
theorem location_of_newNode {find : Location → Option Nat} {id p : Nat} {s : Symbol}
    (h : newNode lu tree find id = some (p, s)) : s.location = lu.place (tree.cursor id) := by
  unfold newNode at h
  obtain ⟨l, hl, h⟩ := Option.bind_eq_some_iff.mp h
  rw [hl]
  split at h
  · cases h
  · split at h
    · cases h
      rfl
    · split at h
      · obtain ⟨_, _, heq⟩ := Option.map_eq_some_iff.mp h
        cases heq
        rfl
      · cases h

theorem place_of_leftOver {find : Location → Option Nat} {id : Nat} {e : Location × Nat}
    (h : leftOver lu tree find id = some e) : lu.place (tree.cursor id) = some e.1 := by
  unfold leftOver at h
  obtain ⟨l, hl, h⟩ := Option.bind_eq_some_iff.mp h
  split at h
  · cases h
    exact hl
  · cases h

/-! ## One node at a time -/

/-- A graph and the uses that are left over. -/
abbrev Outcome := SymbolGraph × List (Location × Nat)

/-- A node of the tree is dealt with by itself. -/
def turn (lu : LocatedUnit) (tree : CursorTree) (s : Outcome) (id : Nat) : Outcome :=
  (match newNode lu tree s.1.nodeAt id with
    | some (p, n) => s.1.append p n
    | none => s.1,
    s.2 ++ (leftOver lu tree s.1.nodeAt id).toList)

theorem turn_of_withinUse {s : Outcome} {id : Nat} (h : tree.withinUse lu id = true) :
    turn lu tree s id = s := by
  rw [turn, newNode_of_withinUse h, leftOver_of_withinUse h, Option.toList_none, List.append_nil]

theorem foldl_turn_of_withinUse {ids : List Nat} (h : ∀ id ∈ ids, tree.withinUse lu id = true)
    (s : Outcome) : ids.foldl (turn lu tree) s = s :=
  List.foldlRecOn (motive := (· = s)) _ _ rfl fun t ht id hid => by
    rw [ht, turn_of_withinUse (h id hid)]

theorem turn_extends (s : Outcome) (id : Nat) : s.1.Extends (turn lu tree s id).1 := by
  unfold turn
  split
  · exact s.1.extends_append _ _
  · exact .refl _

theorem foldl_turn_extends (lu : LocatedUnit) (tree : CursorTree) (ids : List Nat)
    (s : Outcome) :
    s.1.Extends (ids.foldl (turn lu tree) s).1 :=
  List.foldlRecOn (motive := fun t : Outcome => s.1.Extends t.1) _ _ (.refl _)
    fun t ht id _ => ht.trans (turn_extends t id)

/-- Places are taken and uses left over for the nodes that had their turn. -/
structure TakesOnly (lu : LocatedUnit) (tree : CursorTree) (ids : List Nat) (s t : Outcome) :
    Prop where
  occupied : ∀ l, t.1.occupied l = true → s.1.occupied l = true ∨
    ∃ m ∈ ids, ∃ a, lu.place (tree.cursor m) = some a ∧ (a == l) = true
  pending : ∀ e ∈ t.2, e ∈ s.2 ∨ ∃ m ∈ ids, lu.place (tree.cursor m) = some e.1

theorem turn_takesOnly (lu : LocatedUnit) (tree : CursorTree) (s : Outcome) (id : Nat)
    {ids : List Nat} (hid : id ∈ ids) :
    TakesOnly lu tree ids s (turn lu tree s id) where
  occupied l ho := by
    unfold turn at ho
    split at ho
    · rename_i p n hnew
      rcases SymbolGraph.occupied_append_iff.mp ho with ho | ⟨a, ha, hal⟩
      · exact .inl ho
      · rw [location_of_newNode hnew] at ha
        exact .inr ⟨id, hid, a, ha, hal⟩
    · exact .inl ho
  pending e he := by
    rcases List.mem_append.mp he with he | he
    · exact .inl he
    · exact .inr ⟨id, hid, place_of_leftOver (Option.mem_toList.mp he)⟩

theorem foldl_turn_takesOnly (lu : LocatedUnit) (tree : CursorTree) (ids : List Nat)
    (s : Outcome) :
    TakesOnly lu tree ids s (ids.foldl (turn lu tree) s) := by
  refine List.foldlRecOn (motive := TakesOnly lu tree ids s) _ _ ⟨fun _ => .inl, fun _ => .inl⟩
    fun t ht id hid => ?_
  have hstep := turn_takesOnly lu tree t id hid
  exact ⟨fun l ho => (hstep.occupied l ho).elim (ht.occupied l) .inr,
    fun e he => (hstep.pending e he).elim (ht.pending e) .inr⟩

/-- What is found at a place stays the same where no node that has its turn stands there. -/
theorem nodeAt_foldl_turn {ids : List Nat} {s : Outcome} {l : Location}
    (h : ∀ m ∈ ids, ∀ a, lu.place (tree.cursor m) = some a → (a == l) = false) :
    (ids.foldl (turn lu tree) s).1.nodeAt l = s.1.nodeAt l := by
  cases hs : s.1.nodeAt l with
  | some d => exact (foldl_turn_extends lu tree ids s).nodeAt hs
  | none =>
    refine Option.not_isSome_iff_eq_none.mp fun ho => ?_
    rcases (foldl_turn_takesOnly lu tree ids s).occupied l ho with hold | ⟨m, hm, a, ha, hal⟩
    · exact SymbolGraph.not_occupied hs hold
    · rw [h m hm a ha] at hal
      cases hal

theorem ownerAround_congr {find find' : Location → Option Nat} {id : Nat}
    (h : ∀ a ∈ tree.around id, ∀ l, lu.place (tree.cursor a) = some l → find l = find' l) :
    ownerAround lu tree find id = ownerAround lu tree find' id := by
  unfold ownerAround
  rw [← List.head?_filterMap, ← List.head?_filterMap]
  refine congrArg (fun found : List Nat => found.head?.getD SymbolGraph.root)
    (List.filterMap_congr fun a ha => ?_)
  cases hl : lu.place (tree.cursor a) with
  | none => rfl
  | some l => exact h a ha l hl

/-- What is around a node is the node that it hangs below, and what is around that. -/
theorem ownerAround_of_inside {find : Location → Option Nat} {i c : Nat} (hc : c ∈ tree.inside i) :
    ownerAround lu tree find c =
      ((lu.place (tree.cursor i)).bind find).getD (ownerAround lu tree find i) := by
  unfold ownerAround
  rw [CursorTree.around_of_inside hc, List.findSome?_cons]
  cases (lu.place (tree.cursor i)).bind find with
  | none => rfl
  | some d => rfl

/-! ## Visiting a node -/

/-- What is at or below a node is still to come: its places are free, and no use is left over
    there. -/
def Ahead (lu : LocatedUnit) (tree : CursorTree) (s : Outcome) (i : Nat) : Prop :=
  ∀ m ∈ (tree.branchAt i).preorder, ∀ l, lu.place (tree.cursor m) = some l →
    s.1.nodeAt l = none ∧ ∀ e ∈ s.2, (e.1 == l) = false

/-- What a visit leaves, the counters left out. -/
def outcome (s : Declarations SymbolGraph) : Outcome := (s.graph, s.pending)

/-- A step does to the graph and to what is left over what a turn does.  It goes on inside unless
    the node is a use, below the node that it has found or made. -/
theorem Enters.turn_eq {siblings : List Nat} {owner id : Nat} {s : Declarations SymbolGraph}
    {done : Declarations SymbolGraph × Option Nat} (h : Enters lu tree siblings owner s id done)
    (hsiblings : siblings = tree.beside id) (hfree : tree.withinUse lu id = false)
    (howner : owner = ownerAround lu tree s.graph.nodeAt id)
    (hahead : Ahead lu tree (outcome s) id) :
    outcome done.1 = turn lu tree (outcome s) id ∧
      match done.2 with
      | none => lu.unit.category (tree.cursor id) = .reference
      | some owner' => lu.unit.category (tree.cursor id) ≠ .reference ∧
          owner' = ((lu.place (tree.cursor id)).bind done.1.graph.nodeAt).getD owner := by
  have hself : id ∈ (tree.branchAt id).preorder :=
    CursorTree.mem_preorder_branchAt.mpr (Branch.self_mem_lineage id)
  have hnone : ∀ l, lu.place (tree.cursor id) = some l → s.graph.nodeAt l = none :=
    fun l hl => (hahead id hself l hl).1
  cases h with
  | passes hp =>
    refine ⟨?_, hp.category_ne, ?_⟩
    · unfold turn
      rw [newNode_of_passesThrough hp hfree, leftOver_of_category hp.category_ne]
      exact Prod.ext rfl (List.append_nil _).symm
    · cases hl : lu.place (tree.cursor id) with
      | none => rfl
      | some l =>
        rw [Option.bind_some, hnone l hl]
        rfl
  | skips hc ho =>
    have hplace : lu.place (tree.cursor id) = none := Option.eq_none_iff_forall_ne_some.mpr
      fun l hl => SymbolGraph.not_occupied (hnone l hl) (ho l hl)
    refine ⟨?_, hc⟩
    unfold turn newNode leftOver
    rw [hplace]
    exact Prod.ext rfl (List.append_nil _).symm
  | @keeps l hc hl hf hm =>
    refine ⟨?_, hc⟩
    rw [hsiblings] at hm
    have hnew : newNode lu tree s.graph.nodeAt id = none := newNode_of_no_macro hl hfree hc hm
    have hkept : ¬s.pending.any (·.1 == l) = true := Bool.eq_false_iff.mp
      (List.any_eq_false.mpr fun e he => Bool.eq_false_iff.mp ((hahead id hself l hl).2 e he))
    rw [keep, if_neg hkept]
    unfold turn outcome
    rw [hnew, leftOver_of_place hl hfree, if_pos ⟨hc, hnew⟩]
    rfl
  | @expands l definition hk hl hf hm =>
    refine ⟨?_, category_of_macroExpansion hk⟩
    rw [hsiblings] at hm
    have hnew : newNode lu tree s.graph.nodeAt id =
        some (definition, lu.symbol .reference (tree.cursor id) l) :=
      newNode_of_macro hl hfree hk hm
    unfold turn outcome
    rw [hnew, leftOver_of_place hl hfree, if_neg fun hnot => by rw [hnew] at hnot; cases hnot.2]
    exact Prod.ext rfl (List.append_nil _).symm
  | @counts l _ _ hl ho => exact absurd ho (SymbolGraph.not_occupied (hnone l hl))
  | @adds l hp hd hl hf reparented =>
    have hne := Category.ne_reference hd
    refine ⟨?_, hne, ?_⟩
    · have hinner : (tree.node id).parent ≠ none := fun hparent => hp (.inr ⟨hd, .inl hparent⟩)
      unfold turn outcome
      rw [newNode_of_place hl hfree, if_pos ⟨hd, hinner⟩, leftOver_of_category hne, ← howner]
      exact Prod.ext rfl (List.append_nil _).symm
    · rw [hl, Option.bind_some, SymbolGraph.nodeAt_append_of_free rfl hf]
      rfl

/-- Turns of other nodes leave a node still to come. -/
theorem Ahead.foldl_turn (hfresh : tree.Fresh lu g) {ids : List Nat} {s : Outcome} {c : Nat}
    (hids : ∀ m ∈ ids, m ∈ tree.preorder) (hc : c ∈ tree.preorder)
    (hnot : ∀ m ∈ ids, m ∉ (tree.branchAt c).preorder) (h : Ahead lu tree s c) :
    Ahead lu tree (ids.foldl (turn lu tree) s) c := by
  intro m hm l hl
  obtain ⟨hfree, hpending⟩ := h m hm l hl
  have hm' := CursorTree.mem_preorder_of_below hc (CursorTree.mem_preorder_branchAt.mp hm)
  have hapart : ∀ b ∈ ids, ∀ a, lu.place (tree.cursor b) = some a → (a == l) = false :=
    fun b hb a ha => hfresh.apart_of_ne (hids b hb) hm' (fun heq => hnot b hb (heq ▸ hm)) ha hl
  refine ⟨(nodeAt_foldl_turn hapart).trans hfree, fun e he => ?_⟩
  rcases (foldl_turn_takesOnly lu tree ids s).pending e he with he | ⟨b, hb, hplace⟩
  · exact hpending e he
  · exact hapart b hb e.1 hplace

/-- Turns of other nodes do not change what is around a node. -/
theorem ownerAround_foldl_turn (hfresh : tree.Fresh lu g) {ids : List Nat} {s : Outcome} {id : Nat}
    (hids : ∀ m ∈ ids, m ∈ tree.preorder) (hid : id ∈ tree.preorder)
    (hnot : ∀ m ∈ ids, m ∉ tree.around id) :
    ownerAround lu tree (ids.foldl (turn lu tree) s).1.nodeAt id =
      ownerAround lu tree s.1.nodeAt id := by
  refine ownerAround_congr fun a ha l hl => nodeAt_foldl_turn fun m hm b hb => ?_
  exact hfresh.apart_of_ne (hids m hm) (CursorTree.mem_preorder_of_around hid ha)
    (fun heq => hnot m hm (heq ▸ ha)) hb hl

/-- Visiting nodes beside each other is one turn for everything at or below them. -/
theorem foldl_visit_eq (hfresh : tree.Fresh lu g) {i owner : Nat} (hi : i ∈ tree.preorder)
    (hinside : ∀ c ∈ tree.inside i, ∀ t : Declarations SymbolGraph,
      owner = ownerAround lu tree t.graph.nodeAt c → Ahead lu tree (outcome t) c →
        outcome (visit lu tree (tree.inside i) owner (tree.branchAt c) t) =
          (tree.branchAt c).preorder.foldl (turn lu tree) (outcome t)) :
    ∀ (cs : List Nat), cs.Nodup → (∀ c ∈ cs, c ∈ tree.inside i) → ∀ t : Declarations SymbolGraph,
      (∀ c ∈ cs, owner = ownerAround lu tree t.graph.nodeAt c ∧ Ahead lu tree (outcome t) c) →
        outcome (cs.foldl (fun s c => visit lu tree (tree.inside i) owner (tree.branchAt c) s) t) =
          (cs.flatMap fun c => (tree.branchAt c).preorder).foldl (turn lu tree) (outcome t)
  | [], _, _, t, _ => rfl
  | c :: cs, hnodup, hcs, t, ht => by
    have hc := hcs c List.mem_cons_self
    have hvisit := hinside c hc t (ht c List.mem_cons_self).1 (ht c List.mem_cons_self).2
    have hbelow : ∀ m ∈ (tree.branchAt c).preorder, m ∈ tree.preorder := fun m hm =>
      CursorTree.mem_preorder_of_below (CursorTree.mem_preorder_of_inside hi hc)
        (CursorTree.mem_preorder_branchAt.mp hm)
    rw [List.foldl_cons, List.flatMap_cons, List.foldl_append, ← hvisit]
    refine foldl_visit_eq hfresh hi hinside cs hnodup.of_cons
      (fun d hd => hcs d (List.mem_cons_of_mem c hd)) _ fun d hd => ?_
    have hd' := hcs d (List.mem_cons_of_mem c hd)
    have hdp := CursorTree.mem_preorder_of_inside hi hd'
    obtain ⟨howner, hahead⟩ := ht d (List.mem_cons_of_mem c hd)
    constructor
    · -- what is around `d` is not below `c`, which comes after it
      have hsame := ownerAround_foldl_turn hfresh (s := outcome t) hbelow hdp fun m hm ha => by
        rw [CursorTree.around_of_inside hd', ← CursorTree.lineage_eq] at ha
        have hle := Branch.le_of_mem_lineage
          (Branch.mem_lineage_trans (CursorTree.mem_preorder_branchAt.mp hm) ha)
        have hlt := Branch.hangs_lt (Branch.mem_directlyBelow.mp hc)
        omega
      rw [← hvisit] at hsame
      exact howner.trans hsame.symm
    · rw [hvisit]
      refine hahead.foldl_turn hfresh hbelow hdp fun m hm hm' => ?_
      have heq := Branch.siblings_disjoint (Branch.mem_directlyBelow.mp hc)
        (Branch.mem_directlyBelow.mp hd') (CursorTree.mem_preorder_branchAt.mp hm)
        (CursorTree.mem_preorder_branchAt.mp hm')
      exact (List.nodup_cons.mp hnodup).1 (heq ▸ hd)

/-- **Visiting a node is one turn for everything at or below it**, in pre-order. -/
theorem visit_eq_foldl (hfresh : tree.Fresh lu g) (i : Nat) :
    ∀ (siblings : List Nat) (owner : Nat) (s : Declarations SymbolGraph), i ∈ tree.preorder →
      siblings = tree.beside i → tree.withinUse lu i = false →
      owner = ownerAround lu tree s.graph.nodeAt i → Ahead lu tree (outcome s) i →
        outcome (visit lu tree siblings owner (tree.branchAt i) s) =
          (tree.branchAt i).preorder.foldl (turn lu tree) (outcome s) := by
  induction i using tree.climb with
  | step i ih =>
    intro siblings owner s hi hsiblings hfree howner hahead
    have hstep := (enters lu tree siblings owner s i).turn_eq hsiblings hfree howner hahead
    rw [visit_branchAt, CursorTree.preorder_branchAt, List.foldl_cons]
    split
    · rename_i s' he
      rw [he] at hstep
      obtain ⟨hturn, hu⟩ := hstep
      -- everything below a use is within it
      rw [← hturn, foldl_turn_of_withinUse fun m hm => ?_]
      obtain ⟨c, hc, hm⟩ := List.mem_flatMap.mp hm
      exact CursorTree.withinUse_of_below hu hc (CursorTree.mem_preorder_branchAt.mp hm)
    · rename_i s' owner' he
      rw [he] at hstep
      obtain ⟨hturn, hu, howner'⟩ := hstep
      have hone : outcome s' = [i].foldl (turn lu tree) (outcome s) := hturn
      have hids : ∀ m ∈ [i], m ∈ tree.preorder := fun m hm => List.mem_singleton.mp hm ▸ hi
      rw [← hturn]
      refine foldl_visit_eq hfresh hi (fun c hc t ht hahead' => ?_) (tree.inside i)
        ((Branch.directlyBelow_pairwise _ i).imp Nat.ne_of_lt) (fun _ hc => hc) s' fun c hc => ?_
      · exact ih c hc _ owner' t (CursorTree.mem_preorder_of_inside hi hc)
          (CursorTree.beside_of_inside hc).symm (CursorTree.withinUse_of_inside hfree hu hc) ht
          hahead'
      · have hlt := Branch.hangs_lt (Branch.mem_directlyBelow.mp hc)
        constructor
        · have hsame := ownerAround_foldl_turn hfresh (s := outcome s) hids hi fun m hm ha => by
            have hself := CursorTree.lt_of_mem_around ha
            rw [List.mem_singleton.mp hm] at hself
            exact Nat.lt_irrefl i hself
          rw [← hone] at hsame
          rw [ownerAround_of_inside hc, howner', howner]
          exact congrArg _ hsame.symm
        · rw [hone]
          refine Ahead.foldl_turn hfresh hids (CursorTree.mem_preorder_of_inside hi hc)
            (fun m hm hm' => ?_) fun m hm => hahead m ?_
          · rw [List.mem_singleton.mp hm] at hm'
            have hle := Branch.le_of_mem_lineage (CursorTree.mem_preorder_branchAt.mp hm')
            omega
          · rw [CursorTree.preorder_branchAt]
            exact List.mem_cons_of_mem i (List.mem_flatMap.mpr ⟨c, hc, hm⟩)

/-! ## The whole pass -/

/-- The first pass over a new unit is one turn for every node of its tree. -/
theorem build_eq_foldl (htree : CursorTree.reconstruct lu = .ok tree) (hfresh : tree.Fresh lu g) :
    outcome (build lu tree g) = tree.preorder.foldl (turn lu tree) (g, []) := by
  have hbeside : [] = tree.beside 0 := by
    unfold CursorTree.beside CursorTree.node
    rw [Array.getD_eq_getD_getElem?, CursorTree.node_zero htree]
    rfl
  have hfree : tree.withinUse lu 0 = false := by
    rw [CursorTree.withinUse, CursorTree.around_zero]
    rfl
  have howner : SymbolGraph.root = ownerAround lu tree g.nodeAt 0 := by
    rw [ownerAround, CursorTree.around_zero]
    rfl
  refine visit_eq_foldl hfresh 0 [] SymbolGraph.root { graph := g } tree.zero_mem_preorder hbeside
    hfree howner fun m hm l hl => ⟨hfresh.nodeAt_eq_none hm hl, fun e he => ?_⟩
  cases he

theorem earlier_eq {before after : List Nat} {id : Nat}
    (h : tree.preorder = before ++ id :: after) : tree.earlier id = before := by
  have hnodup : tree.preorder.Nodup := Branch.nodup_preorder_rooted _ 0
  rw [h] at hnodup
  have hnot : ∀ m ∈ before, (m != id) = true := fun m hm =>
    bne_iff_ne.mpr fun heq => (List.nodup_append.mp hnodup).2.2 m hm id List.mem_cons_self heq
  rw [CursorTree.earlier, h, List.takeWhile_append_of_pos hnot, List.takeWhile_cons_of_neg,
    List.append_nil]
  simp

/-- What was held when the pass came to a node is what the nodes in front of it have left. -/
theorem held_eq (hfresh : tree.Fresh lu g) {before after : List Nat} {id : Nat}
    (hsplit : tree.preorder = before ++ id :: after) :
    held lu tree g (tree.preorder.foldl (turn lu tree) (g, [])).1 id =
      (before.foldl (turn lu tree) (g, [])).1.nodeAt := by
  funext l
  have hbefore := foldl_turn_takesOnly lu tree before (g, [])
  have hrest := foldl_turn_takesOnly lu tree (id :: after)
    (before.foldl (turn lu tree) (g, []))
  have hext := foldl_turn_extends lu tree (id :: after)
    (before.foldl (turn lu tree) (g, []))
  rw [← List.foldl_append, ← hsplit] at hrest hext
  have hnodup : tree.preorder.Nodup := Branch.nodup_preorder_rooted _ 0
  unfold held
  rw [earlier_eq hsplit]
  cases hs : (before.foldl (turn lu tree) (g, [])).1.nodeAt l with
  | some d =>
    rw [if_pos, hext.nodeAt hs]
    rcases hbefore.occupied l (Option.isSome_iff_exists.mpr ⟨d, hs⟩) with ho | ⟨m, hm, a, ha, hal⟩
    · exact Bool.or_eq_true_iff.mpr (.inl ho)
    · refine Bool.or_eq_true_iff.mpr (.inr (List.any_eq_true.mpr ⟨m, hm, ?_⟩))
      rw [ha]
      exact hal
  | none =>
    split
    · rename_i hheld
      refine Option.not_isSome_iff_eq_none.mp fun ho => ?_
      -- the place was taken by a node that is still to come, and is that of an earlier one
      obtain ⟨m, hm, a, ha, hal⟩ :=
        (hrest.occupied l ho).resolve_left (SymbolGraph.not_occupied hs)
      rcases Bool.or_eq_true_iff.mp hheld with hg | hany
      · exact SymbolGraph.not_occupied hs ((foldl_turn_extends lu tree before (g, [])).occupied hg)
      · obtain ⟨m', hm', htest⟩ := List.any_eq_true.mp hany
        obtain ⟨b, hb, hbl⟩ := (Option.any_eq_true _ _).mp htest
        rw [hsplit] at hnodup
        have hin : ∀ x, x ∈ before ∨ x ∈ id :: after → x ∈ tree.preorder := fun x hx => by
          rw [hsplit]
          exact List.mem_append.mpr hx
        have heq := hfresh.eq_of_places (hin m' (.inl hm')) (hin m (.inr hm)) hb ha
          (BEq.trans hbl (BEq.symm hal))
        exact (List.nodup_append.mp hnodup).2.2 m' hm' m hm heq
    · rfl

/-- A node of a graph, from its owner and its symbol. -/
def owned (e : Nat × Symbol) : GraphNode := { e.2 with parent := some e.1 }

theorem nodes_turn (s : Outcome) (id : Nat) :
    (turn lu tree s id).1.nodes.toList =
      s.1.nodes.toList ++ ((newNode lu tree s.1.nodeAt id).map owned).toList := by
  unfold turn
  split
  · rename_i p n hnew
    rw [hnew]
    exact Array.toList_push
  · rename_i hnew
    rw [hnew]
    exact (List.append_nil _).symm

theorem filterMap_concat {α β : Type} (f : α → Option β) (as : List α) (a : α) :
    (as ++ [a]).filterMap f = as.filterMap f ++ (f a).toList := by
  rw [List.filterMap_append, List.filterMap_cons]
  cases f a with
  | none => rfl
  | some b => rfl

/-- The nodes that had their turn were judged by what was held when the pass came to them. -/
structure Turned (lu : LocatedUnit) (tree : CursorTree) (g h : SymbolGraph) (before : List Nat)
    (s : Outcome) : Prop where
  eq : s = before.foldl (turn lu tree) (g, [])
  nodes : s.1.nodes.toList = g.nodes.toList ++
    before.filterMap fun id => (newNode lu tree (held lu tree g h id) id).map owned
  pending : s.2 = before.filterMap fun id => leftOver lu tree (held lu tree g h id) id

theorem Turned.step (hfresh : tree.Fresh lu g) {before after : List Nat} {id : Nat}
    (hsplit : tree.preorder = before ++ id :: after) {s : Outcome}
    (hs : Turned lu tree g (tree.preorder.foldl (turn lu tree) (g, [])).1 before s) :
    Turned lu tree g (tree.preorder.foldl (turn lu tree) (g, [])).1 (before ++ [id])
      (turn lu tree s id) := by
  have hheld : held lu tree g (tree.preorder.foldl (turn lu tree) (g, [])).1 id = s.1.nodeAt := by
    rw [held_eq hfresh hsplit, ← hs.eq]
  refine ⟨?_, ?_, ?_⟩
  · rw [List.foldl_append, ← hs.eq]
    rfl
  · rw [nodes_turn, hs.nodes, filterMap_concat, hheld, List.append_assoc]
  · rw [filterMap_concat, hheld, ← hs.pending]
    rfl

/-- **What the first pass does to a graph to which a unit is new.**  It appends, in pre-order, one
    node for every declaration with a place and no use around it, below its owner by meaning or else
    by what is around it, and one for every macro expansion of that kind that finds its macro; and
    it leaves over, in pre-order, the other uses with a place and no use around them. -/
theorem build_fresh (htree : CursorTree.reconstruct lu = .ok tree) (hfresh : tree.Fresh lu g) :
    let done := build lu tree g
    done.graph.nodes.toList = g.nodes.toList ++ tree.preorder.filterMap (fun id =>
        (newNode lu tree (held lu tree g done.graph id) id).map owned) ∧
      done.pending = tree.preorder.filterMap fun id =>
        leftOver lu tree (held lu tree g done.graph id) id := by
  intro done
  have hdone : (done.graph, done.pending) = tree.preorder.foldl (turn lu tree) (g, []) :=
    build_eq_foldl htree hfresh
  have hturned : Turned lu tree g (tree.preorder.foldl (turn lu tree) (g, [])).1 tree.preorder
      (tree.preorder.foldl (turn lu tree) (g, [])) :=
    foldl_prefix ⟨rfl, (List.append_nil _).symm, rfl⟩
      fun _ _ _ hsplit _ hs => hs.step hfresh hsplit
  rw [← hdone] at hturned
  exact ⟨hturned.nodes, hturned.pending⟩

/-- A graph that knows a struct. -/
def structGraph : SymbolGraph :=
  .append .empty SymbolGraph.root
    { category := .structType, kind := .structDecl, name := "S", displayName := "S",
      location := some ⟨⟨"/w/s.h"⟩, 1, 8⟩ }

/-- A file with a macro and a method of that struct.  The method has a variable, and a use within a
    use; the macro is expanded at the end. -/
def outsideUnit : LocatedUnit :=
  .ofUnit {} {
    mainFile := ⟨"/w/a.cpp"⟩
    cursors := #[
      { kind := .translationUnit, spelling := "/w/a.cpp", position := .none },
      { kind := .structDecl, spelling := "S", position := ⟨some ⟨"/w/s.h"⟩, 1, 8⟩,
        isDefinition := true },
      { kind := .macroDefinition, spelling := "M", position := ⟨some ⟨"/w/a.cpp"⟩, 1, 9⟩,
        isDefinition := true, parent := some 0 },
      { kind := .method, spelling := "run", displayName := some "run()",
        position := ⟨some ⟨"/w/a.cpp"⟩, 2, 9⟩, isDefinition := true, parent := some 0,
        semanticParent := some 1 },
      { kind := .varDecl, spelling := "v", position := ⟨some ⟨"/w/a.cpp"⟩, 3, 7⟩,
        isDefinition := true, parent := some 3 },
      { kind := .templateRef, spelling := "m", position := ⟨some ⟨"/w/a.cpp"⟩, 4, 5⟩,
        parent := some 3 },
      { kind := .declRefExpr, spelling := "v", position := ⟨some ⟨"/w/a.cpp"⟩, 4, 7⟩,
        parent := some 5, referenced := some 4 },
      { kind := .macroExpansion, spelling := "M", position := ⟨some ⟨"/w/a.cpp"⟩, 3, 11⟩,
        parent := some 0 }] }

theorem build_fresh_outsideUnit :
    ∃ tree, CursorTree.reconstruct outsideUnit = .ok tree ∧ tree.Fresh outsideUnit structGraph ∧
      let done := build outsideUnit tree structGraph
      done.graph.nodes.toList.map (fun n => (n.name, n.parent)) =
          [("", none), ("S", some 0), ("M", some 0), ("run", some 1), ("v", some 3),
            ("M", some 2)] ∧
        done.pending.map (·.2) = [4] ∧
        done.pending = tree.preorder.filterMap fun id =>
          leftOver outsideUnit tree (held outsideUnit tree structGraph done.graph id) id := by
  have hfresh : (CursorTree.reconstruct outsideUnit).toOption.any (fun tree =>
      decide (tree.Fresh outsideUnit structGraph)) = true := by
    decide +kernel
  have hbuilt : (CursorTree.reconstruct outsideUnit).toOption.any (fun tree =>
      decide ((build outsideUnit tree structGraph).graph.nodes.toList.map
          (fun n => (n.name, n.parent)) =
            [("", none), ("S", some 0), ("M", some 0), ("run", some 1), ("v", some 3),
              ("M", some 2)] ∧
        (build outsideUnit tree structGraph).pending.map (·.2) = [4])) = true := by
    decide +kernel
  cases htree : CursorTree.reconstruct outsideUnit with
  | error e =>
    rw [htree] at hfresh
    cases hfresh
  | ok tree =>
    rw [htree] at hfresh hbuilt
    have hnew : tree.Fresh outsideUnit structGraph := of_decide_eq_true hfresh
    obtain ⟨hnodes, hpending⟩ := of_decide_eq_true hbuilt
    exact ⟨tree, rfl, hnew, hnodes, hpending, (build_fresh htree hnew).2⟩

end Declarations

end SymbolAtlas
