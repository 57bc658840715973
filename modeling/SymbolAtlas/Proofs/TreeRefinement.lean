import SymbolAtlas.CursorTree
import SymbolAtlas.Proofs.VisitOrder

/-!
# Rebuilding a tree without a stack

`CursorTree.reconstruct` keeps a stack of open ancestors beside the nodes.  The stack holds nothing
that the nodes do not tell: it is always the path from the parent of the node made last up to the
root (`Progress.settled`).  So a rebuilt tree is described without it.

* `attachPoint` — the deepest node on the path from the root to the node made last that looks like
  the claimed parent.
* `attachCursor` — one visited cursor goes below that node, or fails.
* `attachAll` — all visited cursors of a unit in turn.

Principal results: `walkAll_settled` — the walk with its stack does what attaching the visited
cursors one by one does; `reconstruct_refines` — hence a reconstruction is that, fails exactly at
the first cursor without a place, and otherwise numbers the nodes in pre-order.
-/

set_option autoImplicit false

namespace SymbolAtlas.CursorTree

/-- The parents of all nodes. -/
def links (nodes : Array TreeNode) : Array (Option Nat) := nodes.map (·.parent)

/-- The path from the node made last up to the root. -/
def lastPath (nodes : Array TreeNode) : List Nat :=
  Branch.lineage (links nodes) (nodes.size - 1)

/-- The node looks like the cursor. -/
def looksLike (lu : LocatedUnit) (nodes : Array TreeNode) (cursor node : Nat) : Bool :=
  lu.alike (nodes.getD node default).cursor cursor

/-- The deepest node on the path from the root to the node made last that looks like a claimed
    parent. -/
def attachPoint (lu : LocatedUnit) (nodes : Array TreeNode) (reported : Nat) : Option Nat :=
  (lastPath nodes).find? (looksLike lu nodes reported)

/-- What is told of a cursor that has no place. -/
def misplaced (lu : LocatedUnit) (nodes : Array TreeNode) (reported cursor : Nat) : TreeError where
  cursor := lu.unit.describe cursor
  parent := lu.unit.describe reported
  last :=
    if nodes.size = 1 then "<none>"
    else lu.unit.describe (nodes.getD (nodes.size - 1) default).cursor

/-- Adds a visited cursor, given behind the parent that it reports. -/
def attachCursor (lu : LocatedUnit) (nodes : Array TreeNode) (seen : Nat × Nat) :
    Except TreeError (Array TreeNode) :=
  match attachPoint lu nodes seen.1 with
  | some top => .ok (nodes.push ⟨seen.2, some top⟩)
  | none => .error (misplaced lu nodes seen.1 seen.2)

/-- The unit's own cursor alone. -/
def soleRoot : Array TreeNode := #[⟨0, none⟩]

/-- Adds the visited cursors of a unit in the order in which they are handed out. -/
def attachAll (lu : LocatedUnit) : Except TreeError (Array TreeNode) :=
  lu.unit.visited.foldlM (attachCursor lu) soleRoot

/-! ## Nodes made one by one -/

/-- Nodes as a reconstruction makes them: the unit's own cursor first, every other one below a node
    of its predecessor's path. -/
structure Grown (nodes : Array TreeNode) : Prop where
  root : nodes[0]? = some ⟨0, none⟩
  sequential : Branch.Sequential (links nodes)

theorem size_links (nodes : Array TreeNode) : (links nodes).size = nodes.size := by
  simp [links]

theorem links_push (nodes : Array TreeNode) (n : TreeNode) :
    links (nodes.push n) = (links nodes).push n.parent := by
  simp [links]

theorem lt_size_of_hangs {nodes : Array TreeNode} {p i : Nat}
    (h : Branch.hangs (links nodes) p i = true) : i < nodes.size := by
  rw [← size_links]
  exact Branch.hangs_lt_size h

theorem hangs_links_push_of_lt {nodes : Array TreeNode} {n : TreeNode} {p i : Nat}
    (hi : i < nodes.size) :
    Branch.hangs (links (nodes.push n)) p i = Branch.hangs (links nodes) p i := by
  rw [links_push, Branch.hangs_push_of_lt (by rw [size_links]; exact hi)]

/-- A new node hangs below the node that it was made for. -/
theorem hangs_links_push {nodes : Array TreeNode} {c top p : Nat} (ht : top < nodes.size) :
    Branch.hangs (links (nodes.push ⟨c, some top⟩)) p nodes.size = true ↔ p = top := by
  rw [links_push, ← size_links]
  exact Branch.hangs_push_size (by rw [size_links]; exact ht)

theorem lineage_links_push {nodes : Array TreeNode} {c top : Nat} (ht : top < nodes.size) :
    Branch.lineage (links (nodes.push ⟨c, some top⟩)) nodes.size =
      nodes.size :: Branch.lineage (links nodes) top := by
  have h := @Branch.lineage_push_size (links nodes) top (by rw [size_links]; exact ht)
  rw [size_links] at h
  rw [links_push, h]

theorem grown_soleRoot : Grown soleRoot :=
  ⟨rfl, fun i hi => by simp [links, soleRoot] at hi⟩

theorem Grown.size_pos {nodes : Array TreeNode} (h : Grown nodes) : 0 < nodes.size := by
  refine Classical.byContradiction fun hn => ?_
  have hroot := h.root
  rw [Array.getElem?_eq_none (by omega)] at hroot
  cases hroot

theorem Grown.lt_of_mem_lastPath {nodes : Array TreeNode} (h : Grown nodes) {n : Nat}
    (hn : n ∈ lastPath nodes) : n < nodes.size := by
  have h₁ := Branch.le_of_mem_lineage hn
  have h₂ := h.size_pos
  omega

theorem lastPath_push {nodes : Array TreeNode} {c top : Nat} (ht : top < nodes.size) :
    lastPath (nodes.push ⟨c, some top⟩) = nodes.size :: Branch.lineage (links nodes) top := by
  rw [lastPath, Array.size_push, Nat.add_sub_cancel, lineage_links_push ht]

theorem Grown.push {nodes : Array TreeNode} (h : Grown nodes) {top : Nat}
    (ht : top ∈ lastPath nodes) (c : Nat) : Grown (nodes.push ⟨c, some top⟩) := by
  have hpos := h.size_pos
  have htop := h.lt_of_mem_lastPath ht
  refine ⟨?_, ?_⟩
  · rw [Array.getElem?_push, if_neg (Nat.ne_of_lt hpos), h.root]
  · intro i hi
    rw [size_links, Array.size_push] at hi
    have hil : i < (links nodes).size := by rw [size_links]; omega
    rw [links_push, Branch.lineage_push_of_lt hil, ← links_push]
    by_cases hlast : i + 1 = nodes.size
    · refine ⟨top, ?_, ?_⟩
      · have hi' : i = nodes.size - 1 := by omega
        rw [hi']
        exact ht
      · rw [hlast]
        exact (hangs_links_push htop).mpr rfl
    · have hlt : i + 1 < nodes.size := by omega
      obtain ⟨p, hp, hpi⟩ := h.sequential i (by rw [size_links]; exact hlt)
      exact ⟨p, hp, by rw [hangs_links_push_of_lt hlt]; exact hpi⟩

theorem attachPoint_mem {lu : LocatedUnit} {nodes : Array TreeNode} {r top : Nat}
    (h : attachPoint lu nodes r = some top) : top ∈ lastPath nodes :=
  List.mem_of_find?_eq_some h

theorem attachCursor_grown {lu : LocatedUnit} {nodes nodes' : Array TreeNode} {seen : Nat × Nat}
    (hg : Grown nodes) (h : attachCursor lu nodes seen = .ok nodes') : Grown nodes' := by
  unfold attachCursor at h
  split at h
  · rename_i top ht
    cases h
    exact hg.push (attachPoint_mem ht) seen.2
  · cases h

theorem foldlM_attachCursor_grown {lu : LocatedUnit} :
    ∀ {seen : List (Nat × Nat)} {nodes nodes' : Array TreeNode}, Grown nodes →
      seen.foldlM (attachCursor lu) nodes = .ok nodes' → Grown nodes'
  | [], nodes, nodes', hg, h => by
    cases h
    exact hg
  | e :: seen, nodes, nodes', hg, h => by
    rw [List.foldlM_cons] at h
    cases he : attachCursor lu nodes e with
    | error err => rw [he] at h; cases h
    | ok mid =>
      rw [he] at h
      exact foldlM_attachCursor_grown (attachCursor_grown hg he) h

/-! ## The stack -/

/-- The state of a reconstruction that has made these nodes and not failed. -/
def Progress.settled (nodes : Array TreeNode) : Progress where
  nodes := nodes
  open_ := if nodes.size = 1 then [0] else (lastPath nodes).tail
  last := if nodes.size = 1 then none else some (nodes.size - 1)
  failure := none

/-- Reopening opens the path from the place of the claimed parent up to the root: the node made last
    is pushed if it is the place, and ancestors are closed up to the place otherwise. -/
theorem Progress.reopen_settled (lu : LocatedUnit) {nodes : Array TreeNode} (hg : Grown nodes)
    (r : Nat) :
    (Progress.settled nodes).reopen lu r =
      match attachPoint lu nodes r with
      | some top => Branch.lineage (links nodes) top
      | none => [] := by
  have hpos := hg.size_pos
  refine Eq.trans ?_ (Branch.dropWhile_lineage _ (looksLike lu nodes r) (nodes.size - 1))
  by_cases hone : nodes.size = 1
  · have htop : ∀ p, Branch.hangs (links nodes) p 0 = false := fun p => by
      simp [Branch.hangs]
    rw [hone, Branch.lineage_of_top htop]
    simp [Progress.reopen, Progress.settled, hone, looksLike, Progress.nodeAlike]
  · have hopen : (Progress.settled nodes).reopen lu r =
        if looksLike lu nodes r (nodes.size - 1) then
          (nodes.size - 1) :: (lastPath nodes).tail
        else (lastPath nodes).tail.dropWhile fun n => !looksLike lu nodes r n := by
      unfold Progress.reopen Progress.settled
      simp only [if_neg hone]
      rfl
    have hcons : Branch.lineage (links nodes) (nodes.size - 1) =
        (nodes.size - 1) :: (lastPath nodes).tail := by
      rw [lastPath, Branch.lineage]; rfl
    rw [hopen, hcons, List.dropWhile_cons]
    cases hl : looksLike lu nodes r (nodes.size - 1) with
    | true => simp
    | false => simp

/-- Where a cursor has a place, a visit attaches it and leaves the stack settled. -/
theorem Progress.visit_of_attached {lu : LocatedUnit} {nodes nodes' : Array TreeNode} {r c : Nat}
    (hg : Grown nodes) (hf : lu.unit.hasFile c = true)
    (h : attachCursor lu nodes (r, c) = .ok nodes') :
    (Progress.settled nodes).visit lu c r = (Progress.settled nodes', lu.unit.verdict c) := by
  unfold attachCursor at h
  cases ht : attachPoint lu nodes r with
  | none => rw [ht] at h; cases h
  | some top =>
    rw [ht] at h
    cases h
    have hpos := hg.size_pos
    have htop := hg.lt_of_mem_lastPath (attachPoint_mem ht)
    have hopen := Progress.reopen_settled lu hg r
    rw [ht] at hopen
    have hsettled : Progress.settled (nodes.push ⟨c, some top⟩) =
        { nodes := nodes.push ⟨c, some top⟩, open_ := Branch.lineage (links nodes) top,
          last := some nodes.size, failure := none } := by
      have hsize : (nodes.push (⟨c, some top⟩ : TreeNode)).size ≠ 1 := by
        rw [Array.size_push]; omega
      unfold Progress.settled
      rw [if_neg hsize, if_neg hsize, lastPath_push htop, Array.size_push, Nat.add_sub_cancel]
      rfl
    obtain ⟨rest, hrest⟩ : ∃ rest, Branch.lineage (links nodes) top = top :: rest :=
      ⟨_, by rw [Branch.lineage]⟩
    simp only [hrest] at hopen hsettled
    rw [hsettled]
    unfold Progress.visit
    simp only [hopen, hf, Bool.not_true, Bool.false_eq_true, if_false]
    rfl

/-- Where a cursor has no place, a visit ends the walk and tells of it. -/
theorem Progress.visit_of_misplaced {lu : LocatedUnit} {nodes : Array TreeNode} {r c : Nat}
    {e : TreeError} (hg : Grown nodes) (hf : lu.unit.hasFile c = true)
    (h : attachCursor lu nodes (r, c) = .error e) :
    ((Progress.settled nodes).visit lu c r).1.failure = some e ∧
      ((Progress.settled nodes).visit lu c r).2 = .stop := by
  unfold attachCursor at h
  cases ht : attachPoint lu nodes r with
  | some top => rw [ht] at h; cases h
  | none =>
    rw [ht] at h
    cases h
    have hopen := Progress.reopen_settled lu hg r
    rw [ht] at hopen
    unfold Progress.visit
    rw [hopen]
    simp only [hf, Bool.not_true, Bool.false_eq_true, if_false]
    by_cases hone : nodes.size = 1
    · simp [Progress.settled, misplaced, hone]
    · simp [Progress.settled, misplaced, hone]

/-! ## The walk -/

/-- How a walk that attaches cursors one by one ends: settled on the nodes made, or stopped with
    the failure. -/
def Agrees (walked : Progress × Bool) : Except TreeError (Array TreeNode) → Prop
  | .ok nodes => walked = (Progress.settled nodes, true)
  | .error e => walked.1.failure = some e ∧ walked.2 = false

/-- What a walk hands out of an edge: the parent reported and the cursor. -/
def handed (u : TranslationUnit) (e : Nat × Nat) : Nat × Nat := (u.reported e.1 e.2, e.2)

/-- The visitor of a reconstruction, told what is directly above each cursor. -/
def visitor (lu : LocatedUnit) (p : Progress) (i above : Nat) : Progress × Verdict :=
  p.visit lu i (lu.unit.reported above i)

mutual

theorem walk_settled (lu : LocatedUnit) (above : Nat) :
    ∀ (b : Branch) (nodes : Array TreeNode), Grown nodes → lu.unit.hasFile b.item = true →
      Agrees (b.walk (visitor lu) above (Progress.settled nodes))
        ((((lu.unit.visitedPart b).edges above).map (handed lu.unit)).foldlM
          (attachCursor lu) nodes)
  | .node i cs, nodes, hg, hf => by
    have hfile : lu.unit.hasFile i = true := hf
    rw [TranslationUnit.visitedPart, Branch.edges, List.map_cons, List.foldlM_cons, Branch.walk]
    cases ha : attachCursor lu nodes (handed lu.unit (above, i)) with
    | error e =>
      obtain ⟨hfail, hstop⟩ := Progress.visit_of_misplaced hg hfile ha
      have hv : visitor lu (Progress.settled nodes) i above =
          (((Progress.settled nodes).visit lu i (lu.unit.reported above i)).1, .stop) :=
        Prod.ext rfl hstop
      rw [hv]
      exact ⟨hfail, rfl⟩
    | ok nodes' =>
      have hv : visitor lu (Progress.settled nodes) i above =
          (Progress.settled nodes', lu.unit.verdict i) :=
        Progress.visit_of_attached hg hfile ha
      rw [hv]
      cases hleaf : (lu.unit.kind i).isLeaf with
      | true =>
        have hverdict : lu.unit.verdict i = .skip := by
          simp [TranslationUnit.verdict, hfile, hleaf]
        rw [hverdict]
        rfl
      | false =>
        have hverdict : lu.unit.verdict i = .descend := by
          simp [TranslationUnit.verdict, hfile, hleaf]
        rw [hverdict]
        exact walkAll_settled lu i cs nodes' (attachCursor_grown hg ha)

theorem walkAll_settled (lu : LocatedUnit) (above : Nat) :
    ∀ (bs : List Branch) (nodes : Array TreeNode), Grown nodes →
      Agrees (Branch.walkAll (visitor lu) above bs (Progress.settled nodes))
        (((Branch.edgesAll above (lu.unit.visitedParts bs)).map (handed lu.unit)).foldlM
          (attachCursor lu) nodes)
  | [], nodes, _ => rfl
  | b :: bs, nodes, hg => by
    rw [Branch.walkAll, TranslationUnit.visitedParts]
    cases hf : lu.unit.hasFile b.item with
    | false =>
      cases b with
      | node i cs =>
        have hfile : lu.unit.hasFile i = false := hf
        have hv : visitor lu (Progress.settled nodes) i above =
            (Progress.settled nodes, .skip) := by
          simp [visitor, Progress.visit, hfile]
        rw [Branch.walk, hv]
        exact walkAll_settled lu above bs nodes hg
    | true =>
      have hb := walk_settled lu above b nodes hg hf
      rw [if_pos rfl, Branch.edgesAll, List.map_append, List.foldlM_append]
      cases ha : (((lu.unit.visitedPart b).edges above).map (handed lu.unit)).foldlM
          (attachCursor lu) nodes with
      | error e =>
        rw [ha] at hb
        obtain ⟨hfail, hstop⟩ := hb
        have hw : b.walk (visitor lu) above (Progress.settled nodes) =
            ((b.walk (visitor lu) above (Progress.settled nodes)).1, false) :=
          Prod.ext rfl hstop
        rw [hw]
        exact ⟨hfail, rfl⟩
      | ok nodes' =>
        rw [ha] at hb
        have hw : b.walk (visitor lu) above (Progress.settled nodes) =
            (Progress.settled nodes', true) := hb
        rw [hw]
        exact walkAll_settled lu above bs nodes' (foldlM_attachCursor_grown hg ha)

end

/-- A reconstruction attaches the visited cursors one by one. -/
theorem reconstruct_eq_attachAll (lu : LocatedUnit) :
    reconstruct lu = (attachAll lu).map CursorTree.mk := by
  have h := walkAll_settled lu 0 (lu.unit.branches.getD 0 []) soleRoot grown_soleRoot
  have hstart : Progress.start = Progress.settled soleRoot := rfl
  have hvisit : lu.unit.visit 0 (Progress.visit lu) .start =
      (Branch.walkAll (visitor lu) 0 (lu.unit.branches.getD 0 [])
        (Progress.settled soleRoot)).1 := by
    rw [← hstart]; rfl
  have hvisited : lu.unit.visited =
      (Branch.edgesAll 0 (lu.unit.visitedParts (lu.unit.branches.getD 0 []))).map
        (handed lu.unit) :=
    lu.unit.visited_eq
  unfold reconstruct
  simp only [hvisit]
  rw [attachAll, hvisited]
  cases ha : ((Branch.edgesAll 0 (lu.unit.visitedParts (lu.unit.branches.getD 0 []))).map
      (handed lu.unit)).foldlM (attachCursor lu) soleRoot with
  | ok nodes =>
    rw [ha] at h
    have hw : Branch.walkAll (visitor lu) 0 (lu.unit.branches.getD 0 [])
        (Progress.settled soleRoot) = (Progress.settled nodes, true) := h
    rw [hw]
    rfl
  | error e =>
    rw [ha] at h
    simp only [h.1]
    rfl

/-- The nodes of a rebuilt tree are numbered in pre-order. -/
theorem grown_of_reconstruct {lu : LocatedUnit} {t : CursorTree} (h : reconstruct lu = .ok t) :
    Grown t.nodes := by
  rw [reconstruct_eq_attachAll] at h
  cases ha : attachAll lu with
  | error e =>
    rw [ha] at h
    cases h
  | ok nodes =>
    rw [ha] at h
    cases h
    exact foldlM_attachCursor_grown grown_soleRoot ha

/-! ## The refinement -/

/-- A fold that can fail ends with the failure of the first element that fails. -/
theorem foldlM_eq_error_iff {α β ε : Type} {f : β → α → Except ε β} {e : ε} :
    ∀ {l : List α} {b : β}, l.foldlM f b = .error e ↔
      ∃ before x after b', l = before ++ x :: after ∧ before.foldlM f b = .ok b' ∧
        f b' x = .error e
  | [], b => by
    constructor
    · intro h; cases h
    · rintro ⟨before, x, after, b', h, _⟩
      exact absurd h.symm (by simp)
  | y :: l, b => by
    rw [List.foldlM_cons]
    cases hy : f b y with
    | error e' =>
      constructor
      · intro h
        cases h
        exact ⟨[], y, l, b, rfl, rfl, hy⟩
      · rintro ⟨before, x, after, b', hl, hb, hx⟩
        cases before with
        | nil =>
          cases hl
          cases hb
          rw [hy] at hx
          exact hx
        | cons z before =>
          cases hl
          rw [List.foldlM_cons, hy] at hb
          cases hb
    | ok c =>
      refine (foldlM_eq_error_iff (l := l) (b := c)).trans ⟨?_, ?_⟩
      · rintro ⟨before, x, after, b', rfl, hb, hx⟩
        exact ⟨y :: before, x, after, b', rfl, by rw [List.foldlM_cons, hy]; exact hb, hx⟩
      · rintro ⟨before, x, after, b', hl, hb, hx⟩
        cases before with
        | nil =>
          cases hl
          cases hb
          rw [hy] at hx
          cases hx
        | cons z before =>
          cases hl
          rw [List.foldlM_cons, hy] at hb
          exact ⟨before, x, after, b', rfl, hb, hx⟩

theorem attachCursor_eq_error_iff {lu : LocatedUnit} {nodes : Array TreeNode} {r c : Nat}
    {e : TreeError} :
    attachCursor lu nodes (r, c) = .error e ↔
      (∀ n ∈ lastPath nodes, looksLike lu nodes r n = false) ∧ e = misplaced lu nodes r c := by
  unfold attachCursor
  cases ht : attachPoint lu nodes r with
  | some top =>
    constructor
    · intro h
      cases h
    · rintro ⟨hnone, _⟩
      have hlike := List.find?_some ht
      rw [hnone top (attachPoint_mem ht)] at hlike
      cases hlike
  | none =>
    have hnone : ∀ n ∈ lastPath nodes, looksLike lu nodes r n = false := fun n hn => by
      simpa using List.find?_eq_none.mp ht n hn
    constructor
    · intro h
      cases h
      exact ⟨hnone, rfl⟩
    · rintro ⟨_, rfl⟩
      rfl

/-- **Reconstruction needs no stack.**  It attaches the visited cursors in the order in which they
    are handed out, each below the deepest node on the path to the node made last that looks like
    the parent reported.  It fails exactly when some visited cursor finds no such node, and tells of
    the first of them.  The nodes of a rebuilt tree are numbered in pre-order. -/
theorem reconstruct_refines (lu : LocatedUnit) :
    reconstruct lu = (attachAll lu).map CursorTree.mk ∧
    (∀ e, reconstruct lu = .error e ↔
      ∃ before reported cursor after nodes,
        lu.unit.visited = before ++ (reported, cursor) :: after ∧
        before.foldlM (attachCursor lu) soleRoot = .ok nodes ∧
        (∀ n ∈ lastPath nodes, looksLike lu nodes reported n = false) ∧
        e = misplaced lu nodes reported cursor) ∧
    ∀ t, reconstruct lu = .ok t → t.preorder = List.range t.size := by
  have heq := reconstruct_eq_attachAll lu
  refine ⟨heq, fun e => ?_, fun t ht => ?_⟩
  · have herr : reconstruct lu = .error e ↔ attachAll lu = .error e := by
      rw [heq]
      cases attachAll lu <;> simp [Except.map]
    rw [herr, attachAll, foldlM_eq_error_iff]
    constructor
    · rintro ⟨before, ⟨r, c⟩, after, nodes, hv, hb, hx⟩
      exact ⟨before, r, c, after, nodes, hv, hb, attachCursor_eq_error_iff.mp hx⟩
    · rintro ⟨before, r, c, after, nodes, hv, hb, hx⟩
      exact ⟨before, (r, c), after, nodes, hv, hb, attachCursor_eq_error_iff.mpr hx⟩
  · rw [heq] at ht
    cases ha : attachAll lu with
    | error e => rw [ha] at ht; cases ht
    | ok nodes =>
      rw [ha] at ht
      cases ht
      have hg : Grown nodes := foldlM_attachCursor_grown grown_soleRoot ha
      have h := hg.sequential.preorder_eq_range (by rw [size_links]; exact hg.size_pos)
      rw [size_links] at h
      exact h

end SymbolAtlas.CursorTree
