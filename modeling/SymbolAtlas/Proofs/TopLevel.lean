import SymbolAtlas.Proofs.IndexingSteps
import SymbolAtlas.Proofs.LexicalTree
import SymbolAtlas.Proofs.LoweredUses

/-!
# What stands directly inside a unit

In the tree of a lowered unit, other cursors may look alike and so hang elsewhere than they stand.
The cursors directly inside the unit do not: nothing looks like the unit itself.  So their nodes are
those directly below the root, in the order of the cursors.

Principal results: `mem_inside_root` — which nodes hang directly below the root;
`exists_node_of_isVisited` — every visited cursor has a node; `cursor_lt_iff` — the order of the
nodes at the top is that of their cursors.
-/

set_option autoImplicit false

namespace SymbolAtlas

namespace TranslationUnit

/-- Only the cursor of the unit is of its kind. -/
theorem FullyBound.kind_ne {u : TranslationUnit} (h : u.FullyBound) {i : Nat} (hpos : 0 < i)
    (hi : i < u.size) : u.kind i ≠ .translationUnit := by
  intro hkind
  have hunit : (u.cursor i).kind = .translationUnit := hkind
  cases (h.bound i hpos hi).rests with
  | own hown =>
    rw [hunit] at hown
    cases hown
  | use hsettled =>
    cases hsettled with
    | exposed hreference =>
      rw [hunit] at hreference
      cases hreference
    | unexposed hunexposed => cases hunit.symm.trans hunexposed
  | record hlinked =>
    have hrecord := hlinked.kind
    rw [hunit] at hrecord
    cases hrecord
  | expansion hexpansion => cases hunit.symm.trans hexpansion
  | inclusion hinclusion => cases hunit.symm.trans hinclusion

/-- What is visited inside a cursor stands in it. -/
theorem mem_lineage_of_mem_visitedPart {u : TranslationUnit} {c x : Nat}
    (h : x ∈ (u.visitedPart (Branch.rooted u.parents c)).preorder) :
    c ∈ Branch.lineage u.parents x :=
  (Branch.mem_preorder_rooted c x).mp ((visitedPart_sublist u _).subset h)

/-- Of two cursors directly inside the unit the earlier one is visited first. -/
theorem pairwise_lexicalTree (u : TranslationUnit) :
    u.lexicalTree.preorder.Pairwise fun a b =>
      Branch.hangs u.parents 0 a = true → Branch.hangs u.parents 0 b = true → a < b := by
  have hnodup := u.nodup_lexicalTree
  rw [lexicalTree, Branch.preorder, topBranches_eq, Branch.preorderAll_eq_flatMap,
    List.flatMap_map] at hnodup ⊢
  refine List.pairwise_cons.mpr ⟨fun b _ hzero => absurd (Branch.hangs_lt hzero) (by omega), ?_⟩
  rw [List.flatMap, List.pairwise_flatten]
  refine ⟨fun l hl => ?_, ?_⟩
  · -- of what is visited inside one of them, only itself stands directly inside the unit
    obtain ⟨c, hc, rfl⟩ := List.mem_map.mp hl
    have hc0 := Branch.mem_directlyBelow.mp (List.mem_filter.mp hc).1
    have hsole := (List.nodup_flatMap.mp (List.nodup_cons.mp hnodup).2).1 c hc
    refine List.Pairwise.imp_of_mem (fun {a b} ha hb hne h0a h0b => absurd ?_ hne) hsole
    rw [← Branch.siblings_disjoint hc0 h0a (mem_lineage_of_mem_visitedPart ha)
        (Branch.self_mem_lineage a),
      ← Branch.siblings_disjoint hc0 h0b (mem_lineage_of_mem_visitedPart hb)
        (Branch.self_mem_lineage b)]
  · rw [List.pairwise_map]
    refine List.Pairwise.imp_of_mem ?_
      ((Branch.directlyBelow_pairwise u.parents 0).sublist List.filter_sublist)
    intro c d hc hd hlt a ha b hb h0a h0b
    have hc0 := Branch.mem_directlyBelow.mp (List.mem_filter.mp hc).1
    have hd0 := Branch.mem_directlyBelow.mp (List.mem_filter.mp hd).1
    rwa [← Branch.siblings_disjoint hc0 h0a (mem_lineage_of_mem_visitedPart ha)
        (Branch.self_mem_lineage a),
      ← Branch.siblings_disjoint hd0 h0b (mem_lineage_of_mem_visitedPart hb)
        (Branch.self_mem_lineage b)]

end TranslationUnit

namespace CursorTree

variable {lu : LocatedUnit} {tree : CursorTree}

/-! ## The cursors of nodes -/

/-- Attaching cursors one by one makes a node of each. -/
theorem cursors_foldlM {seen : List (Nat × Nat)} {nodes nodes' : Array TreeNode}
    (h : seen.foldlM (attachCursor lu) nodes = .ok nodes') :
    nodes'.toList.map (·.cursor) = nodes.toList.map (·.cursor) ++ seen.map (·.2) := by
  induction seen generalizing nodes with
  | nil =>
    cases h
    exact (List.append_nil _).symm
  | cons e seen ih =>
    rw [List.foldlM_cons, attachCursor] at h
    cases ht : attachPoint lu nodes e.1 with
    | none =>
      rw [ht] at h
      cases h
    | some top =>
      rw [ht] at h
      rw [ih h, Array.toList_push, List.map_append, List.append_assoc]
      rfl

/-- The nodes of a rebuilt tree stand for the cursors of the lexical one, in the same order. -/
theorem cursors_reconstruct (ht : reconstruct lu = .ok tree) :
    tree.nodes.toList.map (·.cursor) = lu.unit.lexicalTree.preorder := by
  rw [reconstruct_eq_attachAll] at ht
  cases hnodes : attachAll lu with
  | error e =>
    rw [hnodes] at ht
    cases ht
  | ok nodes =>
    rw [hnodes] at ht
    cases ht
    have h := cursors_foldlM hnodes
    rw [TranslationUnit.visited_eq, List.map_map] at h
    rw [h, TranslationUnit.lexicalTree, Branch.preorder, ← Branch.map_snd_edgesAll 0]
    rfl

theorem getElem?_cursors {id : Nat} (hid : id < tree.nodes.size) :
    (tree.nodes.toList.map (·.cursor))[id]? = some (tree.cursor id) := by
  rw [List.getElem?_map, Array.getElem?_toList, Array.getElem?_eq_getElem hid, cursor, node,
    Array.getD_eq_getD_getElem?, Array.getElem?_eq_getElem hid]
  rfl

theorem cursor_injective (ht : reconstruct lu = .ok tree) {a b : Nat} (ha : a < tree.nodes.size)
    (hb : b < tree.nodes.size) (h : tree.cursor a = tree.cursor b) : a = b := by
  have hnodup := lu.unit.nodup_lexicalTree
  rw [← cursors_reconstruct ht] at hnodup
  have hlt : a < (tree.nodes.toList.map (·.cursor)).length := by
    rwa [List.length_map, Array.length_toList]
  exact (List.getElem?_inj hlt hnodup).mp (by rw [getElem?_cursors ha, getElem?_cursors hb, h])

theorem exists_node_of_isVisited (ht : reconstruct lu = .ok tree) {c : Nat}
    (hc : lu.unit.IsVisited c) : ∃ id < tree.nodes.size, tree.cursor id = c := by
  have hmem := TranslationUnit.mem_lexicalTree.mpr (.inr hc)
  rw [← cursors_reconstruct ht] at hmem
  obtain ⟨id, hid⟩ := List.mem_iff_getElem?.mp hmem
  have hlt : id < tree.nodes.size := by
    obtain ⟨hlt, -⟩ := List.getElem?_eq_some_iff.mp hid
    rwa [List.length_map, Array.length_toList] at hlt
  rw [getElem?_cursors hlt] at hid
  exact ⟨id, hlt, Option.some.inj hid⟩

/-! ## The nodes below the root -/

theorem cursor_zero (ht : reconstruct lu = .ok tree) : tree.cursor 0 = 0 :=
  (grown_of_reconstruct ht).cursorOf_zero

/-- **The nodes below the root are those of the cursors directly inside the unit**, if nothing else
    is of the kind of a unit. -/
theorem mem_inside_root (hbound : lu.unit.FullyBound) (hreports : lu.ReportsParents)
    (ht : reconstruct lu = .ok tree) {id : Nat} :
    id ∈ tree.inside 0 ↔
      id < tree.nodes.size ∧ Branch.hangs lu.unit.parents 0 (tree.cursor id) = true := by
  have hfollowing := following_reconstruct hreports ht
  constructor
  · intro hid
    have hhangs := Branch.mem_directlyBelow.mp hid
    obtain ⟨-, n, hn, hparent, -⟩ := hfollowing 0 id hhangs
    obtain rfl : n = 0 := Nat.le_zero.mp (Branch.le_of_mem_lineage hn)
    have hzero : cursorOf tree.nodes 0 = 0 := cursor_zero ht
    rw [hzero] at hparent
    exact ⟨lt_size_of_hangs hhangs, hparent⟩
  · rintro ⟨hlt, hparent⟩
    have hpos : id ≠ 0 := by
      rintro rfl
      rw [cursor_zero ht] at hparent
      exact Nat.lt_irrefl 0 (Branch.hangs_lt hparent)
    obtain ⟨q, hq⟩ := (grown_of_reconstruct ht).exists_hangs hlt hpos
    obtain ⟨-, n, -, hn, hlike⟩ := hfollowing q id hq
    have hn0 : cursorOf tree.nodes n = 0 := by
      have h1 := (TranslationUnit.hangs_parents.mp hn).1
      have h2 := (TranslationUnit.hangs_parents.mp hparent).1
      exact Option.some.inj (h1.symm.trans h2)
    -- the node above looks like the unit, and so it is the root
    rw [hn0] at hlike
    have hkind : lu.unit.kind (cursorOf tree.nodes q) = lu.unit.kind 0 :=
      eq_of_beq (Bool.and_eq_true_iff.mp hlike).1
    have hq0 : q = 0 := Classical.byContradiction fun hne => by
      obtain ⟨_, hroot⟩ := hbound.root
      obtain ⟨p, hp⟩ := (grown_of_reconstruct ht).exists_hangs
        (Nat.lt_trans (Branch.hangs_lt hq) hlt) hne
      obtain ⟨hqpos, hqlt⟩ := hfollowing.cursor_bounds hp
      exact hbound.kind_ne hqpos hqlt (hkind.trans hroot.kind)
    exact Branch.mem_directlyBelow.mpr (hq0 ▸ hq)

/-- **Nodes below the root are in the order of their cursors.** -/
theorem cursor_lt_iff (hbound : lu.unit.FullyBound) (hreports : lu.ReportsParents)
    (ht : reconstruct lu = .ok tree) {a b : Nat} (ha : a ∈ tree.inside 0)
    (hb : b ∈ tree.inside 0) : tree.cursor a < tree.cursor b ↔ a < b := by
  have hpairwise := lu.unit.pairwise_lexicalTree
  rw [← cursors_reconstruct ht] at hpairwise
  have hmono : ∀ {a b : Nat}, a ∈ tree.inside 0 → b ∈ tree.inside 0 → a < b →
      tree.cursor a < tree.cursor b := fun {a b} ha hb hlt => by
    obtain ⟨hasize, ha0⟩ := (mem_inside_root hbound hreports ht).mp ha
    obtain ⟨hbsize, hb0⟩ := (mem_inside_root hbound hreports ht).mp hb
    obtain ⟨hal, hag⟩ := List.getElem?_eq_some_iff.mp (getElem?_cursors hasize)
    obtain ⟨hbl, hbg⟩ := List.getElem?_eq_some_iff.mp (getElem?_cursors hbsize)
    have h := List.pairwise_iff_getElem.mp hpairwise a b hal hbl hlt
    rw [hag, hbg] at h
    exact h ha0 hb0
  refine ⟨fun hlt => ?_, hmono ha hb⟩
  rcases Nat.lt_trichotomy a b with h | rfl | h
  · exact h
  · exact absurd hlt (Nat.lt_irrefl _)
  · exact absurd (hmono hb ha h) (Nat.lt_asymm hlt)

end CursorTree

end SymbolAtlas
