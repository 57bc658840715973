import SymbolAtlas.Proofs.TreeRefinement

/-!
# When a rebuilt tree is the lexical one

Parents are reported by look only: what counts is the kind and the location of a reported parent.
A unit *reports its parents* when what every visited cursor reports looks like its lexical parent,
and *keeps keys apart* when no visited cursor looks like one inside it.

* While the inside of a cursor is attached, a node of that cursor stays on the path to the node
  made last, whatever else looks like it: a cursor goes below the deepest node that looks like its
  parent, and that is never above the parent's own node (`Following`).
* With keys apart the deepest node that looks like the parent is the parent's own.  Then the nodes
  are those of `plantAll`, which writes a tree down in pre-order, and reading the links of these
  back gives the tree (`readAll_plantAll`).

Principal results: `attachAll_edges` — what attaching the visited part of some branches leads to;
`reconstruct_total` — a unit that reports its parents is never refused; `reconstruct_lexical` — if
it also keeps keys apart, the rebuilt tree is the lexical one.
-/

set_option autoImplicit false

namespace SymbolAtlas

namespace Branch

mutual

/-- A branch with its items renamed. -/
def relabel (f : Nat → Nat) : Branch → Branch
  | .node i cs => .node (f i) (relabelAll f cs)

/-- Several branches with their items renamed. -/
def relabelAll (f : Nat → Nat) : List Branch → List Branch
  | [] => []
  | b :: bs => b.relabel f :: relabelAll f bs

end

theorem relabelAll_eq_map (f : Nat → Nat) (bs : List Branch) :
    relabelAll f bs = bs.map (relabel f) := by
  induction bs with
  | nil => rfl
  | cons b bs ih => rw [relabelAll, ih, List.map_cons]

end Branch

instance : EquivBEq (Option Location) where
  rfl := fun {a} => by cases a <;> simp
  symm := fun {a b} h => by
    cases a <;> cases b <;> simp_all [BEq.comm]
  trans := fun {a b c} h₁ h₂ => by
    cases a <;> cases b <;> cases c <;> simp_all
    exact BEq.trans h₁ h₂

namespace LocatedUnit

/-- What every visited cursor reports as its parent looks like its lexical parent. -/
def ReportsParents (lu : LocatedUnit) : Prop :=
  ∀ reported cursor parent, (reported, cursor) ∈ lu.unit.visited →
    (lu.unit.cursor cursor).parent = some parent → lu.alike reported parent = true

/-- No visited cursor, the unit's own included, looks like a visited one inside it. -/
def KeysApart (lu : LocatedUnit) : Prop :=
  ∀ outer inner, outer = 0 ∨ lu.unit.IsVisited outer → lu.unit.IsVisited inner →
    outer ∈ Branch.lineage lu.unit.parents inner → outer ≠ inner → lu.alike outer inner = false

theorem alike_refl (lu : LocatedUnit) (a : Nat) : lu.alike a a = true := by
  simp [alike]

theorem alike_symm {lu : LocatedUnit} {a b : Nat} (h : lu.alike a b = true) :
    lu.alike b a = true := by
  simp only [alike, Bool.and_eq_true] at h ⊢
  exact ⟨BEq.symm h.1, BEq.symm h.2⟩

theorem alike_trans {lu : LocatedUnit} {a b c : Nat} (h₁ : lu.alike a b = true)
    (h₂ : lu.alike b c = true) : lu.alike a c = true := by
  simp only [alike, Bool.and_eq_true] at h₁ h₂ ⊢
  exact ⟨BEq.trans h₁.1 h₂.1, BEq.trans h₁.2 h₂.2⟩

end LocatedUnit

namespace CursorTree

/-- The cursor of a node. -/
def cursorOf (nodes : Array TreeNode) (id : Nat) : Nat := (nodes.getD id default).cursor

/-- Nodes that begin with others. -/
def Extends (nodes nodes' : Array TreeNode) : Prop := ∀ i < nodes.size, nodes'[i]? = nodes[i]?

namespace Extends

theorem refl (nodes : Array TreeNode) : Extends nodes nodes := fun _ _ => rfl

theorem size_le {nodes nodes' : Array TreeNode} (h : Extends nodes nodes') :
    nodes.size ≤ nodes'.size := by
  refine Classical.byContradiction fun hn => ?_
  have hlast := h nodes'.size (by omega)
  rw [Array.getElem?_eq_none (Nat.le_refl _), Array.getElem?_eq_getElem (by omega)] at hlast
  cases hlast

theorem trans {nodes mid nodes' : Array TreeNode} (h₁ : Extends nodes mid)
    (h₂ : Extends mid nodes') : Extends nodes nodes' := fun i hi => by
  have hle := h₁.size_le
  rw [h₂ i (by omega), h₁ i hi]

theorem push (nodes : Array TreeNode) (n : TreeNode) : Extends nodes (nodes.push n) :=
  fun i hi => by rw [Array.getElem?_push, if_neg (Nat.ne_of_lt hi)]

theorem links {nodes nodes' : Array TreeNode} (h : Extends nodes nodes') {i : Nat}
    (hi : i < nodes.size) : (CursorTree.links nodes')[i]? = (CursorTree.links nodes)[i]? := by
  unfold CursorTree.links
  rw [Array.getElem?_map, Array.getElem?_map, h i hi]

theorem lineage {nodes nodes' : Array TreeNode} (h : Extends nodes nodes') {i : Nat}
    (hi : i < nodes.size) :
    Branch.lineage (CursorTree.links nodes') i = Branch.lineage (CursorTree.links nodes) i :=
  Branch.lineage_congr fun _ hj => h.links (by omega)

theorem cursorOf {nodes nodes' : Array TreeNode} (h : Extends nodes nodes') {i : Nat}
    (hi : i < nodes.size) : cursorOf nodes' i = cursorOf nodes i := by
  unfold CursorTree.cursorOf
  rw [Array.getD_eq_getD_getElem?, h i hi, Array.getD_eq_getD_getElem?]

end Extends

theorem cursorOf_push_size (nodes : Array TreeNode) (n : TreeNode) :
    cursorOf (nodes.push n) nodes.size = n.cursor := by
  simp [cursorOf]

theorem Grown.cursorOf_zero {nodes : Array TreeNode} (h : Grown nodes) :
    cursorOf nodes 0 = 0 := by
  rw [cursorOf, Array.getD_eq_getD_getElem?, h.root]
  rfl

/-- Every node but the root hangs below another one. -/
theorem Grown.exists_hangs {nodes : Array TreeNode} (h : Grown nodes) {i : Nat}
    (hi : i < nodes.size) (hpos : i ≠ 0) : ∃ p, Branch.hangs (links nodes) p i = true := by
  obtain ⟨m, rfl⟩ := Nat.exists_eq_succ_of_ne_zero hpos
  obtain ⟨p, -, hp⟩ := h.sequential m (by rw [size_links]; exact hi)
  exact ⟨p, hp⟩

/-! ## One cursor -/

/-- A cursor whose reported parent looks like a node on the path to the node made last goes below
    that node or deeper. -/
theorem attachPoint_of_open {lu : LocatedUnit} {nodes : Array TreeNode} {n r : Nat}
    (hopen : n ∈ lastPath nodes) (hr : lu.alike r (cursorOf nodes n) = true) :
    ∃ top, attachPoint lu nodes r = some top ∧ n ∈ Branch.lineage (links nodes) top ∧
      lu.alike (cursorOf nodes top) (cursorOf nodes n) = true := by
  have hn : looksLike lu nodes r n = true := lu.alike_symm hr
  cases ht : attachPoint lu nodes r with
  | none =>
    have hnone := List.find?_eq_none.mp ht n hopen
    exact absurd hn hnone
  | some top =>
    have htop : looksLike lu nodes r top = true := List.find?_some ht
    exact ⟨top, rfl, Branch.mem_lineage_of_find? ht hopen hn, lu.alike_trans htop hr⟩

/-- Every node but the root hangs below one of the cursor's lexical parent. -/
def Faithful (u : TranslationUnit) (nodes : Array TreeNode) : Prop :=
  ∀ q k, Branch.hangs (links nodes) q k = true →
    Branch.hangs u.parents (cursorOf nodes q) (cursorOf nodes k) = true ∧
      u.IsVisited (cursorOf nodes k)

/-- Above a faithful node stand the cursors around its own. -/
theorem Faithful.lineage {u : TranslationUnit} {nodes : Array TreeNode} (h : Faithful u nodes)
    {m k : Nat} (hm : m ∈ Branch.lineage (links nodes) k) (hne : m ≠ k) :
    cursorOf nodes m ∈ Branch.lineage u.parents (cursorOf nodes k) ∧
      cursorOf nodes m < cursorOf nodes k ∧ u.IsVisited (cursorOf nodes k) := by
  induction k using Nat.strongRecOn with
  | _ k ih =>
    rcases Branch.hangs_or_top (links nodes) k with ⟨q, hq⟩ | htop
    · obtain ⟨hqk, hk⟩ := h q k hq
      have hlt := Branch.hangs_lt hqk
      rw [Branch.mem_lineage_of_hangs hqk]
      by_cases hmq : m = q
      · subst hmq
        exact ⟨Or.inr (Branch.self_mem_lineage _), hlt, hk⟩
      · obtain ⟨hmem, hless, _⟩ :=
          ih q (Branch.hangs_lt hq) (Branch.mem_lineage_parent hq hm hne) hmq
        exact ⟨Or.inr hmem, by omega, hk⟩
    · rw [Branch.lineage_of_top htop, List.mem_singleton] at hm
      exact absurd hm hne

/-- With keys apart, what looks like a node and hangs at or below it is that node. -/
theorem Faithful.eq_of_alike {lu : LocatedUnit} {nodes : Array TreeNode} (hg : Grown nodes)
    (h : Faithful lu.unit nodes) (hk : lu.KeysApart) {n top : Nat} (htop : top < nodes.size)
    (hn : n ∈ Branch.lineage (links nodes) top)
    (ha : lu.alike (cursorOf nodes top) (cursorOf nodes n) = true) : top = n := by
  refine Classical.byContradiction fun hne => ?_
  obtain ⟨hmem, hlt, hv⟩ := h.lineage hn (Ne.symm hne)
  have houter : cursorOf nodes n = 0 ∨ lu.unit.IsVisited (cursorOf nodes n) := by
    rcases Branch.hangs_or_top (links nodes) n with ⟨q, hq⟩ | hnone
    · exact Or.inr (h q n hq).2
    · have hle := Branch.le_of_mem_lineage hn
      have hzero := hg.sequential.zero_mem_lineage (i := n) (by rw [size_links]; omega)
      rw [Branch.lineage_of_top hnone, List.mem_singleton] at hzero
      exact Or.inl (hzero ▸ hg.cursorOf_zero)
  have hapart := hk _ _ houter hv hmem (Nat.ne_of_lt hlt)
  rw [lu.alike_symm ha] at hapart
  cases hapart

/-! ## A tree written down in pre-order -/

mutual

/-- Writes a branch down below a node. -/
def plant (n : Nat) : Branch → Array TreeNode → Array TreeNode
  | .node i cs, nodes => plantAll nodes.size cs (nodes.push ⟨i, some n⟩)

/-- Writes several branches down below one node. -/
def plantAll (n : Nat) : List Branch → Array TreeNode → Array TreeNode
  | [], nodes => nodes
  | b :: bs, nodes => plantAll n bs (plant n b nodes)

end

/-- The cursor below the edge is visited, its lexical parent is the one above it, and what it
    reports looks like that. -/
def Sound (lu : LocatedUnit) (e : Nat × Nat) : Prop :=
  lu.alike (lu.unit.reported e.1 e.2) e.1 = true ∧
    Branch.hangs lu.unit.parents e.1 e.2 = true ∧ lu.unit.IsVisited e.2

/-- Every node but the root hangs below one of the cursor's lexical parent, or further inside, below
    one that looks like that. -/
def Following (lu : LocatedUnit) (nodes : Array TreeNode) : Prop :=
  ∀ q k, Branch.hangs (links nodes) q k = true →
    lu.unit.IsVisited (cursorOf nodes k) ∧
      ∃ n ∈ Branch.lineage (links nodes) q,
        Branch.hangs lu.unit.parents (cursorOf nodes n) (cursorOf nodes k) = true ∧
          lu.alike (cursorOf nodes q) (cursorOf nodes n) = true

theorem Following.push {lu : LocatedUnit} {nodes : Array TreeNode} (h : Following lu nodes)
    {n top i : Nat} (htop : top < nodes.size) (hn : n ∈ Branch.lineage (links nodes) top)
    (hi : Branch.hangs lu.unit.parents (cursorOf nodes n) i = true)
    (hlike : lu.alike (cursorOf nodes top) (cursorOf nodes n) = true) (hv : lu.unit.IsVisited i) :
    Following lu (nodes.push ⟨i, some top⟩) := by
  have hext := Extends.push nodes ⟨i, some top⟩
  intro q k hqk
  have hlt := Branch.hangs_lt hqk
  have hk := lt_size_of_hangs hqk
  rw [Array.size_push] at hk
  by_cases hlast : k = nodes.size
  · subst hlast
    rw [hangs_links_push htop] at hqk
    subst hqk
    have hle := Branch.le_of_mem_lineage hn
    refine ⟨by rw [cursorOf_push_size]; exact hv, n, by rw [hext.lineage htop]; exact hn, ?_⟩
    rw [cursorOf_push_size, hext.cursorOf htop, hext.cursorOf (by omega)]
    exact ⟨hi, hlike⟩
  · have hk' : k < nodes.size := by omega
    have hq : q < nodes.size := by omega
    rw [hangs_links_push_of_lt hk'] at hqk
    obtain ⟨hvisited, m, hm, hmk, hmlike⟩ := h q k hqk
    have hle := Branch.le_of_mem_lineage hm
    rw [hext.cursorOf hk', hext.cursorOf hq, hext.lineage hq]
    refine ⟨hvisited, m, hm, ?_⟩
    rw [hext.cursorOf (by omega)]
    exact ⟨hmk, hmlike⟩

/-- What attaching the insides of a cursor leads to, when `n` is its node: `n` stays open, and with
    keys apart the insides are written down as they are (`planted`). -/
structure Attached (lu : LocatedUnit) (n : Nat) (planted nodes nodes' : Array TreeNode) :
    Prop where
  extends_ : Extends nodes nodes'
  grown : Grown nodes'
  stays : n ∈ lastPath nodes'
  following : Following lu nodes → Following lu nodes'
  faithful : lu.KeysApart → Faithful lu.unit nodes → Faithful lu.unit nodes' ∧ nodes' = planted

theorem Faithful.push {u : TranslationUnit} {nodes : Array TreeNode} (h : Faithful u nodes)
    {n i : Nat} (hn : n < nodes.size)
    (hi : Branch.hangs u.parents (cursorOf nodes n) i = true) (hv : u.IsVisited i) :
    Faithful u (nodes.push ⟨i, some n⟩) := by
  have hext := Extends.push nodes ⟨i, some n⟩
  intro q k hqk
  have hlt := Branch.hangs_lt hqk
  have hk := lt_size_of_hangs hqk
  rw [Array.size_push] at hk
  by_cases hlast : k = nodes.size
  · subst hlast
    rw [hangs_links_push hn] at hqk
    subst hqk
    rw [cursorOf_push_size, hext.cursorOf hn]
    exact ⟨hi, hv⟩
  · have hk' : k < nodes.size := by omega
    rw [hangs_links_push_of_lt hk'] at hqk
    rw [hext.cursorOf hk', hext.cursorOf (by omega)]
    exact h q k hqk

mutual

theorem attach_edges (lu : LocatedUnit) (n : Nat) :
    ∀ (b : Branch) (nodes : Array TreeNode), Grown nodes → n ∈ lastPath nodes →
      (∀ e ∈ b.edges (cursorOf nodes n), Sound lu e) →
      ∃ nodes', ((b.edges (cursorOf nodes n)).map (handed lu.unit)).foldlM (attachCursor lu) nodes
          = .ok nodes' ∧ Attached lu n (plant n b nodes) nodes nodes'
  | .node i cs, nodes, hg, hopen, hs => by
    obtain ⟨hr, hi, hv⟩ := hs _ (by rw [Branch.edges]; exact List.mem_cons_self)
    obtain ⟨top, ht, hntop, hlike⟩ := attachPoint_of_open hopen hr
    have hnsize := hg.lt_of_mem_lastPath hopen
    have htsize := hg.lt_of_mem_lastPath (attachPoint_mem ht)
    -- the node of i is open while the insides of i are attached, and n stands above it
    have hext := Extends.push nodes ⟨i, some top⟩
    have hopen' : nodes.size ∈ lastPath (nodes.push ⟨i, some top⟩) := by
      rw [lastPath_push htsize]; exact List.mem_cons_self
    have hcursor : cursorOf (nodes.push ⟨i, some top⟩) nodes.size = i := cursorOf_push_size _ _
    have hinner := attachAll_edges lu nodes.size cs (nodes.push ⟨i, some top⟩)
      (hg.push (attachPoint_mem ht) i) hopen'
    rw [hcursor] at hinner
    obtain ⟨nodes', hfold, ha⟩ :=
      hinner fun e he => hs e (by rw [Branch.edges]; exact List.mem_cons_of_mem _ he)
    refine ⟨nodes', ?_, hext.trans ha.extends_, ha.grown, ?_, ?_, ?_⟩
    · have hattach : attachCursor lu nodes (handed lu.unit (cursorOf nodes n, i)) =
          .ok (nodes.push ⟨i, some top⟩) := by
        unfold attachCursor handed
        rw [ht]
      rw [Branch.edges, List.map_cons, List.foldlM_cons, hattach]
      exact hfold
    · refine Branch.mem_lineage_trans ?_ ha.stays
      have hsize : nodes.size < (nodes.push ⟨i, some top⟩).size := by
        rw [Array.size_push]; omega
      rw [ha.extends_.lineage hsize, lineage_links_push htsize]
      exact List.mem_cons_of_mem _ hntop
    · exact fun hf => ha.following (hf.push htsize hntop hi hlike hv)
    · intro hk hf
      obtain rfl : top = n := hf.eq_of_alike hg hk htsize hntop hlike
      exact ha.faithful hk (hf.push htsize hi hv)

theorem attachAll_edges (lu : LocatedUnit) (n : Nat) :
    ∀ (bs : List Branch) (nodes : Array TreeNode), Grown nodes → n ∈ lastPath nodes →
      (∀ e ∈ Branch.edgesAll (cursorOf nodes n) bs, Sound lu e) →
      ∃ nodes', ((Branch.edgesAll (cursorOf nodes n) bs).map (handed lu.unit)).foldlM
          (attachCursor lu) nodes = .ok nodes' ∧ Attached lu n (plantAll n bs nodes) nodes nodes'
  | [], nodes, hg, hopen, _ =>
    ⟨nodes, rfl, Extends.refl nodes, hg, hopen, fun hf => hf, fun _ hf => ⟨hf, rfl⟩⟩
  | b :: bs, nodes, hg, hopen, hs => by
    rw [Branch.edgesAll] at hs
    obtain ⟨mid, hfold, ha⟩ := attach_edges lu n b nodes hg hopen
      fun e he => hs e (List.mem_append_left _ he)
    have hcursor : cursorOf mid n = cursorOf nodes n :=
      ha.extends_.cursorOf (hg.lt_of_mem_lastPath hopen)
    have hrest := attachAll_edges lu n bs mid ha.grown ha.stays
    rw [hcursor] at hrest
    obtain ⟨nodes', hfold', ha'⟩ := hrest fun e he => hs e (List.mem_append_right _ he)
    refine ⟨nodes', ?_, ha.extends_.trans ha'.extends_, ha'.grown, ha'.stays,
      fun hf => ha'.following (ha.following hf), ?_⟩
    · rw [Branch.edgesAll, List.map_append, List.foldlM_append, hfold]
      exact hfold'
    · intro hk hf
      obtain ⟨hf', rfl⟩ := ha.faithful hk hf
      exact ha'.faithful hk hf'

end

/-- In a unit that reports its parents every edge of the lexical tree is sound. -/
theorem sound_of_mem_edges {lu : LocatedUnit} (h : lu.ReportsParents) {e : Nat × Nat}
    (he : e ∈ Branch.edgesAll 0 lu.unit.topBranches) : Sound lu e := by
  obtain ⟨hi, hv⟩ := TranslationUnit.edges_topBranches he
  have hmem : handed lu.unit e ∈ lu.unit.visited := by
    rw [TranslationUnit.visited_eq]
    exact List.mem_map_of_mem he
  exact ⟨h _ _ _ hmem (TranslationUnit.hangs_parents.mp hi).1, hi, hv⟩

theorem attachAll_total {lu : LocatedUnit} (h : lu.ReportsParents) :
    ∃ nodes, attachAll lu = .ok nodes ∧
      Attached lu 0 (plantAll 0 lu.unit.topBranches soleRoot) soleRoot nodes := by
  have hopen : 0 ∈ lastPath soleRoot := Branch.self_mem_lineage 0
  obtain ⟨nodes, hfold, ha⟩ := attachAll_edges lu 0 lu.unit.topBranches soleRoot grown_soleRoot
    hopen fun e he => sound_of_mem_edges h he
  refine ⟨nodes, ?_, ha⟩
  rw [attachAll, TranslationUnit.visited_eq]
  exact hfold

/-- A unit that reports its parents is never refused. -/
theorem reconstruct_total {lu : LocatedUnit} (h : lu.ReportsParents) :
    ∃ t, reconstruct lu = .ok t := by
  obtain ⟨nodes, hn, _⟩ := attachAll_total h
  refine ⟨⟨nodes⟩, ?_⟩
  rw [reconstruct_eq_attachAll, hn]
  rfl

/-- In the tree of a unit that reports its parents every node stands inside one of its lexical
    parent. -/
theorem following_reconstruct {lu : LocatedUnit} (h : lu.ReportsParents) {t : CursorTree}
    (ht : reconstruct lu = .ok t) : Following lu t.nodes := by
  obtain ⟨nodes, hn, ha⟩ := attachAll_total h
  rw [reconstruct_eq_attachAll, hn] at ht
  cases ht
  refine ha.following fun q k hqk => ?_
  have hlt := Branch.hangs_lt hqk
  have hk : k < 1 := lt_size_of_hangs hqk
  omega

/-- All nodes but the root stand for cursors that the unit has besides its own. -/
theorem Following.cursor_bounds {lu : LocatedUnit} {nodes : Array TreeNode}
    (h : Following lu nodes) {q k : Nat} (hqk : Branch.hangs (links nodes) q k = true) :
    0 < cursorOf nodes k ∧ cursorOf nodes k < lu.unit.size := by
  obtain ⟨-, n, -, hn, -⟩ := h q k hqk
  have hsize := Branch.hangs_lt_size hn
  rw [TranslationUnit.parents, Array.size_map] at hsize
  exact ⟨Nat.lt_of_le_of_lt (Nat.zero_le _) (Branch.hangs_lt hn), hsize⟩

/-! ## Reading a planted tree back -/

/-- The branches below a node, by the cursors of the nodes in them. -/
def readAll (nodes : Array TreeNode) (n : Nat) : List Branch :=
  (Branch.directlyBelow (links nodes) n).map fun c =>
    (Branch.rooted (links nodes) c).relabel (cursorOf nodes)

theorem relabel_rooted (nodes : Array TreeNode) (n : Nat) :
    (Branch.rooted (links nodes) n).relabel (cursorOf nodes) =
      .node (cursorOf nodes n) (readAll nodes n) := by
  rw [Branch.rooted_eq, Branch.relabel, Branch.relabelAll_eq_map, List.map_map]
  rfl

/-- New nodes hang below `n` or below one another. -/
def Beside (n : Nat) (nodes nodes' : Array TreeNode) : Prop :=
  Extends nodes nodes' ∧
    ∀ q k, nodes.size ≤ k → Branch.hangs (links nodes') q k = true → q = n ∨ nodes.size ≤ q

/-- What is directly below an old node: what was there, and new nodes if it is `n`. -/
theorem directlyBelow_of_beside {n m : Nat} {nodes nodes' : Array TreeNode}
    (h : Beside n nodes nodes') (hm : m < nodes.size) :
    Branch.directlyBelow (links nodes') m = Branch.directlyBelow (links nodes) m ++
      if m = n then
        (List.range' nodes.size (nodes'.size - nodes.size)).filter (Branch.hangs (links nodes') n)
      else [] := by
  have hle := h.1.size_le
  have hsplit : List.range nodes'.size =
      List.range nodes.size ++ List.range' nodes.size (nodes'.size - nodes.size) := by
    have happend : List.range' 0 nodes.size ++
        List.range' (0 + nodes.size) (nodes'.size - nodes.size) =
          List.range' 0 (nodes.size + (nodes'.size - nodes.size)) := List.range'_append_1
    rw [Nat.zero_add, Nat.add_sub_cancel' hle] at happend
    rw [List.range_eq_range', List.range_eq_range', happend]
  unfold Branch.directlyBelow
  rw [size_links, size_links, hsplit, List.filter_append]
  congr 1
  · refine List.filter_congr fun k hk => ?_
    exact Branch.hangs_congr (h.1.links (List.mem_range.mp hk)) m
  · split
    · rename_i heq
      rw [heq]
    · rename_i hne
      rw [List.filter_eq_nil_iff]
      intro k hk hmk
      rw [List.mem_range'_1] at hk
      rcases h.2 m k hk.1 hmk with hq | hq
      · exact hne hq
      · omega

/-- What hangs beside the insides of an old node leaves the node's branch as it is. -/
theorem relabel_rooted_of_beside {n : Nat} {nodes nodes' : Array TreeNode}
    (h : Beside n nodes nodes') (j : Nat) (hnj : n < j) (hj : j < nodes.size) :
    (Branch.rooted (links nodes') j).relabel (cursorOf nodes') =
      (Branch.rooted (links nodes) j).relabel (cursorOf nodes) := by
  induction j using Branch.climb (links nodes) with
  | step j ih =>
    have hbelow := directlyBelow_of_beside h hj
    rw [if_neg (by omega), List.append_nil] at hbelow
    rw [relabel_rooted, relabel_rooted, h.1.cursorOf hj, readAll, readAll, hbelow]
    congr 1
    refine List.map_congr_left fun c hc => ?_
    have hjc := Branch.mem_directlyBelow.mp hc
    have hlt := Branch.hangs_lt hjc
    exact ih c hjc (by omega) (lt_size_of_hangs hjc)

/-- Reading back finds the old branches below a node in front of the new ones. -/
theorem readAll_of_beside {n : Nat} {nodes nodes' : Array TreeNode}
    (h : Beside n nodes nodes') (hn : n < nodes.size) :
    readAll nodes' n = readAll nodes n ++
      ((List.range' nodes.size (nodes'.size - nodes.size)).filter
        (Branch.hangs (links nodes') n)).map fun c =>
          (Branch.rooted (links nodes') c).relabel (cursorOf nodes') := by
  rw [readAll, directlyBelow_of_beside h hn, if_pos rfl, List.map_append]
  congr 1
  refine List.map_congr_left fun c hc => ?_
  have hnc := Branch.mem_directlyBelow.mp hc
  exact relabel_rooted_of_beside h c (Branch.hangs_lt hnc) (lt_size_of_hangs hnc)

theorem Beside.trans {n : Nat} {nodes mid nodes' : Array TreeNode} (h₁ : Beside n nodes mid)
    (h₂ : Beside n mid nodes') : Beside n nodes nodes' := by
  refine ⟨h₁.1.trans h₂.1, fun q k hk hqk => ?_⟩
  have hle := h₁.1.size_le
  by_cases hmid : k < mid.size
  · rw [Branch.hangs_congr (h₂.1.links hmid)] at hqk
    exact h₁.2 q k hk hqk
  · rcases h₂.2 q k (by omega) hqk with hq | hq
    · exact Or.inl hq
    · exact Or.inr (by omega)

mutual

theorem plant_beside (n : Nat) :
    ∀ (b : Branch) (nodes : Array TreeNode), n < nodes.size → Beside n nodes (plant n b nodes)
  | .node i cs, nodes, hn => by
    have hsize : (nodes.push (⟨i, some n⟩ : TreeNode)).size = nodes.size + 1 :=
      Array.size_push _
    obtain ⟨hext, hnew⟩ := plantAll_beside nodes.size cs (nodes.push ⟨i, some n⟩)
      (by rw [hsize]; omega)
    refine ⟨(Extends.push nodes _).trans hext, fun q k hk hqk => ?_⟩
    rw [plant] at hqk
    by_cases hfirst : k = nodes.size
    · subst hfirst
      rw [Branch.hangs_congr (hext.links (by rw [hsize]; omega)), hangs_links_push hn] at hqk
      exact Or.inl hqk
    · rcases hnew q k (by rw [hsize]; omega) hqk with hq | hq
      · exact Or.inr (by omega)
      · exact Or.inr (by rw [hsize] at hq; omega)

theorem plantAll_beside (n : Nat) :
    ∀ (bs : List Branch) (nodes : Array TreeNode), n < nodes.size →
      Beside n nodes (plantAll n bs nodes)
  | [], nodes, _ => by
    refine ⟨Extends.refl nodes, fun q k hk hqk => ?_⟩
    have hlt := lt_size_of_hangs hqk
    rw [plantAll] at hlt
    omega
  | b :: bs, nodes, hn => by
    have hb := plant_beside n b nodes hn
    have hle := hb.1.size_le
    exact hb.trans (plantAll_beside n bs (plant n b nodes) (by omega))

end

theorem readAll_push_size (nodes : Array TreeNode) (n : TreeNode) :
    readAll (nodes.push n) nodes.size = [] := by
  have hnone : Branch.directlyBelow (links (nodes.push n)) nodes.size = [] := by
    rw [List.eq_nil_iff_forall_not_mem]
    intro k hk
    have hmk := Branch.mem_directlyBelow.mp hk
    have h₁ := Branch.hangs_lt hmk
    have h₂ := lt_size_of_hangs hmk
    rw [Array.size_push] at h₂
    omega
  rw [readAll, hnone, List.map_nil]

mutual

/-- Reading a planted branch back finds it behind what was there. -/
theorem readAll_plant (n : Nat) :
    ∀ (b : Branch) (nodes : Array TreeNode), n < nodes.size →
      readAll (plant n b nodes) n = readAll nodes n ++ [b]
  | .node i cs, nodes, hn => by
    have hsize : (nodes.push (⟨i, some n⟩ : TreeNode)).size = nodes.size + 1 :=
      Array.size_push _
    have hinner := plantAll_beside nodes.size cs (nodes.push ⟨i, some n⟩) (by rw [hsize]; omega)
    have hle := hinner.1.size_le
    have hread := readAll_plantAll nodes.size cs (nodes.push ⟨i, some n⟩) (by rw [hsize]; omega)
    rw [readAll_push_size, List.nil_append] at hread
    rw [readAll_of_beside (plant_beside n (.node i cs) nodes hn) hn, plant]
    congr 1
    -- of the new nodes the first one alone hangs below n
    obtain ⟨d, hd⟩ : ∃ d, (plantAll nodes.size cs (nodes.push ⟨i, some n⟩)).size - nodes.size =
        d + 1 := ⟨_, (Nat.succ_pred_eq_of_pos (by omega)).symm⟩
    have hfirst : Branch.hangs (links (plantAll nodes.size cs (nodes.push ⟨i, some n⟩))) n
        nodes.size = true := by
      rw [Branch.hangs_congr (hinner.1.links (by rw [hsize]; omega))]
      exact (hangs_links_push hn).mpr rfl
    have hothers : (List.range' (nodes.size + 1) d).filter
        (Branch.hangs (links (plantAll nodes.size cs (nodes.push ⟨i, some n⟩))) n) = [] := by
      rw [List.filter_eq_nil_iff]
      intro k hk hnk
      rw [List.mem_range'_1] at hk
      rcases hinner.2 n k (by rw [hsize]; exact hk.1) hnk with hq | hq
      · omega
      · rw [hsize] at hq
        omega
    rw [hd, List.range'_succ, List.filter_cons_of_pos hfirst, hothers, List.map_cons,
      List.map_nil, relabel_rooted, hread, hinner.1.cursorOf (by rw [hsize]; omega),
      cursorOf_push_size]

theorem readAll_plantAll (n : Nat) :
    ∀ (bs : List Branch) (nodes : Array TreeNode), n < nodes.size →
      readAll (plantAll n bs nodes) n = readAll nodes n ++ bs
  | [], nodes, _ => by rw [plantAll, List.append_nil]
  | b :: bs, nodes, hn => by
    have hle := (plant_beside n b nodes hn).1.size_le
    rw [plantAll, readAll_plantAll n bs (plant n b nodes) (by omega), readAll_plant n b nodes hn,
      List.append_assoc, List.singleton_append]

end

mutual

theorem cursors_plant (n : Nat) :
    ∀ (b : Branch) (nodes : Array TreeNode),
      (plant n b nodes).toList.map (·.cursor) = nodes.toList.map (·.cursor) ++ b.preorder
  | .node i cs, nodes => by
    rw [plant, cursors_plantAll nodes.size cs, Branch.preorder]
    simp

theorem cursors_plantAll (n : Nat) :
    ∀ (bs : List Branch) (nodes : Array TreeNode),
      (plantAll n bs nodes).toList.map (·.cursor) =
        nodes.toList.map (·.cursor) ++ Branch.preorderAll bs
  | [], nodes => by rw [plantAll, Branch.preorderAll, List.append_nil]
  | b :: bs, nodes => by
    rw [plantAll, cursors_plantAll n bs, cursors_plant n b, Branch.preorderAll, List.append_assoc]

end

/-! ## The lexical tree -/

theorem readAll_soleRoot : readAll soleRoot 0 = [] := readAll_push_size #[] ⟨0, none⟩

/-- A tree written down below the unit's own cursor is read back as it was. -/
theorem relabel_plantAll (bs : List Branch) :
    (CursorTree.mk (plantAll 0 bs soleRoot)).branch.relabel (cursorOf (plantAll 0 bs soleRoot)) =
      .node 0 bs := by
  have hpos : 0 < soleRoot.size := Nat.one_pos
  have hroot : cursorOf (plantAll 0 bs soleRoot) 0 = 0 :=
    (plantAll_beside 0 bs soleRoot hpos).1.cursorOf hpos
  have hread := readAll_plantAll 0 bs soleRoot hpos
  rw [readAll_soleRoot, List.nil_append] at hread
  have h := relabel_rooted (plantAll 0 bs soleRoot) 0
  rw [hroot, hread] at h
  exact h

/-- **A unit that reports its parents and keeps keys apart is rebuilt as it is.**  The tree has the
    shape of the lexical one, with the children of every node in their order; its nodes are the
    unit's own cursor and each visited one once; and what is the parent of a node is the lexical
    parent of its cursor. -/
theorem reconstruct_lexical {lu : LocatedUnit} (h : lu.ReportsParents) (hk : lu.KeysApart) :
    ∃ t, reconstruct lu = .ok t ∧
      t.branch.relabel t.cursor = lu.unit.lexicalTree ∧
      (t.nodes.toList.map (·.cursor)).Nodup ∧
      (∀ i, i ∈ t.nodes.toList.map (·.cursor) ↔ i = 0 ∨ lu.unit.IsVisited i) ∧
      ∀ id, 0 < id → id < t.size → ∃ p, (t.node id).parent = some p ∧ p < id ∧
        (lu.unit.cursor (t.cursor id)).parent = some (t.cursor p) := by
  obtain ⟨nodes, hn, ha⟩ := attachAll_total h
  have hstart : Faithful lu.unit soleRoot := fun q k hqk => by
    have hlt := Branch.hangs_lt hqk
    have hsize : k < 1 := lt_size_of_hangs hqk
    omega
  obtain ⟨hfaithful, hplanted⟩ := ha.faithful hk hstart
  have hcursors : nodes.toList.map (·.cursor) = lu.unit.lexicalTree.preorder := by
    have hall := cursors_plantAll 0 lu.unit.topBranches soleRoot
    rw [← hplanted] at hall
    rw [hall, TranslationUnit.lexicalTree, Branch.preorder]
    rfl
  refine ⟨⟨nodes⟩, ?_, ?_, ?_, fun i => ?_, fun id hpos hid => ?_⟩
  · rw [reconstruct_eq_attachAll, hn]
    rfl
  · rw [hplanted]
    exact relabel_plantAll lu.unit.topBranches
  · rw [hcursors]
    exact lu.unit.nodup_lexicalTree
  · rw [hcursors]
    exact TranslationUnit.mem_lexicalTree
  · obtain ⟨m, rfl⟩ : ∃ m, id = m + 1 := ⟨id - 1, by omega⟩
    obtain ⟨p, _, hp⟩ := ha.grown.sequential m (by rw [size_links]; exact hid)
    have hpar := (Branch.hangs_iff.mp hp).1
    refine ⟨p, ?_, Branch.hangs_lt hp, ?_⟩
    · have hnode : nodes[m + 1]? = some (CursorTree.node ⟨nodes⟩ (m + 1)) := by
        have hm : m + 1 < nodes.size := hid
        simp [node, hm]
      rw [links, Array.getElem?_map, hnode] at hpar
      exact hpar
    · exact (TranslationUnit.hangs_parents.mp (hfaithful p (m + 1) hp).1).1

/-- A class with a method and two fields that look the same.  The method reports a cursor outside
    the tree that looks like the class; the inside of the use in it is not visited, and neither is
    the variable that comes from no file, nor what stands in that. -/
def lookalikes : LocatedUnit where
  unit := {
    mainFile := ⟨"a.cpp"⟩
    cursors := #[
      { kind := .translationUnit, spelling := "a.cpp", position := .none },
      { kind := .classDecl, spelling := "A", position := ⟨some ⟨"a.cpp"⟩, 1, 1⟩, parent := some 0 },
      { kind := .method, spelling := "m", position := ⟨some ⟨"a.cpp"⟩, 2, 3⟩, parent := some 1,
        reportedParent := some 5 },
      { kind := .declRefExpr, spelling := "x", position := ⟨some ⟨"a.cpp"⟩, 2, 9⟩,
        parent := some 2 },
      { kind := .typeRef, spelling := "T", position := ⟨some ⟨"a.cpp"⟩, 2, 9⟩, parent := some 3 },
      { kind := .classDecl, spelling := "A", position := ⟨some ⟨"./a.cpp"⟩, 1, 1⟩ },
      { kind := .varDecl, spelling := "v", position := .none, parent := some 0 },
      { kind := .callExpr, spelling := "f", position := ⟨some ⟨"a.cpp"⟩, 4, 9⟩, parent := some 6 },
      { kind := .fieldDecl, spelling := "y", position := ⟨some ⟨"a.cpp"⟩, 3, 3⟩, parent := some 1 },
      { kind := .fieldDecl, spelling := "z", position := ⟨some ⟨"a.cpp"⟩, 3, 3⟩,
        parent := some 1 }] }
  places := #[none, some ⟨⟨"/a.cpp"⟩, 1, 1⟩, some ⟨⟨"/a.cpp"⟩, 2, 3⟩, some ⟨⟨"/a.cpp"⟩, 2, 9⟩,
    some ⟨⟨"/a.cpp"⟩, 2, 9⟩, some ⟨⟨"/a.cpp"⟩, 1, 1⟩, none, some ⟨⟨"/a.cpp"⟩, 4, 9⟩,
    some ⟨⟨"/a.cpp"⟩, 3, 3⟩, some ⟨⟨"/a.cpp"⟩, 3, 3⟩]

theorem reportsParents_lookalikes : lookalikes.ReportsParents := by
  have hvisited : lookalikes.unit.visited = [(0, 1), (5, 2), (2, 3), (1, 8), (1, 9)] := by
    decide +kernel
  have hall : ∀ e ∈ lookalikes.unit.visited, ∀ p,
      (lookalikes.unit.cursor e.2).parent = some p → lookalikes.alike e.1 p = true := by
    rw [hvisited]
    decide +kernel
  exact fun r c p hv hp => hall (r, c) hv p hp

theorem keysApart_lookalikes : lookalikes.KeysApart := by
  have hall : ∀ a ∈ lookalikes.unit.lexicalTree.preorder,
      ∀ b ∈ lookalikes.unit.lexicalTree.preorder,
        a ∈ Branch.lineage lookalikes.unit.parents b → a ≠ b → lookalikes.alike a b = false := by
    decide +kernel
  exact fun a b ha hb => hall a (TranslationUnit.mem_lexicalTree.mpr ha) b
    (TranslationUnit.mem_lexicalTree.mpr (Or.inr hb))

theorem reconstruct_lookalikes :
    lookalikes.ReportsParents ∧ lookalikes.KeysApart ∧
      ∃ t, reconstruct lookalikes = .ok t ∧ t.branch.relabel t.cursor =
        .node 0 [.node 1 [.node 2 [.node 3 []], .node 8 [], .node 9 []]] := by
  have hlexical : lookalikes.unit.lexicalTree =
      .node 0 [.node 1 [.node 2 [.node 3 []], .node 8 [], .node 9 []]] := by
    with_unfolding_all rfl
  obtain ⟨t, ht, hshape, _⟩ := reconstruct_lexical reportsParents_lookalikes keysApart_lookalikes
  exact ⟨reportsParents_lookalikes, keysApart_lookalikes, t, ht, hshape.trans hlexical⟩

end CursorTree

end SymbolAtlas
