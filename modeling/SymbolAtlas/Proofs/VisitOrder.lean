import SymbolAtlas.LocatedUnit
import SymbolAtlas.Proofs.Forest

/-!
# What a unit shows to its visitors

`TranslationUnit.visited` is what the indexing passes see of a unit.  Here it is read off the tree
of cursors: `TranslationUnit.lexicalTree` is that tree without the insides of leaves and without
what comes from no file, and `TranslationUnit.IsVisited` says for a single cursor whether it is in
there, by its lineage alone.

Principal results: `visited_eq` — the visited cursors are those of the lexical tree in pre-order,
each with the parent it reports; `mem_lexicalTree` — and these are the cursors that `IsVisited`
describes; `nodup_lexicalTree` — none of them is visited twice.
-/

set_option autoImplicit false

namespace SymbolAtlas

namespace Branch

mutual

/-- The items of a branch in pre-order, each behind the item directly above it. -/
def edges (above : Nat) : Branch → List (Nat × Nat)
  | .node i cs => (above, i) :: edgesAll i cs

/-- The items of several branches below one item. -/
def edgesAll (above : Nat) : List Branch → List (Nat × Nat)
  | [] => []
  | b :: bs => b.edges above ++ edgesAll above bs

end

mutual

theorem map_snd_edges (above : Nat) :
    ∀ b : Branch, (b.edges above).map (·.2) = b.preorder
  | .node i cs => by simp [edges, preorder, map_snd_edgesAll i cs]

theorem map_snd_edgesAll (above : Nat) :
    ∀ bs : List Branch, (edgesAll above bs).map (·.2) = preorderAll bs
  | [] => rfl
  | b :: bs => by
    simp [edgesAll, preorderAll, map_snd_edges above b, map_snd_edgesAll above bs]

end

theorem edgesAll_eq_flatMap (above : Nat) (bs : List Branch) :
    edgesAll above bs = bs.flatMap (edges above) := by
  induction bs with
  | nil => rfl
  | cons b bs ih => rw [edgesAll, ih, List.flatMap_cons]

end Branch

namespace TranslationUnit

/-- The lexical parents of all cursors. -/
def parents (u : TranslationUnit) : Array (Option Nat) := u.cursors.map (·.parent)

/-- The parent that a cursor reports to visitors; the lexical one unless it says otherwise. -/
def reported (u : TranslationUnit) (above i : Nat) : Nat := (u.cursor i).reportedParent.getD above

mutual

/-- The visited part of a branch; nothing inside a leaf is visited. -/
def visitedPart (u : TranslationUnit) : Branch → Branch
  | .node i cs => .node i (if (u.kind i).isLeaf then [] else visitedParts u cs)

/-- The visited parts of several branches; what comes from no file is left out. -/
def visitedParts (u : TranslationUnit) : List Branch → List Branch
  | [] => []
  | b :: bs =>
    if u.hasFile b.item then visitedPart u b :: visitedParts u bs else visitedParts u bs

end

/-- The visited parts of the branches below the unit's own cursor. -/
def topBranches (u : TranslationUnit) : List Branch := visitedParts u (u.branches.getD 0 [])

/-- The tree of the unit's own cursor and all visited ones, as they stand in the file. -/
def lexicalTree (u : TranslationUnit) : Branch := .node 0 u.topBranches

/-- A cursor is visited: it comes from a file and stands directly inside the unit's own cursor or
    inside a visited cursor that is no leaf. -/
inductive IsVisited (u : TranslationUnit) : Nat → Prop where
  | top {i : Nat} (hi : Branch.hangs u.parents 0 i = true) (hf : u.hasFile i = true) :
      IsVisited u i
  | inner {p i : Nat} (hp : IsVisited u p) (hl : (u.kind p).isLeaf = false)
      (hi : Branch.hangs u.parents p i = true) (hf : u.hasFile i = true) : IsVisited u i

/-! ## Parents -/

theorem hangs_parents {u : TranslationUnit} {p i : Nat} :
    Branch.hangs u.parents p i = true ↔ (u.cursor i).parent = some p ∧ p < i := by
  have hjoin : u.parents[i]?.join = (u.cursor i).parent := by
    unfold parents cursor
    rw [Array.getElem?_map, Array.getD_eq_getD_getElem?]
    cases u.cursors[i]? <;> rfl
  rw [Branch.hangs_iff, hjoin]

theorem branches_getD (u : TranslationUnit) (i : Nat) :
    u.branches.getD i [] =
      (Branch.directlyBelow u.parents i).map (Branch.rooted u.parents) :=
  Branch.table_getD i

/-! ## The visited list -/

/-- How `visited` collects the cursors that come from a file. -/
def collect (u : TranslationUnit) (seen : List (Nat × Nat)) (i reported : Nat) :
    List (Nat × Nat) × Verdict :=
  (if u.hasFile i then (reported, i) :: seen else seen, u.verdict i)

mutual

theorem walk_collect (u : TranslationUnit) (above : Nat) :
    ∀ (b : Branch) (seen : List (Nat × Nat)), u.hasFile b.item = true →
      b.walk (fun seen i a => u.collect seen i (u.reported a i)) above seen =
        (((u.visitedPart b).edges above).reverse.map (fun e => (u.reported e.1 e.2, e.2)) ++ seen,
          true)
  | .node i cs, seen, hf => by
    have hfile : u.hasFile i = true := hf
    cases hleaf : (u.kind i).isLeaf with
    | true =>
      have hc : ∀ r, u.collect seen i r = ((r, i) :: seen, .skip) := fun r => by
        simp [collect, verdict, hfile, hleaf]
      simp [Branch.walk, hc, visitedPart, hleaf, Branch.edges, Branch.edgesAll]
    | false =>
      have hc : ∀ r, u.collect seen i r = ((r, i) :: seen, .descend) := fun r => by
        simp [collect, verdict, hfile, hleaf]
      simp [Branch.walk, hc, walkAll_collect u i cs, visitedPart, hleaf, Branch.edges]

theorem walkAll_collect (u : TranslationUnit) (above : Nat) :
    ∀ (bs : List Branch) (seen : List (Nat × Nat)),
      Branch.walkAll (fun seen i a => u.collect seen i (u.reported a i)) above bs seen =
        ((Branch.edgesAll above (u.visitedParts bs)).reverse.map
            (fun e => (u.reported e.1 e.2, e.2)) ++ seen,
          true)
  | [], seen => by simp [Branch.walkAll, visitedParts, Branch.edgesAll]
  | b :: bs, seen => by
    cases hf : u.hasFile b.item with
    | true =>
      rw [Branch.walkAll, walk_collect u above b seen hf]
      simp [walkAll_collect u above bs, visitedParts, hf, Branch.edgesAll]
    | false =>
      cases b with
      | node i cs =>
        have hfile : u.hasFile i = false := hf
        have hc : ∀ r, u.collect seen i r = (seen, .skip) := fun r => by
          simp [collect, verdict, hfile]
        simp [Branch.walkAll, Branch.walk, hc, walkAll_collect u above bs, visitedParts,
          Branch.item, hfile]

end

/-- The visited cursors are those of the lexical tree in pre-order. -/
theorem visited_eq (u : TranslationUnit) :
    u.visited = (Branch.edgesAll 0 u.topBranches).map fun e => (u.reported e.1 e.2, e.2) := by
  have h := walkAll_collect u 0 (u.branches.getD 0 []) []
  show (Branch.walkAll (fun seen i a => u.collect seen i (u.reported a i)) 0
    (u.branches.getD 0 []) []).1.reverse = _
  rw [h]
  simp [topBranches]

/-! ## The lexical tree -/

theorem visitedParts_map (u : TranslationUnit) (is : List Nat) :
    u.visitedParts (is.map (Branch.rooted u.parents)) =
      (is.filter u.hasFile).map fun i => u.visitedPart (Branch.rooted u.parents i) := by
  induction is with
  | nil => rfl
  | cons i is ih =>
    have hitem : (Branch.rooted u.parents i).item = i := rfl
    cases hf : u.hasFile i with
    | true => simp [visitedParts, hitem, hf, ih]
    | false => simp [visitedParts, hitem, hf, ih]

theorem topBranches_eq (u : TranslationUnit) :
    u.topBranches = ((Branch.directlyBelow u.parents 0).filter u.hasFile).map fun c =>
      u.visitedPart (Branch.rooted u.parents c) := by
  rw [topBranches, branches_getD, visitedParts_map]

/-- The cursors that are visited directly inside another one. -/
def visitedInside (u : TranslationUnit) (i : Nat) : List Nat :=
  if (u.kind i).isLeaf then [] else (Branch.directlyBelow u.parents i).filter u.hasFile

theorem mem_visitedInside {u : TranslationUnit} {i c : Nat} :
    c ∈ u.visitedInside i ↔
      (u.kind i).isLeaf = false ∧ Branch.hangs u.parents i c = true ∧ u.hasFile c = true := by
  unfold visitedInside
  cases (u.kind i).isLeaf <;> simp [Branch.mem_directlyBelow]

theorem visitedPart_rooted (u : TranslationUnit) (i : Nat) :
    u.visitedPart (Branch.rooted u.parents i) =
      .node i ((u.visitedInside i).map fun c => u.visitedPart (Branch.rooted u.parents c)) := by
  rw [Branch.rooted_eq, visitedPart, visitedParts_map, visitedInside]
  cases (u.kind i).isLeaf <;> rfl

theorem mem_preorder_visitedPart {u : TranslationUnit} {i x : Nat} :
    x ∈ (u.visitedPart (Branch.rooted u.parents i)).preorder ↔
      x = i ∨ ∃ c ∈ u.visitedInside i,
        x ∈ (u.visitedPart (Branch.rooted u.parents c)).preorder := by
  rw [visitedPart_rooted, Branch.preorder, Branch.preorderAll_eq_flatMap, List.flatMap_map,
    List.mem_cons, List.mem_flatMap]

/-- Every edge of the visited part of a visited cursor, but the one that leads to the cursor, leads
    from a lexical parent to a visited cursor. -/
theorem edges_visitedPart {u : TranslationUnit} (above i : Nat) (hi : u.IsVisited i) :
    ∀ e ∈ (u.visitedPart (Branch.rooted u.parents i)).edges above,
      e = (above, i) ∨ Branch.hangs u.parents e.1 e.2 = true ∧ u.IsVisited e.2 := by
  induction i using Branch.climb u.parents generalizing above with
  | step i ih =>
    intro e he
    rw [visitedPart_rooted, Branch.edges, Branch.edgesAll_eq_flatMap, List.flatMap_map,
      List.mem_cons, List.mem_flatMap] at he
    rcases he with he | ⟨c, hc, he⟩
    · exact Or.inl he
    · right
      obtain ⟨hl, hic, hf⟩ := mem_visitedInside.mp hc
      have hcv : u.IsVisited c := .inner hi hl hic hf
      rcases ih c hic i hcv e he with rfl | h
      · exact ⟨hic, hcv⟩
      · exact h

/-- Every edge of the lexical tree leads from a lexical parent to a visited cursor. -/
theorem edges_topBranches {u : TranslationUnit} {p i : Nat}
    (h : (p, i) ∈ Branch.edgesAll 0 u.topBranches) :
    Branch.hangs u.parents p i = true ∧ u.IsVisited i := by
  rw [topBranches_eq, Branch.edgesAll_eq_flatMap, List.flatMap_map] at h
  obtain ⟨c, hc, he⟩ := List.mem_flatMap.mp h
  obtain ⟨hc, hf⟩ := List.mem_filter.mp hc
  have h0c := Branch.mem_directlyBelow.mp hc
  rcases edges_visitedPart 0 c (.top h0c hf) _ he with heq | h
  · obtain ⟨rfl, rfl⟩ := Prod.mk.inj heq
    exact ⟨h0c, .top h0c hf⟩
  · exact h

/-- A visited part holds with a cursor what is visited directly inside it. -/
theorem mem_visitedPart_inner {u : TranslationUnit} {p c : Nat} (hc : c ∈ u.visitedInside p)
    (i : Nat) (h : p ∈ (u.visitedPart (Branch.rooted u.parents i)).preorder) :
    c ∈ (u.visitedPart (Branch.rooted u.parents i)).preorder := by
  induction i using Branch.climb u.parents with
  | step i ih =>
    rw [mem_preorder_visitedPart] at h ⊢
    rcases h with rfl | ⟨d, hd, hpd⟩
    · exact Or.inr ⟨c, hc, mem_preorder_visitedPart.mpr (Or.inl rfl)⟩
    · exact Or.inr ⟨d, hd, ih d (mem_visitedInside.mp hd).2.1 hpd⟩

/-- The cursors of the lexical tree are the unit's own and the visited ones. -/
theorem mem_lexicalTree {u : TranslationUnit} {i : Nat} :
    i ∈ u.lexicalTree.preorder ↔ i = 0 ∨ u.IsVisited i := by
  rw [lexicalTree, Branch.preorder, List.mem_cons]
  refine or_congr Iff.rfl ⟨fun h => ?_, fun h => ?_⟩
  · rw [← Branch.map_snd_edgesAll 0] at h
    obtain ⟨⟨p, j⟩, he, rfl⟩ := List.mem_map.mp h
    exact (edges_topBranches he).2
  · rw [topBranches_eq, Branch.preorderAll_eq_flatMap, List.flatMap_map]
    induction h with
    | @top i hi hf =>
      exact List.mem_flatMap.mpr
        ⟨i, List.mem_filter.mpr ⟨Branch.mem_directlyBelow.mpr hi, hf⟩,
          mem_preorder_visitedPart.mpr (Or.inl rfl)⟩
    | inner _ hl hi hf ih =>
      obtain ⟨c, hc, hpc⟩ := List.mem_flatMap.mp ih
      exact List.mem_flatMap.mpr
        ⟨c, hc, mem_visitedPart_inner (mem_visitedInside.mpr ⟨hl, hi, hf⟩) c hpc⟩

mutual

theorem visitedPart_sublist (u : TranslationUnit) :
    ∀ b : Branch, (u.visitedPart b).preorder.Sublist b.preorder
  | .node i cs => by
    rw [visitedPart, Branch.preorder, Branch.preorder]
    refine List.Sublist.cons_cons _ ?_
    split
    · exact List.nil_sublist _
    · exact visitedParts_sublist u cs

theorem visitedParts_sublist (u : TranslationUnit) :
    ∀ bs : List Branch,
      (Branch.preorderAll (u.visitedParts bs)).Sublist (Branch.preorderAll bs)
  | [] => List.Sublist.refl _
  | b :: bs => by
    rw [visitedParts]
    split
    · exact (visitedPart_sublist u b).append (visitedParts_sublist u bs)
    · exact (visitedParts_sublist u bs).trans (List.sublist_append_right _ _)

end

/-- No cursor stands twice in the lexical tree. -/
theorem nodup_lexicalTree (u : TranslationUnit) : u.lexicalTree.preorder.Nodup := by
  refine List.Nodup.sublist ?_ (Branch.nodup_preorder_rooted u.parents 0)
  rw [lexicalTree, Branch.preorder, Branch.rooted, Branch.preorder]
  exact (visitedParts_sublist u _).cons_cons 0

end TranslationUnit

end SymbolAtlas
