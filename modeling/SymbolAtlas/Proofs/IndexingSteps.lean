import SymbolAtlas.Indexer
import SymbolAtlas.Proofs.MethodLinks
import SymbolAtlas.Proofs.TreeRefinement

/-!
# What the steps of the two passes do

Both passes go through a tree of cursors node by node.  Here it is said once what can happen at a
node; what the passes keep or bring about follows from that.

* `LocatedUnit.Means` — what a use stands for; `LocatedUnit.Admits` — what an expression may name.
* `Declarations.Enters` — the outcomes of the first pass at a node.
* `References.Becomes` — what becomes of a node with a location, and the counter of each outcome.
* `References.Examines` — the outcomes of the second pass at a node.

Principal results: `Declarations.enters` and `References.examines` — there are no other outcomes;
`Declarations.visit_branchAt` and `References.resolveAt_eq` — a pass handles a node and then, if
the outcome says so, what is directly below it.
-/

set_option autoImplicit false

namespace SymbolAtlas

/-! ## Categories -/

/-- The category of something declared, as opposed to a use or to what never becomes a node. -/
def Category.declares : Category → Bool
  | .root | .reference | .invalid => false
  | _ => true

theorem Category.declares_of_ne {c : CursorKind} {d : Bool} (hu : ofCursor c d ≠ .reference)
    (hi : ofCursor c d ≠ .invalid) : (ofCursor c d).declares = true := by
  cases c <;> cases d <;> first | rfl | exact absurd rfl hu | exact absurd rfl hi

theorem Category.ne_reference {c : Category} (h : c.declares = true) : c ≠ .reference := by
  rintro rfl
  cases h

/-! ## What uses stand for -/

namespace LocatedUnit

theorem forall_place {lu : LocatedUnit} {c : Nat} {l : Location} {p : Location → Prop}
    (hl : lu.place c = some l) (h : p l) : ∀ l', lu.place c = some l' → p l' := by
  intro l' hl'
  rw [hl] at hl'
  cases hl'
  exact h

/-- A class or struct that refers to nothing, or to what looks like itself. -/
def NamesItself (lu : LocatedUnit) (c : Nat) : Prop :=
  (lu.unit.kind c = .classDecl ∨ lu.unit.kind c = .structDecl) ∧
    ∀ r, lu.unit.referenced c = some r → lu.alike r c = true

/-- A use stands for what it refers to; a class or struct that names itself stands for its
    definition if there is one. -/
inductive Means (lu : LocatedUnit) (c : Nat) : Nat → Prop where
  | definition {t : Nat} (hself : lu.NamesItself c) (ht : lu.unit.definition c = some t) :
      Means lu c t
  | referenced {t : Nat} (hself : lu.NamesItself c → lu.unit.definition c = none)
      (ht : lu.unit.referenced c = some t) : Means lu c t

/-- An expression that is a plain name may name a value only. -/
def Admits (lu : LocatedUnit) (c t : Nat) : Prop :=
  lu.unit.kind c = .declRefExpr → lu.unit.kind t ∈
    [.parmDecl, .varDecl, .fieldDecl, .method, .enumConstantDecl, .functionDecl]

theorem admits_iff {lu : LocatedUnit} {c t : Nat} :
    lu.Admits c t ↔ ¬(lu.unit.kind c = .declRefExpr ∧ (!(lu.unit.kind t).isValueDecl) = true) := by
  unfold Admits
  generalize lu.unit.kind t = k
  cases k <;> simp [CursorKind.isValueDecl]

theorem isForwardable_iff {k : CursorKind} :
    k.isForwardable = true ↔ k = .classDecl ∨ k = .structDecl := by
  cases k <;> simp [CursorKind.isForwardable]

end LocatedUnit

/-! ## The tree below a node -/

namespace CursorTree

/-- The nodes directly below a node, in order. -/
def inside (tree : CursorTree) (id : Nat) : List Nat :=
  Branch.directlyBelow (links tree.nodes) id

/-- Two nodes directly below the same one. -/
def Siblings (tree : CursorTree) (id m : Nat) : Prop := ∃ p, id ∈ tree.inside p ∧ m ∈ tree.inside p

/-- A node with everything below it. -/
def branchAt (tree : CursorTree) (id : Nat) : Branch := .rooted (links tree.nodes) id

theorem branchAt_eq (tree : CursorTree) (id : Nat) :
    tree.branchAt id = .node id ((tree.inside id).map tree.branchAt) :=
  Branch.rooted_eq id

theorem map_item_branchAt (tree : CursorTree) (ids : List Nat) :
    (ids.map tree.branchAt).map Branch.item = ids := by
  rw [List.map_map]
  exact List.map_id'' (fun _ => rfl) ids

theorem mem_preorder {tree : CursorTree} {id : Nat} :
    id ∈ tree.preorder ↔ 0 ∈ Branch.lineage (links tree.nodes) id :=
  Branch.mem_preorder_rooted 0 id

theorem zero_mem_preorder (tree : CursorTree) : 0 ∈ tree.preorder :=
  mem_preorder.mpr (Branch.self_mem_lineage 0)

theorem mem_preorder_of_inside {tree : CursorTree} {i c : Nat} (hi : i ∈ tree.preorder)
    (hc : c ∈ tree.inside i) : c ∈ tree.preorder := by
  rw [mem_preorder] at hi ⊢
  exact (Branch.mem_lineage_of_hangs (Branch.mem_directlyBelow.mp hc)).mpr (.inr hi)

theorem parent_of_inside {tree : CursorTree} {i c : Nat} (hc : c ∈ tree.inside i) :
    (tree.node c).parent = some i := by
  have hhangs := Branch.mem_directlyBelow.mp hc
  have hlt : c < tree.nodes.size := by
    have h := Branch.hangs_lt_size hhangs
    rwa [size_links] at h
  have hlink := (Branch.hangs_iff.mp hhangs).1
  unfold node
  rw [links, Array.getElem?_map, Array.getElem?_eq_getElem hlt] at hlink
  rw [Array.getD_eq_getD_getElem?, Array.getElem?_eq_getElem hlt]
  exact hlink

/-- Proves a fact about a node from the same fact about the nodes directly below it. -/
theorem climb (tree : CursorTree) {motive : Nat → Prop}
    (step : ∀ i, (∀ c ∈ tree.inside i, motive c) → motive i) (i : Nat) : motive i :=
  Branch.climb (links tree.nodes)
    (fun i ih => step i fun c hc => ih c (Branch.mem_directlyBelow.mp hc)) i

end CursorTree

/-! ## Access to the node list -/

theorem SymbolGraph.any_symbol? (g : SymbolGraph) (i : Nat) :
    (GraphAccess.symbol? g i).any (·.category == .methodDefinition) = g.isMethodDefinition i :=
  Option.any_map

/-! ## Free locations -/

theorem SymbolGraph.not_occupied {g : SymbolGraph} {l : Location} (h : g.nodeAt l = none) :
    ¬g.occupied l = true := by
  rw [occupied, h]
  exact Bool.false_ne_true

theorem SymbolGraph.insert_symbol_of_free {g : SymbolGraph} (lu : LocatedUnit) {l : Location}
    (h : g.nodeAt l = none) (p : Nat) (category : Category) (c : Nat) :
    GraphAccess.insert g p (lu.symbol category c l) =
      (.ok g.size, g.append p (lu.symbol category c l)) := by
  have hinsert : g.insert p (lu.symbol category c l) = .ok (g.size, _) :=
    insert_eq_ok_iff.mpr ⟨fun l' hl' => by cases hl'; exact h, rfl, rfl⟩
  exact access_insert_of_ok hinsert

/-! ## The first pass -/

/-- A macro definition beside an expansion, of the same name. -/
structure CursorTree.MacroBeside (lu : LocatedUnit) (tree : CursorTree) (id m : Nat) : Prop where
  siblings : tree.Siblings id m
  kind : lu.unit.kind (tree.cursor m) = .macroDefinition
  name : lu.unit.spelling (tree.cursor m) = lu.unit.spelling (tree.cursor id)

/-- The first pass goes on inside a node without adding one: nothing is declared there, or it has
    no place of its own. -/
def CursorTree.PassesThrough (lu : LocatedUnit) (tree : CursorTree) (id : Nat) : Prop :=
  lu.unit.category (tree.cursor id) = .invalid ∨
    (lu.unit.category (tree.cursor id)).declares = true ∧
      ((tree.node id).parent = none ∨ lu.place (tree.cursor id) = none)

/-- The first pass does not go through a declaration with a place of its own. -/
theorem CursorTree.not_passesThrough {lu : LocatedUnit} {tree : CursorTree} {id : Nat}
    (hd : (lu.unit.category (tree.cursor id)).declares = true) (hp : (tree.node id).parent ≠ none)
    (hl : lu.place (tree.cursor id) ≠ none) : ¬tree.PassesThrough lu id := by
  rintro (hinvalid | ⟨_, hnone | hnone⟩)
  · rw [hinvalid] at hd
    cases hd
  · exact hp hnone
  · exact hl hnone

namespace Declarations

/-- What the first pass does at a node: the state after it, and the graph node below which it goes
    on inside, if it does. -/
inductive Enters (lu : LocatedUnit) (tree : CursorTree) (siblings : List Nat) (owner : Nat)
    (s : Declarations SymbolGraph) (id : Nat) : Declarations SymbolGraph × Option Nat → Prop where
  | passes (hp : tree.PassesThrough lu id) : Enters lu tree siblings owner s id (s, some owner)
  /-- A use without a place, or at a taken one. -/
  | skips (hc : lu.unit.category (tree.cursor id) = .reference)
      (ho : ∀ l, lu.place (tree.cursor id) = some l → s.graph.occupied l = true) :
      Enters lu tree siblings owner s id (s, none)
  /-- A use is kept for later. -/
  | keeps {l : Location} (hc : lu.unit.category (tree.cursor id) = .reference)
      (hl : lu.place (tree.cursor id) = some l) (hf : s.graph.nodeAt l = none)
      (hm : lu.unit.kind (tree.cursor id) = .macroExpansion →
        siblingMacro lu tree s.graph siblings (lu.unit.spelling (tree.cursor id)) = none) :
      Enters lu tree siblings owner s id (s.keep l id, none)
  /-- A macro expansion goes below the definition beside it. -/
  | expands {l : Location} {definition : Nat}
      (hk : lu.unit.kind (tree.cursor id) = .macroExpansion)
      (hl : lu.place (tree.cursor id) = some l) (hf : s.graph.nodeAt l = none)
      (hm : siblingMacro lu tree s.graph siblings (lu.unit.spelling (tree.cursor id)) =
        some definition) :
      Enters lu tree siblings owner s id
        ({ s with
            graph := s.graph.append definition (lu.symbol .reference (tree.cursor id) l)
            stats := { s.stats with macroReferences := s.stats.macroReferences + 1 } }, none)
  /-- A declaration is in the graph already. -/
  | counts {l : Location} (hp : ¬tree.PassesThrough lu id)
      (hd : (lu.unit.category (tree.cursor id)).declares = true)
      (hl : lu.place (tree.cursor id) = some l) (ho : s.graph.occupied l = true) :
      Enters lu tree siblings owner s id (s.countDuplicate, none)
  /-- A declaration gets a node. -/
  | adds {l : Location} (hp : ¬tree.PassesThrough lu id)
      (hd : (lu.unit.category (tree.cursor id)).declares = true)
      (hl : lu.place (tree.cursor id) = some l) (hf : s.graph.nodeAt l = none)
      (reparented : Nat) :
      Enters lu tree siblings owner s id
        ({ s with
            graph := s.graph.append ((semanticOwner lu tree s.graph id).getD owner)
              (lu.symbol (lu.unit.category (tree.cursor id)) (tree.cursor id) l)
            stats := { s.stats with declarations := s.stats.declarations + 1, reparented } },
          some s.graph.size)

variable {lu : LocatedUnit} {tree : CursorTree}

theorem not_occupied {s : Declarations SymbolGraph} {l : Location} (h : s.graph.nodeAt l = none) :
    ¬s.occupied l = true :=
  SymbolGraph.not_occupied h

theorem category_of_macroExpansion {c : Nat} (h : lu.unit.kind c = .macroExpansion) :
    lu.unit.category c = .reference := by
  rw [TranslationUnit.category, h]
  rfl

theorem enters_add {siblings : List Nat} {owner : Nat} {s : Declarations SymbolGraph} {id : Nat}
    {l : Location}
    (hp : ¬tree.PassesThrough lu id) (hd : (lu.unit.category (tree.cursor id)).declares = true)
    (hl : lu.place (tree.cursor id) = some l) :
    Enters lu tree siblings owner s id
      (add lu tree owner s id (lu.unit.category (tree.cursor id)) l) := by
  cases hf : s.graph.nodeAt l with
  | some i =>
    have ho : s.occupied l = true := Option.isSome_iff_exists.mpr ⟨i, hf⟩
    rw [add_of_occupied _ _ _ _ _ ho]
    exact .counts hp hd hl ho
  | none =>
    unfold add
    rw [if_neg (not_occupied hf)]
    simp only [SymbolGraph.insert_symbol_of_free lu hf]
    exact .adds hp hd hl hf _

/-- What happens at a node where no macro expansion is attached. -/
theorem enters_plain {siblings : List Nat} {owner : Nat} {s : Declarations SymbolGraph} {id : Nat}
    (hm : ∀ l, lu.place (tree.cursor id) = some l → s.graph.nodeAt l = none →
      lu.unit.kind (tree.cursor id) = .macroExpansion →
        siblingMacro lu tree s.graph siblings (lu.unit.spelling (tree.cursor id)) = none) :
    Enters lu tree siblings owner s id
      (match lu.unit.category (tree.cursor id), (tree.node id).parent,
        lu.place (tree.cursor id) with
      | .reference, _, some location =>
        (if s.occupied location then s else s.keep location id, none)
      | .reference, _, none => (s, none)
      | .invalid, _, _ => (s, some owner)
      | category, some _, some location => add lu tree owner s id category location
      | _, _, _ => (s, some owner)) := by
  have hdeclares : lu.unit.category (tree.cursor id) ≠ .reference →
      lu.unit.category (tree.cursor id) ≠ .invalid →
        (lu.unit.category (tree.cursor id)).declares = true := Category.declares_of_ne
  split
  · rename_i location hc hl
    cases hf : s.graph.nodeAt location with
    | some i =>
      have ho : s.occupied location = true := Option.isSome_iff_exists.mpr ⟨i, hf⟩
      rw [if_pos ho]
      exact .skips hc (LocatedUnit.forall_place hl ho)
    | none =>
      rw [if_neg (not_occupied hf)]
      exact .keeps hc hl hf (hm location hl hf)
  · rename_i hc hl
    exact .skips hc fun l hl' => by rw [hl] at hl'; cases hl'
  · rename_i hc
    exact .passes (.inl hc)
  · rename_i hp hl hu hi
    have hd := hdeclares hu hi
    have hinner : (tree.node id).parent ≠ none := by
      rw [hp]
      exact Option.some_ne_none _
    have hplaced : lu.place (tree.cursor id) ≠ none := by
      rw [hl]
      exact Option.some_ne_none _
    exact enters_add (CursorTree.not_passesThrough hd hinner hplaced) hd hl
  · rename_i hi hu hu' hnone
    have hc : lu.unit.category (tree.cursor id) ≠ .reference := fun hc => by
      cases hl : lu.place (tree.cursor id) with
      | none => exact hu' hc hl
      | some l => exact hu l hc hl
    refine .passes (.inr ⟨hdeclares hc hi, ?_⟩)
    cases hp : (tree.node id).parent with
    | none => exact .inl rfl
    | some p => exact .inr (Option.eq_none_iff_forall_ne_some.mpr fun l hl => hnone p l hp hl)

/-- Nothing else happens at a node. -/
theorem enters (lu : LocatedUnit) (tree : CursorTree) (siblings : List Nat) (owner : Nat)
    (s : Declarations SymbolGraph) (id : Nat) :
    Enters lu tree siblings owner s id (enter lu tree siblings owner s id) := by
  unfold enter
  simp only
  split
  · rename_i s' hexpanded
    split at hexpanded
    · rename_i hk
      obtain ⟨l, hl, he⟩ := Option.bind_eq_some_iff.mp hexpanded
      have hc := category_of_macroExpansion hk
      unfold expandMacro at he
      split at he
      · rename_i ho
        cases he
        exact .skips hc (LocatedUnit.forall_place hl ho)
      · rename_i ho
        have hf : s.graph.nodeAt l = none := Option.not_isSome_iff_eq_none.mp ho
        split at he
        · cases he
        · rename_i definition hm
          rw [SymbolGraph.insert_symbol_of_free lu hf] at he
          cases he
          exact .expands hk hl hf hm
    · cases hexpanded
  · rename_i hexpanded
    refine enters_plain fun l hl hf hk => ?_
    rw [if_pos hk, hl, Option.bind_some, expandMacro,
      if_neg (not_occupied hf)] at hexpanded
    split at hexpanded
    · rename_i hm
      exact hm
    · rw [SymbolGraph.insert_symbol_of_free lu hf] at hexpanded
      cases hexpanded

theorem visitAll_eq_foldl (siblings : List Nat) (owner : Nat) (bs : List Branch)
    (s : Declarations SymbolGraph) :
    visitAll lu tree siblings owner bs s =
      bs.foldl (fun s b => visit lu tree siblings owner b s) s := by
  induction bs generalizing s with
  | nil => rw [visitAll, List.foldl_nil]
  | cons b bs ih => rw [visitAll, ih, List.foldl_cons]

/-- Visits the nodes directly below a node in turn. -/
def visitInside (lu : LocatedUnit) (tree : CursorTree) (owner id : Nat)
    (s : Declarations SymbolGraph) : Declarations SymbolGraph :=
  (tree.inside id).foldl
    (fun s c => visit lu tree (tree.inside id) owner (tree.branchAt c) s) s

/-- A node is handled, and then its inside if the outcome says so. -/
theorem visit_branchAt (siblings : List Nat) (owner id : Nat) (s : Declarations SymbolGraph) :
    visit lu tree siblings owner (tree.branchAt id) s =
      match enter lu tree siblings owner s id with
      | (s', none) => s'
      | (s', some owner') => visitInside lu tree owner' id s' := by
  rw [tree.branchAt_eq, visit, CursorTree.map_item_branchAt]
  rcases enter lu tree siblings owner s id with ⟨s', _ | owner'⟩
  · rfl
  · simp only [visitAll_eq_foldl, List.foldl_map, visitInside]

end Declarations

namespace References

theorem namesItself_iff {lu : LocatedUnit} {c : Nat} {l : Location} (hl : lu.place c = some l) :
    ((lu.unit.kind c).isForwardable &&
      (match lu.unit.referenced c with
        | none => true
        | some r => lu.unit.kind r == lu.unit.kind c && lu.place r == some l)) = true ↔
      lu.NamesItself c := by
  unfold LocatedUnit.NamesItself LocatedUnit.alike
  rw [Bool.and_eq_true, LocatedUnit.isForwardable_iff, hl]
  refine and_congr_right fun _ => ?_
  cases lu.unit.referenced c with
  | none => simp
  | some r => simp

theorem target_of_namesItself {lu : LocatedUnit} {c : Nat} {l : Location}
    (hl : lu.place c = some l) (h : lu.NamesItself c) :
    target lu c l = (lu.unit.definition c).or (lu.unit.referenced c) := by
  have horElse : target lu c l = (lu.unit.definition c <|> lu.unit.referenced c) :=
    if_pos ((namesItself_iff hl).mpr h)
  rw [horElse, Option.orElse_eq_orElse, Option.orElse_eq_or]

theorem target_of_not_namesItself {lu : LocatedUnit} {c : Nat} {l : Location}
    (hl : lu.place c = some l) (h : ¬lu.NamesItself c) :
    target lu c l = lu.unit.referenced c :=
  if_neg fun hself => h ((namesItself_iff hl).mp hself)

/-- The target of a use is what the use stands for. -/
theorem target_eq_some_iff {lu : LocatedUnit} {c t : Nat} {l : Location}
    (hl : lu.place c = some l) : target lu c l = some t ↔ lu.Means c t := by
  by_cases hself : lu.NamesItself c
  · rw [target_of_namesItself hl hself, Option.or_eq_some_iff]
    constructor
    · rintro (ht | ⟨hd, ht⟩)
      · exact .definition hself ht
      · exact .referenced (fun _ => hd) ht
    · rintro (⟨_, ht⟩ | ⟨hd, ht⟩)
      · exact .inl ht
      · exact .inr ⟨hd hself, ht⟩
  · rw [target_of_not_namesItself hl hself]
    constructor
    · exact fun ht => .referenced (fun h => absurd h hself) ht
    · rintro (⟨hself', _⟩ | ⟨_, ht⟩)
      · exact absurd hself' hself
      · exact ht

/-- The graph holds a node of what the node of the tree stands for. -/
def Found (lu : LocatedUnit) (tree : CursorTree) (g : SymbolGraph) (id : Nat) : Prop :=
  ∃ t d, lu.Means (tree.cursor id) t ∧ lu.Admits (tree.cursor id) t ∧
    (lu.place t).bind g.nodeAt = some d

/-- What becomes of a node that is examined at its location; every outcome has a counter. -/
inductive Outcome where
  | created
  | alreadyPresent
  | unresolved
  | filtered
  | missingTarget
deriving DecidableEq

/-- The counter of an outcome. -/
def Outcome.counter (stats : ResolveStats) : Outcome → Nat
  | .created => stats.created
  | .alreadyPresent => stats.alreadyPresent
  | .unresolved => stats.unresolved
  | .filtered => stats.filtered
  | .missingTarget => stats.missingTarget

/-- The outcome is counted once more, and no other. -/
def Counted (o : Outcome) (stats stats' : ResolveStats) : Prop :=
  ∀ o' : Outcome, o'.counter stats' = o'.counter stats + if o' = o then 1 else 0

/-- What becomes of a cursor at a location of a graph. -/
inductive Becomes (lu : LocatedUnit) (c : Nat) (l : Location) (g : SymbolGraph) :
    Outcome → Prop where
  | alreadyPresent (ho : g.occupied l = true) : Becomes lu c l g .alreadyPresent
  | unresolved (hf : g.nodeAt l = none) (hc : lu.unit.category c ≠ .invalid)
      (hm : ∀ t, ¬lu.Means c t) : Becomes lu c l g .unresolved
  | filtered {t : Nat} (hf : g.nodeAt l = none) (hc : lu.unit.category c ≠ .invalid)
      (hm : lu.Means c t) (ha : ¬lu.Admits c t) : Becomes lu c l g .filtered
  | missingTarget {t : Nat} (hf : g.nodeAt l = none) (hc : lu.unit.category c ≠ .invalid)
      (hm : lu.Means c t) (ha : lu.Admits c t) (hn : (lu.place t).bind g.nodeAt = none) :
      Becomes lu c l g .missingTarget
  | created {t d : Nat} (hf : g.nodeAt l = none) (hc : lu.unit.category c ≠ .invalid)
      (hm : lu.Means c t) (ha : lu.Admits c t) (hn : (lu.place t).bind g.nodeAt = some d) :
      Becomes lu c l g .created

/-- What the second pass does at a node: the state after it, and whether it sweeps the inside. -/
inductive Examines (lu : LocatedUnit) (tree : CursorTree) (s : References SymbolGraph) (id : Nat) :
    References SymbolGraph × Bool → Prop where
  /-- Nothing is at stake: the node has no place, or a free one but never becomes a node of the
      graph. -/
  | passes (hp : lu.place (tree.cursor id) = none ∨ lu.unit.category (tree.cursor id) = .invalid)
      (hf : ∀ l, lu.place (tree.cursor id) = some l → s.graph.nodeAt l = none) :
      Examines lu tree s id (s, true)
  /-- The place is taken. -/
  | taken {l : Location} {s' : References SymbolGraph} (hl : lu.place (tree.cursor id) = some l)
      (ho : s.graph.occupied l = true) (hg : s'.graph = s.graph)
      (hs : Counted .alreadyPresent s.stats s'.stats) : Examines lu tree s id (s', false)
  | drops {l : Location} {o : Outcome} {s' : References SymbolGraph}
      (hl : lu.place (tree.cursor id) = some l) (ht : ¬Found lu tree s.graph id)
      (hb : Becomes lu (tree.cursor id) l s.graph o) (ho : o ≠ .created)
      (hg : s'.graph = s.graph) (hs : Counted o s.stats s'.stats) :
      Examines lu tree s id (s', false)
  /-- The node goes where uses of what it stands for go. -/
  | attaches {l : Location} {t node : Nat} {s' : References SymbolGraph}
      (hl : lu.place (tree.cursor id) = some l) (hf : s.graph.nodeAt l = none)
      (hc : lu.unit.category (tree.cursor id) ≠ .invalid)
      (hm : lu.Means (tree.cursor id) t) (ha : lu.Admits (tree.cursor id) t)
      (hn : (lu.place t).bind s.graph.nodeAt = some node)
      (hg : s'.graph = (s.graph.ask node).append (s.graph.landing node)
        (lu.symbol .reference (tree.cursor id) l))
      (hs : Counted .created s.stats s'.stats) : Examines lu tree s id (s', true)

variable {lu : LocatedUnit} {tree : CursorTree}

/-- At a free location a use goes below the landing of its target, and is counted. -/
theorem insertBelow_eq (lu : LocatedUnit) {s : References SymbolGraph} {l : Location}
    (cursor node : Nat) (hf : s.graph.nodeAt l = none) :
    ∃ redirected, insertBelow lu s cursor l node =
      { s with
        graph :=
          (s.graph.ask node).append (s.graph.landing node) (lu.symbol .reference cursor l)
        stats := { s.stats with created := s.stats.created + 1, redirected } } := by
  have hfree := SymbolGraph.nodeAt_ask_eq_none hf node
  have hinsert :=
    SymbolGraph.insert_symbol_of_free lu hfree (s.graph.landing node) .reference cursor
  unfold SymbolGraph.ask SymbolGraph.landing at *
  unfold insertBelow
  rw [SymbolGraph.any_symbol?]
  cases hd : s.graph.isMethodDefinition node with
  | false =>
    simp only [hd, Bool.false_eq_true, if_false] at hinsert ⊢
    simp only [hinsert]
    exact ⟨_, rfl⟩
  | true =>
    simp only [hd, if_true] at hinsert ⊢
    rw [SymbolGraph.access_methodDeclaration]
    cases hasked : s.graph.methodDeclaration node with
    | mk declaration graph =>
      rw [hasked] at hinsert
      cases declaration with
      | none =>
        simp only [Option.getD_none] at hinsert ⊢
        simp only [hinsert]
        exact ⟨_, rfl⟩
      | some d =>
        simp only [Option.getD_some] at hinsert ⊢
        simp only [hinsert]
        exact ⟨_, rfl⟩

/-- What happens at a node with a free location. -/
theorem examines_attach {s : References SymbolGraph} {id : Nat} {l : Location}
    (hl : lu.place (tree.cursor id) = some l) (hf : s.graph.nodeAt l = none)
    (hc : lu.unit.category (tree.cursor id) ≠ .invalid) :
    Examines lu tree s id (attach lu tree s id l) := by
  unfold attach
  simp only [SymbolGraph.access_nodeAt]
  cases ht : target lu (tree.cursor id) l with
  | none =>
    have hmeans : ∀ t, ¬lu.Means (tree.cursor id) t := fun t hm => by
      rw [(target_eq_some_iff hl).mpr hm] at ht
      cases ht
    refine .drops hl ?_ (.unresolved hf hc hmeans) (by decide) rfl (by rintro ⟨⟩ <;> rfl)
    rintro ⟨t, _, hm, _⟩
    exact hmeans t hm
  | some t =>
    have hm := (target_eq_some_iff hl).mp ht
    -- a use has one target
    have hsole : ∀ t', lu.Means (tree.cursor id) t' → t' = t := fun t' hm' => by
      rw [(target_eq_some_iff hl).mpr hm'] at ht
      exact Option.some.inj ht
    simp only
    split
    · rename_i hadmits
      have hnot : ¬lu.Admits (tree.cursor id) t := fun ha => LocatedUnit.admits_iff.mp ha hadmits
      refine .drops hl ?_ (.filtered hf hc hm hnot) (by decide) rfl (by rintro ⟨⟩ <;> rfl)
      rintro ⟨t', _, hm', ha', _⟩
      rw [hsole t' hm'] at ha'
      exact hnot ha'
    · rename_i hadmits
      have ha := LocatedUnit.admits_iff.mpr hadmits
      cases hnode : (lu.place t).bind s.graph.nodeAt with
      | none =>
        refine .drops hl ?_ (.missingTarget hf hc hm ha hnode) (by decide) rfl
          (by rintro ⟨⟩ <;> rfl)
        rintro ⟨t', d, hm', _, hd⟩
        rw [hsole t' hm', hnode] at hd
        cases hd
      | some node =>
        obtain ⟨redirected, hbelow⟩ := insertBelow_eq lu (tree.cursor id) node hf
        simp only [hbelow]
        exact .attaches hl hf hc hm ha hnode rfl (by rintro ⟨⟩ <;> rfl)

/-- Nothing else happens at a node. -/
theorem examines (lu : LocatedUnit) (tree : CursorTree) (s : References SymbolGraph) (id : Nat) :
    Examines lu tree s id (site lu tree s id (lu.place (tree.cursor id))) := by
  unfold site
  simp only [SymbolGraph.access_nodeAt]
  cases hl : lu.place (tree.cursor id) with
  | none => exact .passes (.inl hl) fun l hl' => by rw [hl] at hl'; cases hl'
  | some l =>
    simp only
    cases hf : s.graph.nodeAt l with
    | some existing =>
      exact .taken hl (Option.isSome_iff_exists.mpr ⟨existing, hf⟩) rfl (by rintro ⟨⟩ <;> rfl)
    | none =>
      simp only
      split
      · rename_i hc
        exact .passes (.inr hc) (LocatedUnit.forall_place hl hf)
      · rename_i hc
        exact examines_attach hl hf hc

theorem not_passes {id : Nat} {l : Location}
    (hc : lu.unit.category (tree.cursor id) = .reference)
    (hl : lu.place (tree.cursor id) = some l) :
    ¬(lu.place (tree.cursor id) = none ∨ lu.unit.category (tree.cursor id) = .invalid) := by
  rintro (hnone | hinvalid)
  · rw [hl] at hnone
    cases hnone
  · rw [hc] at hinvalid
    cases hinvalid

theorem sweep_eq_foldl (bs : List Branch) (s : References SymbolGraph) :
    sweep lu tree bs s =
      bs.foldl (fun s b => resolve lu tree (lu.place (tree.cursor b.item)) b s) s := by
  induction bs generalizing s with
  | nil => rw [sweep, List.foldl_nil]
  | cons b bs ih => rw [sweep, ih, List.foldl_cons]

/-- Resolves a node at its own place. -/
def resolveAt (lu : LocatedUnit) (tree : CursorTree) (id : Nat)
    (s : References SymbolGraph) : References SymbolGraph :=
  resolve lu tree (lu.place (tree.cursor id)) (tree.branchAt id) s

/-- Resolves the nodes directly below a node in turn. -/
def sweepInside (lu : LocatedUnit) (tree : CursorTree) (id : Nat)
    (s : References SymbolGraph) : References SymbolGraph :=
  (tree.inside id).foldl (fun s c => resolveAt lu tree c s) s

/-- A node is handled, and then its inside if the outcome says so. -/
theorem resolveAt_eq (id : Nat) (s : References SymbolGraph) :
    resolveAt lu tree id s =
      match site lu tree s id (lu.place (tree.cursor id)) with
      | (s', true) => sweepInside lu tree id s'
      | (s', false) => s' := by
  rw [resolveAt, tree.branchAt_eq, resolve]
  rcases site lu tree s id (lu.place (tree.cursor id)) with ⟨s', _ | _⟩
  · rfl
  · simp only [sweep_eq_foldl, List.foldl_map]
    rfl

/-- Entries whose locations are those of their nodes are resolved one by one. -/
theorem resolvePending_eq_foldl {g : SymbolGraph} {pending : List (Location × Nat)}
    (hp : ∀ e ∈ pending, lu.place (tree.cursor e.2) = some e.1) :
    resolvePending lu tree g pending =
      pending.foldl (fun s e => resolveAt lu tree e.2 s) { graph := g } := by
  refine List.foldl_ext _ _ _ fun s e he => ?_
  rw [resolveAt, hp e he]
  rfl

end References

end SymbolAtlas
