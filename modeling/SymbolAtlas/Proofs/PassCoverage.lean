import Mathlib.Logic.Relation
import SymbolAtlas.Proofs.UseTargets

/-!
# What the first pass deals with

The first pass does not look inside a use, nor inside a declaration whose place is taken when the
pass comes to it: by a node that was in the graph from the start, or by one that the pass put there
on its way.

* `CursorTree.Before` — the pass comes to one node before it comes to another.
* `CursorTree.Reaches` — nothing stands between two nodes but what the pass goes through in every
  graph.
* `Declarations.Comes` — the pass comes to a node, and in which state.
* `Declarations.Handled` — what a node comes to: a declaration is in the graph, a use is there or
  kept for the second pass, or another use at its place is that came before it.

Principal results: `Declarations.visit_addsOnly` — places are taken and uses kept for the nodes that
were visited only; `Declarations.Comes.underway` — in which states the first pass comes to a node;
`Declarations.Comes.handled` — it deals with every node that it comes to;
`Declarations.build_handled` — in particular with those that it reaches in every graph.
-/

set_option autoImplicit false

namespace SymbolAtlas

/-- What every step of a fold keeps, given what was folded before, holds in the end. -/
theorem foldl_prefix {α β : Type} {motive : List α → β → Prop} {f : β → α → β} {all : List α}
    {b : β} (hstart : motive [] b)
    (hstep : ∀ done a rest, all = done ++ a :: rest → ∀ b, motive done b →
      motive (done ++ [a]) (f b a)) :
    motive all (all.foldl f b) := by
  suffices h : ∀ rest done b, done ++ rest = all → motive done b → motive all (rest.foldl f b) from
    h all [] b rfl hstart
  intro rest
  induction rest with
  | nil =>
    intro done b hall hb
    rwa [← hall, List.append_nil]
  | cons a rest ih =>
    intro done b hall hb
    refine ih (done ++ [a]) (f b a) ?_ (hstep done a rest hall.symm b hb)
    rw [List.append_assoc]
    exact hall

variable {lu : LocatedUnit} {tree : CursorTree} {g : SymbolGraph}

/-! ## Nodes that are visited -/

namespace CursorTree

/-- The first pass comes to `m` before it comes to `i`: `m` stands around `i`, or is at or below an
    earlier node beside `i` or beside one around `i`. -/
inductive Before (tree : CursorTree) (m i : Nat) : Prop where
  | around (hm : m ∈ Branch.lineage (links tree.nodes) i) (hne : m ≠ i)
  | beside {p b c : Nat} (hb : b ∈ tree.inside p) (hc : c ∈ tree.inside p) (hlt : b < c)
      (hm : b ∈ Branch.lineage (links tree.nodes) m)
      (hi : c ∈ Branch.lineage (links tree.nodes) i)

theorem mem_lineage_of_inside {a i c : Nat} (hc : c ∈ tree.inside i)
    (ha : a ∈ Branch.lineage (links tree.nodes) i) : a ∈ Branch.lineage (links tree.nodes) c :=
  (Branch.mem_lineage_of_hangs (Branch.mem_directlyBelow.mp hc)).mpr (.inr ha)

theorem siblings_iff {p c m : Nat} (hc : c ∈ tree.inside p) :
    tree.Siblings c m ↔ m ∈ tree.inside p := by
  refine ⟨?_, fun hm => ⟨p, hc, hm⟩⟩
  rintro ⟨q, hq, hm⟩
  cases (parent_of_inside hc).symm.trans (parent_of_inside hq)
  exact hm

/-- Of the nodes directly below a node, those before one have the smaller numbers. -/
theorem lt_of_inside_split {p c : Nat} {done rest : List Nat}
    (hall : tree.inside p = done ++ c :: rest) :
    (∀ b ∈ done, b < c) ∧ ∀ m ∈ tree.inside p, m < c → m ∈ done := by
  have hsorted : (tree.inside p).Pairwise (· < ·) := Branch.directlyBelow_pairwise _ p
  rw [hall] at hsorted
  obtain ⟨-, hrest, hdone⟩ := List.pairwise_append.mp hsorted
  refine ⟨fun b hb => hdone b hb c List.mem_cons_self, fun m hm hlt => ?_⟩
  rw [hall] at hm
  refine (List.mem_append.mp hm).resolve_right fun hm => ?_
  rcases List.mem_cons.mp hm with rfl | hm
  · exact Nat.lt_irrefl _ hlt
  · exact Nat.lt_asymm hlt (List.rel_of_pairwise_cons hrest hm)

theorem Before.inside {m i c : Nat} (hc : c ∈ tree.inside i) (h : tree.Before m i) :
    tree.Before m c := by
  cases h with
  | around hm _ =>
    have hlt := Branch.hangs_lt (Branch.mem_directlyBelow.mp hc)
    have hle := Branch.le_of_mem_lineage hm
    exact .around (mem_lineage_of_inside hc hm) (by omega)
  | beside hb hc' hlt hm hi => exact .beside hb hc' hlt hm (mem_lineage_of_inside hc hi)

theorem before_of_inside {i c : Nat} (hc : c ∈ tree.inside i) : tree.Before i c := by
  have hlt := Branch.hangs_lt (Branch.mem_directlyBelow.mp hc)
  exact .around (mem_lineage_of_inside hc (Branch.self_mem_lineage i)) (by omega)

theorem before_of_beside {p b c m : Nat} (hb : b ∈ tree.inside p) (hc : c ∈ tree.inside p)
    (hlt : b < c) (hm : b ∈ Branch.lineage (links tree.nodes) m) : tree.Before m c :=
  .beside hb hc hlt hm (Branch.self_mem_lineage c)

/-- Where nodes are numbered in pre-order, the earlier ones have the smaller numbers. -/
theorem Before.lt (hs : Branch.Sequential (links tree.nodes)) {m i : Nat}
    (h : tree.Before m i) : m < i := by
  cases h with
  | around hm hne =>
    have hle := Branch.le_of_mem_lineage hm
    omega
  | beside hb hc hlt hm hi =>
    have hle := Branch.le_of_mem_lineage hi
    have hmc := hs.lt_of_beside (Branch.mem_directlyBelow.mp hb) (Branch.mem_directlyBelow.mp hc)
      hlt hm
    omega

/-- The first pass may put a node at `l` for it: something is declared there, or a macro
    expanded. -/
structure Puts (lu : LocatedUnit) (tree : CursorTree) (m : Nat) (l : Location) : Prop where
  category : (lu.unit.category (tree.cursor m)).declares = true ∨
    lu.unit.kind (tree.cursor m) = .macroExpansion
  place : ∃ a, lu.place (tree.cursor m) = some a ∧ (a == l) = true

/-- `x` is `i` or stands below it, with nothing around it there but what the first pass goes
    through. -/
def Reaches (lu : LocatedUnit) (tree : CursorTree) : Nat → Nat → Prop :=
  Relation.ReflTransGen fun i c => tree.PassesThrough lu i ∧ c ∈ tree.inside i

theorem Reaches.mem_preorder {x : Nat} (h : tree.Reaches lu 0 x) : x ∈ tree.preorder := by
  induction h with
  | refl => exact tree.zero_mem_preorder
  | tail _ hc ih => exact mem_preorder_of_inside ih hc.2

theorem PassesThrough.category_ne {id : Nat} (h : tree.PassesThrough lu id) :
    lu.unit.category (tree.cursor id) ≠ .reference := by
  rcases h with hinvalid | ⟨hd, _⟩
  · rw [hinvalid]
    decide
  · exact Category.ne_reference hd

/-- A located macro definition beside something is a declaration that the pass does not go
    through. -/
theorem MacroBeside.declares {id m : Nat} (h : tree.MacroBeside lu id m)
    (hl : lu.place (tree.cursor m) ≠ none) :
    ¬tree.PassesThrough lu m ∧ (lu.unit.category (tree.cursor m)).declares = true := by
  have hcategory : lu.unit.category (tree.cursor m) = .macroDefinition := by
    rw [TranslationUnit.category, h.kind]
    rfl
  have hd : (lu.unit.category (tree.cursor m)).declares = true := by
    rw [hcategory]
    rfl
  obtain ⟨p, _, hm⟩ := h.siblings
  have hinner : (tree.node m).parent ≠ none := by
    rw [parent_of_inside hm]
    exact Option.some_ne_none p
  exact ⟨not_passesThrough hd hinner hl, hd⟩

end CursorTree

namespace Declarations

/-! ## What is added -/

/-- Places are taken and uses kept for nodes of one sort only. -/
structure AddsOnly (lu : LocatedUnit) (tree : CursorTree) (P : Nat → Prop)
    (s s' : Declarations SymbolGraph) : Prop where
  occupied : ∀ l, s'.graph.occupied l = true →
    s.graph.occupied l = true ∨ ∃ m, P m ∧ tree.Puts lu m l
  pending : ∀ e ∈ s'.pending, e ∈ s.pending ∨ P e.2

variable {P Q : Nat → Prop}

theorem AddsOnly.refl (s : Declarations SymbolGraph) : AddsOnly lu tree P s s :=
  ⟨fun _ h => .inl h, fun _ h => .inl h⟩

theorem AddsOnly.trans {s t u : Declarations SymbolGraph} (hst : AddsOnly lu tree P s t)
    (htu : AddsOnly lu tree P t u) : AddsOnly lu tree P s u where
  occupied l h := (htu.occupied l h).elim (hst.occupied l) .inr
  pending e h := (htu.pending e h).elim (hst.pending e) .inr

theorem AddsOnly.mono (hPQ : ∀ m, P m → Q m) {s s' : Declarations SymbolGraph}
    (h : AddsOnly lu tree P s s') : AddsOnly lu tree Q s s' where
  occupied l ho := (h.occupied l ho).imp_right fun ⟨m, hm, hp⟩ => ⟨m, hPQ m hm, hp⟩
  pending e he := (h.pending e he).imp_right (hPQ e.2)

/-- A step adds for its own node only. -/
theorem Enters.addsOnly {siblings : List Nat} {owner id : Nat} {s : Declarations SymbolGraph}
    {done : Declarations SymbolGraph × Option Nat} (h : Enters lu tree siblings owner s id done) :
    AddsOnly lu tree (· = id) s done.1 := by
  cases h with
  | passes _ => exact .refl s
  | skips _ _ => exact .refl s
  | @keeps l _ _ _ _ =>
    refine ⟨fun l' ho => .inl ?_, fun e he => ?_⟩
    · rwa [keep_graph] at ho
    · exact (mem_pending_keep he).imp_right fun heq => by rw [heq]
  | @expands l definition hk hl _ _ =>
    refine ⟨fun l' ho => ?_, fun e he => .inl he⟩
    rcases SymbolGraph.occupied_append_iff.mp ho with ho | ⟨a, ha, hal⟩
    · exact .inl ho
    · cases ha
      exact .inr ⟨id, rfl, .inr hk, l, hl, hal⟩
  | counts _ _ _ _ => exact ⟨fun _ ho => .inl ho, fun _ he => .inl he⟩
  | @adds l _ hd hl _ _ =>
    refine ⟨fun l' ho => ?_, fun e he => .inl he⟩
    rcases SymbolGraph.occupied_append_iff.mp ho with ho | ⟨a, ha, hal⟩
    · exact .inl ho
    · cases ha
      exact .inr ⟨id, rfl, .inl hd, l, hl, hal⟩

/-- **Visiting a node adds for what is at or below it only.** -/
theorem visit_addsOnly (lu : LocatedUnit) (tree : CursorTree) (i : Nat) :
    ∀ (siblings : List Nat) (owner : Nat) (s : Declarations SymbolGraph),
      AddsOnly lu tree (fun m => i ∈ Branch.lineage (CursorTree.links tree.nodes) m) s
        (visit lu tree siblings owner (tree.branchAt i) s) := by
  induction i using tree.climb with
  | step i ih =>
    intro siblings owner s
    have hstep := (enters lu tree siblings owner s i).addsOnly.mono
      (Q := fun m => i ∈ Branch.lineage (CursorTree.links tree.nodes) m)
      (fun m hm => by rw [hm]; exact Branch.self_mem_lineage i)
    rw [visit_branchAt]
    split
    · rename_i s' he
      rw [he] at hstep
      exact hstep
    · rename_i s' owner' he
      rw [he] at hstep
      refine hstep.trans (List.foldlRecOn (motive := AddsOnly lu tree _ s') _ _ (.refl s') ?_)
      intro t ht c hc
      have hic := CursorTree.mem_lineage_of_inside hc (Branch.self_mem_lineage i)
      exact ht.trans ((ih c hc _ owner' t).mono fun m hm => Branch.mem_lineage_trans hic hm)

/-- Nothing has been added yet but for nodes to which the pass comes before `i`. -/
def Front (lu : LocatedUnit) (tree : CursorTree) (g : SymbolGraph) (s : Declarations SymbolGraph)
    (i : Nat) : Prop :=
  AddsOnly lu tree (tree.Before · i) { graph := g } s

/-- When the pass goes on inside, nothing has been added but for what comes before. -/
theorem Enters.front {siblings : List Nat} {owner id c : Nat} {s : Declarations SymbolGraph}
    {done : Declarations SymbolGraph × Option Nat} (h : Enters lu tree siblings owner s id done)
    (hfront : Front lu tree g s id) (hc : c ∈ tree.inside id) : Front lu tree g done.1 c := by
  have hbefore : AddsOnly lu tree (tree.Before · c) { graph := g } s :=
    AddsOnly.mono (fun m hm => hm.inside hc) hfront
  exact hbefore.trans (h.addsOnly.mono fun m hm => by rw [hm]; exact tree.before_of_inside hc)

/-! ## Nodes that are dealt with -/

/-- What has become of a node.  A macro expansion is kept only if no definition of its name stands
    in front of it. -/
structure Handled (lu : LocatedUnit) (tree : CursorTree) (s : Declarations SymbolGraph)
    (x : Nat) : Prop where
  declared : ¬tree.PassesThrough lu x → (lu.unit.category (tree.cursor x)).declares = true →
    ∀ l, lu.place (tree.cursor x) = some l → s.graph.occupied l = true
  used : lu.unit.category (tree.cursor x) = .reference →
    ∀ l, lu.place (tree.cursor x) = some l → s.graph.occupied l = true ∨
      (∃ e ∈ s.pending, (e.1 == l) = true ∧ (e.2 = x ∨ tree.Before e.2 x)) ∧
        (lu.unit.kind (tree.cursor x) = .macroExpansion →
          ∀ m, tree.MacroBeside lu x m → m < x → lu.place (tree.cursor m) = none)

theorem Handled.mono {s s' : Declarations SymbolGraph} (h : Advances lu tree s s') {x : Nat}
    (hx : Handled lu tree s x) : Handled lu tree s' x where
  declared hp hd l hl := h.grows.extends_.occupied (hx.declared hp hd l hl)
  used hc l hl := by
    rcases hx.used hc l hl with ho | ⟨⟨e, he, hel⟩, hdefinitions⟩
    · exact .inl (h.grows.extends_.occupied ho)
    · exact .inr ⟨⟨e, h.kept e he, hel⟩, hdefinitions⟩

theorem exists_mem_pending_keep (s : Declarations SymbolGraph) (l : Location) (id : Nat) :
    ∃ e ∈ (s.keep l id).pending, (e.1 == l) = true := by
  unfold keep
  split
  · rename_i hany
    exact List.any_eq_true.mp hany
  · exact ⟨(l, id), List.mem_append_right _ (List.mem_singleton_self _), BEq.refl l⟩

theorem siblingMacro_eq_none {g : SymbolGraph} {siblings : List Nat} {id m : Nat}
    (h : siblingMacro lu tree g siblings (lu.unit.spelling (tree.cursor id)) = none)
    (hbeside : tree.MacroBeside lu id m) (hm : m ∈ siblings) :
    (lu.place (tree.cursor m)).bind g.nodeAt = none := by
  have hnone := List.findSome?_eq_none_iff.mp h m hm
  simp only at hnone
  rwa [if_pos ⟨hbeside.kind, hbeside.name⟩] at hnone

/-- A step deals with its node, if what stands in front of it was dealt with. -/
theorem Enters.handled {siblings : List Nat} {owner id : Nat} {s : Declarations SymbolGraph}
    {done : Declarations SymbolGraph × Option Nat} (h : Enters lu tree siblings owner s id done)
    (hfront : Front lu tree g s id) (hsiblings : ∀ m, tree.Siblings id m → m ∈ siblings)
    (hbefore : ∀ m ∈ siblings, m < id → Handled lu tree s m) : Handled lu tree done.1 id := by
  cases h with
  | passes hp => exact ⟨fun hnot => absurd hp hnot, fun hc => absurd hc hp.category_ne⟩
  | skips hc ho =>
    exact ⟨fun _ hd => absurd hc (Category.ne_reference hd), fun _ l hl => .inl (ho l hl)⟩
  | @keeps l hc hl hf hm =>
    refine ⟨fun _ hd => absurd hc (Category.ne_reference hd), fun _ =>
      LocatedUnit.forall_place hl (.inr ⟨?_, ?_⟩)⟩
    · obtain ⟨e, he, hel⟩ := exists_mem_pending_keep s l id
      refine ⟨e, he, hel, ?_⟩
      -- the entry is that of the node itself, or one that was kept before
      rcases mem_pending_keep he with hold | rfl
      · exact .inr ((hfront.pending e hold).resolve_left List.not_mem_nil)
      · exact .inl rfl
    · refine fun hk m hbeside hlt => Classical.byContradiction fun hplaced => ?_
      -- a definition in front is in the graph by now, and would have been found
      obtain ⟨lm, hlm⟩ := Option.ne_none_iff_exists'.mp hplaced
      have hmem := hsiblings m hbeside.siblings
      obtain ⟨hnot, hd⟩ := hbeside.declares hplaced
      have ho := (hbefore m hmem hlt).declared hnot hd lm hlm
      have hnone := siblingMacro_eq_none (hm hk) hbeside hmem
      rw [hlm, Option.bind_some] at hnone
      exact SymbolGraph.not_occupied hnone ho
  | @expands l definition hk hl hf hm =>
    have hc := category_of_macroExpansion hk
    exact ⟨fun _ hd => absurd hc (Category.ne_reference hd),
      fun _ => LocatedUnit.forall_place hl (.inl (SymbolGraph.occupied_append rfl))⟩
  | counts _ hd hl ho =>
    exact ⟨fun _ _ => LocatedUnit.forall_place hl ho,
      fun hc => absurd hc (Category.ne_reference hd)⟩
  | adds _ hd hl _ _ =>
    exact ⟨fun _ _ => LocatedUnit.forall_place hl (SymbolGraph.occupied_append rfl),
      fun hc => absurd hc (Category.ne_reference hd)⟩

/-- Visiting some of the nodes directly below advances. -/
theorem foldl_visit_advances {p owner : Nat} (hp : p ∈ tree.preorder) {rest : List Nat}
    (hrest : ∀ c ∈ rest, c ∈ tree.inside p) {s : Declarations SymbolGraph}
    (howner : Encloses s.graph owner) :
    Advances lu tree s (rest.foldl
      (fun s b => visit lu tree (tree.inside p) owner (tree.branchAt b) s) s) := by
  refine List.foldlRecOn (motive := Advances lu tree s) _ _ (.refl s) fun t ht c hc => ?_
  have hinside := hrest c hc
  exact ht.trans (visit_advances lu tree c owner (CursorTree.mem_preorder_of_inside hp hinside) _ t
    (fun m hm => ⟨p, hinside, hm⟩) (howner.mono ht.grows.extends_))

/-- Visiting a node deals with it, if what stands in front of it was dealt with. -/
theorem visit_handled {siblings : List Nat} {owner i : Nat} {s : Declarations SymbolGraph}
    (hi : i ∈ tree.preorder) (howner : Encloses s.graph owner)
    (hsiblings : ∀ m, tree.Siblings i m ↔ m ∈ siblings) (hfront : Front lu tree g s i)
    (hbefore : ∀ m ∈ siblings, m < i → Handled lu tree s m) :
    Handled lu tree (visit lu tree siblings owner (tree.branchAt i) s) i := by
  have hstep := enters lu tree siblings owner s i
  have hadvances := hstep.advances hi (fun m hm => (hsiblings m).mpr hm) howner
  have hhandled := hstep.handled hfront (fun m hm => (hsiblings m).mp hm) hbefore
  rw [visit_branchAt]
  split
  · rename_i s' he
    rw [he] at hhandled
    exact hhandled
  · rename_i s' owner' he
    rw [he] at hhandled hadvances
    exact hhandled.mono (foldl_visit_advances hi (fun _ hc => hc) (hadvances.2 owner' rfl))

/-- The first pass has gone through these of the nodes directly below a node. -/
structure Along (lu : LocatedUnit) (tree : CursorTree) (g : SymbolGraph) (p owner : Nat)
    (done : List Nat) (s : Declarations SymbolGraph) : Prop where
  encloses : Encloses s.graph owner
  front : ∀ c ∈ tree.inside p, (∀ b ∈ done, b < c) → Front lu tree g s c
  handled : ∀ m ∈ done, Handled lu tree s m

/-- Going on with the next node directly below. -/
theorem Along.step {p owner c : Nat} {done rest : List Nat} {s : Declarations SymbolGraph}
    (hp : p ∈ tree.preorder) (hall : tree.inside p = done ++ c :: rest)
    (h : Along lu tree g p owner done s) :
    Along lu tree g p owner (done ++ [c])
      (visit lu tree (tree.inside p) owner (tree.branchAt c) s) := by
  have hc : c ∈ tree.inside p := hall ▸ List.mem_append_right _ List.mem_cons_self
  have hmem := CursorTree.mem_preorder_of_inside hp hc
  obtain ⟨hlt, hearlier⟩ := CursorTree.lt_of_inside_split hall
  have hadvances := visit_advances lu tree c owner hmem (tree.inside p) s
    (fun m hm => ⟨p, hc, hm⟩) h.encloses
  refine ⟨h.encloses.mono hadvances.grows.extends_, fun d hd hbehind => ?_, fun m hm => ?_⟩
  · have hold := h.front d hd fun b hb => hbehind b (List.mem_append_left _ hb)
    have hcd : c < d := hbehind c (List.mem_append_right _ (List.mem_singleton_self c))
    exact hold.trans ((visit_addsOnly lu tree c _ owner s).mono
      fun m hm => CursorTree.before_of_beside hc hd hcd hm)
  · rcases List.mem_append.mp hm with hm | hm
    · exact (h.handled m hm).mono hadvances
    · rw [List.mem_singleton.mp hm]
      exact visit_handled hmem h.encloses (fun m => CursorTree.siblings_iff hc) (h.front c hc hlt)
        fun m hm hlt => h.handled m (hearlier m hm hlt)

/-! ## The way of the pass -/

/-- The first pass comes to a node of the tree: with the nodes beside it, the owner of what it adds
    there and the state it is in. -/
inductive Comes (lu : LocatedUnit) (tree : CursorTree) (g : SymbolGraph) :
    List Nat → Nat → Nat → Declarations SymbolGraph → Prop where
  | root : Comes lu tree g [] SymbolGraph.root 0 { graph := g }
  /-- It goes on inside a node, where it visits the nodes one by one. -/
  | inside {siblings before after : List Nat} {owner owner' p c : Nat}
    {s s' : Declarations SymbolGraph} (h : Comes lu tree g siblings owner p s)
    (hinside : enter lu tree siblings owner s p = (s', some owner'))
    (hall : tree.inside p = before ++ c :: after) :
    Comes lu tree g (tree.inside p) owner' c (before.foldl
      (fun s b => visit lu tree (tree.inside p) owner' (tree.branchAt b) s) s')

/-- What holds when the first pass comes to a node: nothing was added but for what comes before,
    what stands in front of it was dealt with, and the pass ends no earlier than the visit. -/
structure Underway (lu : LocatedUnit) (tree : CursorTree) (g : SymbolGraph) (siblings : List Nat)
    (owner i : Nat) (s : Declarations SymbolGraph) : Prop where
  mem : i ∈ tree.preorder
  encloses : Encloses s.graph owner
  beside : ∀ m, tree.Siblings i m ↔ m ∈ siblings
  front : Front lu tree g s i
  handled : ∀ m ∈ siblings, m < i → Handled lu tree s m
  ends : Advances lu tree (visit lu tree siblings owner (tree.branchAt i) s) (build lu tree g)

/-- When the pass goes on inside a node, nothing was added but for what comes before. -/
theorem Underway.along {siblings : List Nat} {owner owner' p : Nat}
    {s s' : Declarations SymbolGraph} (h : Underway lu tree g siblings owner p s)
    (hinside : enter lu tree siblings owner s p = (s', some owner')) :
    Along lu tree g p owner' [] s' := by
  have hstep := enters lu tree siblings owner s p
  have hadvances := hstep.advances h.mem (fun m hm => (h.beside m).mpr hm) h.encloses
  have hfront : ∀ c ∈ tree.inside p, Front lu tree g s' c := fun c hc => by
    have hfront' := hstep.front h.front hc
    rwa [hinside] at hfront'
  rw [hinside] at hadvances
  exact ⟨hadvances.2 owner' rfl, fun c hc _ => hfront c hc, List.forall_mem_nil _⟩

/-- The state that the pass is in when it comes to a node, and how it goes on from there. -/
theorem Comes.underway {siblings : List Nat} {owner i : Nat} {s : Declarations SymbolGraph}
    (h : Comes lu tree g siblings owner i s) : Underway lu tree g siblings owner i s := by
  induction h with
  | root =>
    refine ⟨tree.zero_mem_preorder, .inl rfl, fun m => ⟨?_, fun hm => by cases hm⟩, .refl _,
      List.forall_mem_nil _, .refl _⟩
    rintro ⟨p, hp, _⟩
    exact absurd (Branch.hangs_lt (Branch.mem_directlyBelow.mp hp)) (Nat.not_lt_zero p)
  | @inside siblings before after owner owner' p c s s' _ hinside hall ih =>
    have hc : c ∈ tree.inside p := hall ▸ List.mem_append_right _ List.mem_cons_self
    have hafter : ∀ d ∈ after, d ∈ tree.inside p := fun d hd =>
      hall ▸ List.mem_append_right _ (List.mem_cons_of_mem c hd)
    obtain ⟨hlt, hearlier⟩ := CursorTree.lt_of_inside_split hall
    have halong : Along lu tree g p owner' before (before.foldl
        (fun s b => visit lu tree (tree.inside p) owner' (tree.branchAt b) s) s') :=
      foldl_prefix (motive := Along lu tree g p owner') (ih.along hinside)
        fun done b rest hbefore t ht => by
          have hall' : tree.inside p = done ++ b :: (rest ++ c :: after) := by
            rw [hall, hbefore, List.append_assoc, List.cons_append]
          exact ht.step ih.mem hall'
    -- the visit of the node around it is this visit and those of the nodes after it
    have hends := ih.ends
    rw [visit_branchAt, hinside] at hends
    have hsplit : visitInside lu tree owner' p s' = _ := congrArg (List.foldl _ s') hall
    rw [List.foldl_append, List.foldl_cons] at hsplit
    simp only [hsplit] at hends
    exact ⟨CursorTree.mem_preorder_of_inside ih.mem hc, halong.encloses,
      fun m => CursorTree.siblings_iff hc, halong.front c hc hlt,
      fun m hm hlt => halong.handled m (hearlier m hm hlt),
      (foldl_visit_advances ih.mem hafter (halong.step ih.mem hall).encloses).trans hends⟩

/-- **The first pass deals with every node that it comes to.** -/
theorem Comes.handled {siblings : List Nat} {owner i : Nat} {s : Declarations SymbolGraph}
    (h : Comes lu tree g siblings owner i s) : Handled lu tree (build lu tree g) i := by
  have hunderway := h.underway
  exact (visit_handled hunderway.mem hunderway.encloses hunderway.beside hunderway.front
    hunderway.handled).mono hunderway.ends

/-- Where the pass goes on inside a node, it comes to every node directly below. -/
theorem Comes.goes_inside {siblings : List Nat} {owner owner' p c : Nat}
    {s s' : Declarations SymbolGraph} (h : Comes lu tree g siblings owner p s)
    (hinside : enter lu tree siblings owner s p = (s', some owner')) (hc : c ∈ tree.inside p) :
    ∃ t, Comes lu tree g (tree.inside p) owner' c t := by
  obtain ⟨before, after, hall⟩ := List.append_of_mem hc
  exact ⟨_, h.inside hinside hall⟩

/-- The first pass goes on inside what it goes through, and does nothing else there. -/
theorem Enters.eq_of_passes {siblings : List Nat} {owner id : Nat} {s : Declarations SymbolGraph}
    {done : Declarations SymbolGraph × Option Nat} (h : Enters lu tree siblings owner s id done)
    (hpasses : tree.PassesThrough lu id) : done = (s, some owner) := by
  cases h with
  | passes => rfl
  | skips hc | keeps hc => exact absurd hc hpasses.category_ne
  | expands hk => exact absurd (category_of_macroExpansion hk) hpasses.category_ne
  | counts hp | adds hp => exact absurd hpasses hp

/-- The first pass comes to every node that it reaches from the root. -/
theorem comes_of_reaches {x : Nat} (hx : tree.Reaches lu 0 x) :
    ∃ siblings owner s, Comes lu tree g siblings owner x s := by
  induction hx with
  | refl => exact ⟨_, _, _, .root⟩
  | tail _ hc ih =>
    obtain ⟨siblings, owner, s, h⟩ := ih
    have hinside := (enters lu tree siblings owner s _).eq_of_passes hc.1
    exact ⟨_, _, h.goes_inside hinside hc.2⟩

/-- The first pass deals with every node that it reaches from the root. -/
theorem build_handled (lu : LocatedUnit) (tree : CursorTree) (g : SymbolGraph) {x : Nat}
    (hx : tree.Reaches lu 0 x) : Handled lu tree (build lu tree g) x := by
  obtain ⟨_, _, _, h⟩ := comes_of_reaches (g := g) hx
  exact h.handled

end Declarations

end SymbolAtlas
