import SymbolAtlas.Proofs.GraphInvariant

/-!
# Where the uses of a node go

Uses of a node hang below it, those of a method definition below its declaration if it has one.
`ask` is the graph after a node was asked for its declaration, and `landing` the node below which
its uses go.

A node that was asked is settled: `Asked` says that it is linked or that nothing is found for it.
Later uses and later questions change neither.

Principal results: `matchingDeclaration_eq_none_iff` — when no declaration is found for a method
definition, in terms of the declarations that there are; `asked_ask` — once asked, a node is
settled and its uses go where they went; `Asked.append_reference`, `Asked.ask` — neither another
use nor a question to any node changes where the uses of a settled node go.
-/

set_option autoImplicit false

namespace SymbolAtlas.SymbolGraph

/-! ## Nodes at locations -/

theorem Extends.nodeAt {g h : SymbolGraph} (he : g.Extends h) {l : Location} {i : Nat}
    (hi : g.nodeAt l = some i) : h.nodeAt l = some i := by
  obtain ⟨hlt, htest, hbefore⟩ := Array.findIdx?_eq_some_iff_getElem.mp hi
  have hsame : ∀ j (hj : j < g.nodes.size), ∃ hj' : j < h.nodes.size,
      h.nodes[j].location = g.nodes[j].location := fun j hj => by
    obtain ⟨n, hn, hsym, _⟩ := he j g.nodes[j] (Array.getElem?_eq_getElem hj)
    obtain ⟨hj', rfl⟩ := Array.getElem?_eq_some_iff.mp hn
    exact ⟨hj', congrArg Symbol.location hsym⟩
  obtain ⟨hlt', hloc⟩ := hsame i hlt
  refine Array.findIdx?_eq_some_iff_getElem.mpr ⟨hlt', by rw [hloc]; exact htest, ?_⟩
  intro j hj
  obtain ⟨_, hloc'⟩ := hsame j (by omega)
  rw [hloc']
  exact hbefore j hj

theorem Extends.bind_nodeAt {g h : SymbolGraph} (he : g.Extends h) {place : Option Location}
    {i : Nat} (hi : place.bind g.nodeAt = some i) : place.bind h.nodeAt = some i := by
  obtain ⟨l, hl, hnode⟩ := Option.bind_eq_some_iff.mp hi
  exact Option.bind_eq_some_iff.mpr ⟨l, hl, he.nodeAt hnode⟩

theorem bind_nodeAt_lt {g : SymbolGraph} {place : Option Location} {i : Nat}
    (h : place.bind g.nodeAt = some i) : i < g.size := by
  obtain ⟨l, _, hl⟩ := Option.bind_eq_some_iff.mp h
  exact nodeAt_lt hl

theorem Extends.occupied {g h : SymbolGraph} (he : g.Extends h) {l : Location}
    (ho : g.occupied l = true) : h.occupied l = true := by
  obtain ⟨i, hi⟩ := Option.isSome_iff_exists.mp ho
  exact Option.isSome_iff_exists.mpr ⟨i, he.nodeAt hi⟩

/-- Locations that agree by components hold the same node. -/
theorem occupied_congr {g : SymbolGraph} {a b : Location} (h : (a == b) = true) :
    g.occupied a = g.occupied b := by
  have hsame : ∀ c : Location, (c == a) = (c == b) := fun c => BEq.congr_right h
  unfold occupied nodeAt
  simp only [hsame]

theorem occupied_iff {g : SymbolGraph} {l : Location} :
    g.occupied l = true ↔ ∃ i a, g.place i = some a ∧ (a == l) = true := by
  have hnone := not_congr (g.nodeAt_eq_none_iff (l := l))
  rw [occupied, Option.isSome_iff_ne_none, ne_eq, hnone]
  simp

theorem occupied_append_iff {g : SymbolGraph} {p : Nat} {s : Symbol} {l : Location} :
    (g.append p s).occupied l = true ↔
      g.occupied l = true ∨ ∃ a, s.location = some a ∧ (a == l) = true := by
  rw [occupied_iff, occupied_iff]
  constructor
  · rintro ⟨i, a, ha, hal⟩
    rw [place_append] at ha
    split at ha
    · exact .inr ⟨a, ha, hal⟩
    · exact .inl ⟨i, a, ha, hal⟩
  · rintro (⟨i, a, ha, hal⟩ | ⟨a, ha, hal⟩)
    · obtain ⟨n, hn, _⟩ := place_eq_some_iff.mp ha
      have hne := Nat.ne_of_lt (node?_eq_some_lt hn)
      exact ⟨i, a, by rw [place_append, if_neg hne]; exact ha, hal⟩
    · exact ⟨g.size, a, by rw [place_append, if_pos rfl]; exact ha, hal⟩

theorem occupied_append {g : SymbolGraph} {p : Nat} {s : Symbol} {l : Location}
    (hl : s.location = some l) : (g.append p s).occupied l = true :=
  occupied_append_iff.mpr (.inr ⟨l, hl, BEq.refl l⟩)

theorem nodeAt_link_eq_none_iff {g : SymbolGraph} {d c : Nat} {l : Location} :
    (g.link d c).nodeAt l = none ↔ g.nodeAt l = none := by
  rw [nodeAt_eq_none_iff, nodeAt_eq_none_iff]
  simp only [place_link]

/-! ## What a node is, its link left out -/

/-- The symbol of a node and its owner. -/
def core (g : SymbolGraph) (i : Nat) : Option (Symbol × Option Nat) :=
  (g.node? i).map fun n => (n.toSymbol, n.parent)

theorem core_link (g : SymbolGraph) (d c i : Nat) : (g.link d c).core i = g.core i := by
  unfold core
  rw [node?_link]
  split
  · rw [Option.map_map]
    rfl
  · rfl

theorem core_append (g : SymbolGraph) (p : Nat) (s : Symbol) (i : Nat) :
    (g.append p s).core i = if i = g.size then some (s, some p) else g.core i := by
  unfold core
  rw [node?_append]
  split
  · rfl
  · rfl

theorem core_eq_some_iff {g : SymbolGraph} {i : Nat} {s : Symbol} {p : Option Nat} :
    g.core i = some (s, p) ↔ ∃ n, g.node? i = some n ∧ n.toSymbol = s ∧ n.parent = p := by
  unfold core
  rw [Option.map_eq_some_iff]
  simp only [Prod.mk.injEq]

theorem Extends.core {g h : SymbolGraph} (he : g.Extends h) {i : Nat} {s : Symbol}
    {p : Option Nat} (hi : g.core i = some (s, p)) : h.core i = some (s, p) := by
  obtain ⟨n, hn, rfl, rfl⟩ := core_eq_some_iff.mp hi
  obtain ⟨n', hn', hsym, hpar, _⟩ := he i n hn
  exact core_eq_some_iff.mpr ⟨n', hn', hsym, hpar⟩

theorem Extends.core_eq {g h : SymbolGraph} (he : g.Extends h) {i : Nat} (hi : i < g.size) :
    h.core i = g.core i := by
  have hn : g.node? i = some g.nodes[i] := Array.getElem?_eq_getElem hi
  have hcore := core_eq_some_iff.mpr ⟨_, hn, rfl, rfl⟩
  rw [he.core hcore, hcore]

/-! ## Declarations of a method definition -/

theorem declares_iff_core {g : SymbolGraph} {c i : Nat} :
    g.Declares c i ↔ ∃ n m, g.core i = some n ∧ g.core c = some m ∧
      n.1.category = .methodDefinition ∧ m.1.category = .methodDeclaration ∧ m.2 = n.2 ∧
      m.1.name = n.1.name := by
  constructor
  · rintro ⟨n, m, hn, hm, hnc, hmc, hpar, hname⟩
    exact ⟨_, _, core_eq_some_iff.mpr ⟨n, hn, rfl, rfl⟩, core_eq_some_iff.mpr ⟨m, hm, rfl, rfl⟩,
      hnc, hmc, hpar, hname⟩
  · rintro ⟨⟨s, p⟩, ⟨s', p'⟩, hi, hc, h⟩
    obtain ⟨n, hn, rfl, rfl⟩ := core_eq_some_iff.mp hi
    obtain ⟨m, hm, rfl, rfl⟩ := core_eq_some_iff.mp hc
    exact ⟨n, m, hn, hm, h⟩

/-- `c` declares the method that `i` defines, under the same display name. -/
def Matches (g : SymbolGraph) (c i : Nat) : Prop :=
  g.Declares c i ∧
    (g.core c).map (·.1.displayName) = (g.core i).map (·.1.displayName)

theorem Declares.congr {g h : SymbolGraph} {c i : Nat} (hi : h.core i = g.core i)
    (hc : h.core c = g.core c) : h.Declares c i ↔ g.Declares c i := by
  rw [declares_iff_core, declares_iff_core, hi, hc]

theorem Matches.congr {g h : SymbolGraph} {c i : Nat} (hi : h.core i = g.core i)
    (hc : h.core c = g.core c) : h.Matches c i ↔ g.Matches c i := by
  unfold Matches
  rw [Declares.congr hi hc, hi, hc]

theorem Declares.not_declares {g : SymbolGraph} {c i m : Nat} (h : g.Declares c i) :
    ¬g.Declares m c := by
  rintro ⟨n, _, hn, _, hdefinition, _⟩
  obtain ⟨_, n', _, hn', _, hdeclaration, _⟩ := h
  rw [hn] at hn'
  cases hn'
  rw [hdefinition] at hdeclaration
  cases hdeclaration

/-- The candidates for a definition in the order of their locations. -/
def candidates (g : SymbolGraph) (owner : Nat) (name : String) : List Nat :=
  (g.children owner).filter fun c =>
    (g.node? c).any fun m => m.category == .methodDeclaration && m.name == name

theorem matchingDeclaration_eq {g : SymbolGraph} {i owner : Nat} {n : GraphNode}
    (hn : g.node? i = some n) (hcategory : n.category = .methodDefinition)
    (howner : n.parent = some owner) :
    g.matchingDeclaration i =
      match (g.candidates owner n.name).find? fun c =>
          (g.node? c).any (·.displayName == n.displayName),
        g.candidates owner n.name with
      | some c, _ => some c
      | none, [c] => some c
      | none, _ => none := by
  have hparent : g.parent i = some owner := parent_eq_some_iff.mpr ⟨n, hn, howner⟩
  unfold matchingDeclaration
  rw [hn, Option.bind_eq_bind, Option.bind_some, if_neg (Decidable.not_not.mpr hcategory), hparent]
  rfl

theorem mem_candidates {g : SymbolGraph} {i owner c : Nat} {n : GraphNode}
    (hn : g.node? i = some n) (hcategory : n.category = .methodDefinition)
    (howner : n.parent = some owner) : c ∈ g.candidates owner n.name ↔ g.Declares c i := by
  rw [candidates, List.mem_filter, mem_children, parent_eq_some_iff, Option.any_eq_true]
  constructor
  · rintro ⟨⟨m, hm, hpar⟩, m', hm', htest⟩
    rw [hm] at hm'
    cases hm'
    rw [Bool.and_eq_true, beq_iff_eq, beq_iff_eq] at htest
    exact ⟨n, m, hn, hm, hcategory, htest.1, hpar.trans howner.symm, htest.2⟩
  · rintro ⟨n', m, hn', hm, _, hmc, hpar, hname⟩
    rw [hn] at hn'
    cases hn'
    refine ⟨⟨m, hm, hpar.trans howner⟩, m, hm, ?_⟩
    rw [Bool.and_eq_true, beq_iff_eq, beq_iff_eq]
    exact ⟨hmc, hname⟩

/-- Of the declarations of a definition, those with its display name match it. -/
theorem matches_iff_of_declares {g : SymbolGraph} {i c : Nat} {n : GraphNode}
    (hn : g.node? i = some n) (hd : g.Declares c i) :
    g.Matches c i ↔ (g.node? c).any (·.displayName == n.displayName) = true := by
  have hlt : c < g.nodes.size := hd.lt
  have hm : g.node? c = some g.nodes[c] := Array.getElem?_eq_getElem hlt
  unfold Matches core
  rw [hn, hm, Option.any_some, beq_iff_eq, Option.map_some, Option.map_some, Option.map_some,
    Option.map_some, Option.some.injEq]
  exact and_iff_right hd

/-- No declaration is found for a method definition exactly if none has its display name and there
    is not just one of its name. -/
theorem matchingDeclaration_eq_none_iff {g : SymbolGraph} {i owner : Nat} {n : GraphNode}
    (hn : g.node? i = some n) (hcategory : n.category = .methodDefinition)
    (howner : n.parent = some owner) :
    g.matchingDeclaration i = none ↔
      (∀ c, ¬g.Matches c i) ∧ ¬∃ c, ∀ c', g.Declares c' i ↔ c' = c := by
  have hmem := fun c => mem_candidates (c := c) hn hcategory howner
  have hnodup : (g.candidates owner n.name).Nodup := (g.nodup_children owner).filter _
  rw [matchingDeclaration_eq hn hcategory howner]
  generalize g.candidates owner n.name = found at hmem hnodup
  -- if no candidate has the display name, then a candidate is told only if it is the only one
  cases hfind : found.find? fun c => (g.node? c).any (·.displayName == n.displayName) with
  | some c =>
    have hd : g.Declares c i := (hmem c).mp (List.mem_of_find?_eq_some hfind)
    have htest := List.find?_some hfind
    have hmatches := (matches_iff_of_declares hn hd).mpr htest
    simp only [reduceCtorEq, false_iff, not_and]
    exact fun hnone => absurd hmatches (hnone c)
  | none =>
    have hnone : ∀ c, ¬g.Matches c i := fun c hc =>
      List.find?_eq_none.mp hfind c ((hmem c).mpr hc.1) ((matches_iff_of_declares hn hc.1).mp hc)
    match found, hmem, hnodup with
    | [], hmem, _ =>
      refine iff_of_true rfl ⟨hnone, ?_⟩
      rintro ⟨c, hc⟩
      exact absurd ((hmem c).mpr ((hc c).mpr rfl)) List.not_mem_nil
    | [c], hmem, _ =>
      simp only [reduceCtorEq, false_iff, not_and]
      exact fun _ hmany => hmany ⟨c, fun c' => (hmem c').symm.trans List.mem_singleton⟩
    | a :: b :: rest, hmem, hnodup =>
      refine iff_of_true rfl ⟨hnone, ?_⟩
      rintro ⟨c, hc⟩
      have ha := (hc a).mp ((hmem a).mp List.mem_cons_self)
      have hb := (hc b).mp ((hmem b).mp (List.mem_cons_of_mem _ List.mem_cons_self))
      exact (List.nodup_cons.mp hnodup).1 (ha.trans hb.symm ▸ List.mem_cons_self)

/-- Nothing is found for a node that is no method definition or has no owner. -/
theorem matchingDeclaration_eq_none_of_core {g : SymbolGraph} {i : Nat}
    (h : ∀ s p, g.core i = some (s, some p) → s.category ≠ .methodDefinition) :
    g.matchingDeclaration i = none := by
  unfold matchingDeclaration parent
  cases hn : g.node? i with
  | none => rfl
  | some n =>
    rw [Option.bind_eq_bind, Option.bind_some]
    split
    · rfl
    · rename_i hcategory
      cases hp : n.parent with
      | none =>
        rw [Option.bind_some, hp]
        rfl
      | some p =>
        exact absurd (Decidable.not_not.mp hcategory)
          (h _ p (core_eq_some_iff.mpr ⟨n, hn, rfl, hp⟩))

/-- Whether something is found for a node depends on the node and on what declares it alone. -/
theorem matchingDeclaration_eq_none_congr {g h : SymbolGraph} {i : Nat}
    (hcore : h.core i = g.core i) (hdeclares : ∀ c, h.Declares c i ↔ g.Declares c i)
    (hmatches : ∀ c, h.Matches c i ↔ g.Matches c i) :
    h.matchingDeclaration i = none ↔ g.matchingDeclaration i = none := by
  by_cases hdefines : ∃ s p, g.core i = some (s, some p) ∧ s.category = .methodDefinition
  · obtain ⟨s, p, hg, hcategory⟩ := hdefines
    have hh := hcore.trans hg
    obtain ⟨n, hn, rfl, hpar⟩ := core_eq_some_iff.mp hg
    obtain ⟨n', hn', hsym, hpar'⟩ := core_eq_some_iff.mp hh
    have hcategory' : n'.category = .methodDefinition := by rw [hsym]; exact hcategory
    rw [matchingDeclaration_eq_none_iff hn hcategory hpar,
      matchingDeclaration_eq_none_iff hn' hcategory' hpar']
    simp only [hdeclares, hmatches]
  · have hnot : ∀ s p, g.core i = some (s, some p) → s.category ≠ .methodDefinition :=
      fun s p hs hc => hdefines ⟨s, p, hs, hc⟩
    have hnot' : ∀ s p, h.core i = some (s, some p) → s.category ≠ .methodDefinition :=
      fun s p hs => hnot s p (hcore.symm.trans hs)
    rw [matchingDeclaration_eq_none_of_core hnot, matchingDeclaration_eq_none_of_core hnot']

/-! ## Where uses go -/

/-- The node is a method definition. -/
def isMethodDefinition (g : SymbolGraph) (i : Nat) : Bool :=
  (g.node? i).any (·.category == .methodDefinition)

/-- The graph after a node was asked for its declaration. -/
def ask (g : SymbolGraph) (i : Nat) : SymbolGraph :=
  if g.isMethodDefinition i then (g.methodDeclaration i).2 else g

/-- The node below which uses of a node go. -/
def landing (g : SymbolGraph) (i : Nat) : Nat :=
  if g.isMethodDefinition i then (g.methodDeclaration i).1.getD i else i

/-- Uses of a node go below it or below a declaration of it. -/
theorem WellFormed.landing_cases {g : SymbolGraph} (hg : g.WellFormed) (i : Nat) :
    g.landing i = i ∨ g.Declares (g.landing i) i := by
  unfold landing
  split
  · cases hm : (g.methodDeclaration i).1 with
    | none => exact .inl rfl
    | some c => exact .inr (hg.declares_of_methodDeclaration hm)
  · exact .inl rfl

/-- Asking a node changes nothing, or links what matches if nothing is linked yet. -/
theorem ask_eq (g : SymbolGraph) (i : Nat) :
    g.ask i = g ∨ ∃ c, g.linkedDeclaration i = none ∧ g.matchingDeclaration i = some c ∧
      g.ask i = g.link i c := by
  unfold ask
  split
  · exact g.methodDeclaration_graph i
  · exact .inl rfl

theorem core_ask (g : SymbolGraph) (j i : Nat) : (g.ask j).core i = g.core i := by
  rcases g.ask_eq j with hsame | ⟨c, _, _, hlink⟩
  · rw [hsame]
  · rw [hlink, core_link]

theorem size_ask (g : SymbolGraph) (i : Nat) : (g.ask i).size = g.size := by
  rcases g.ask_eq i with hsame | ⟨c, _, _, hlink⟩
  · rw [hsame]
  · rw [hlink, size_link]

/-- Asking a node again changes nothing: it is linked, or nothing is found for it. -/
def Asked (g : SymbolGraph) (i : Nat) : Prop :=
  g.linkedDeclaration i = none → g.matchingDeclaration i = none

theorem isMethodDefinition_iff_core {g : SymbolGraph} {i : Nat} :
    g.isMethodDefinition i = true ↔
      ∃ s p, g.core i = some (s, p) ∧ s.category = .methodDefinition := by
  unfold isMethodDefinition core
  cases g.node? i with
  | none => simp
  | some n => simp

theorem Asked.landing_eq {g : SymbolGraph} {i : Nat} (h : g.Asked i) :
    g.landing i = if g.isMethodDefinition i then (g.linkedDeclaration i).getD i else i := by
  unfold landing methodDeclaration
  cases hl : g.linkedDeclaration i with
  | some c => rfl
  | none => rw [h hl]

/-- What an asked node keeps while a graph changes: its core, its link, and that no declaration
    shows up if there was none. -/
theorem Asked.congr {g h : SymbolGraph} {i : Nat} (ha : g.Asked i) (hcore : h.core i = g.core i)
    (hlink : h.linkedDeclaration i = g.linkedDeclaration i)
    (hfound : g.matchingDeclaration i = none → h.matchingDeclaration i = none) :
    h.Asked i ∧ h.landing i = g.landing i := by
  have ha' : h.Asked i := fun hl => hfound (ha (hlink.symm.trans hl))
  refine ⟨ha', ?_⟩
  have hdefinition : h.isMethodDefinition i = g.isMethodDefinition i := by
    rw [Bool.eq_iff_iff, isMethodDefinition_iff_core, isMethodDefinition_iff_core, hcore]
  rw [ha'.landing_eq, ha.landing_eq, hdefinition, hlink]

theorem matches_link (g : SymbolGraph) (d c a i : Nat) :
    (g.link d c).Matches a i ↔ g.Matches a i :=
  Matches.congr (core_link g d c i) (core_link g d c a)

theorem declares_append_reference {g : SymbolGraph} {c i p : Nat} {s : Symbol} (hi : i < g.size)
    (hs : s.category = .reference) : (g.append p s).Declares c i ↔ g.Declares c i := by
  have hcore : (g.append p s).core i = g.core i := by
    rw [core_append, if_neg (Nat.ne_of_lt hi)]
  by_cases hc : c = g.size
  · subst hc
    refine iff_of_false ?_ fun h => Nat.lt_irrefl _ h.lt
    rw [declares_iff_core]
    rintro ⟨n, m, _, hm, _, hcategory, _⟩
    rw [core_append, if_pos rfl] at hm
    cases hm
    rw [hs] at hcategory
    cases hcategory
  · exact Declares.congr hcore (by rw [core_append, if_neg hc])

theorem matches_append_reference {g : SymbolGraph} {c i p : Nat} {s : Symbol} (hi : i < g.size)
    (hs : s.category = .reference) : (g.append p s).Matches c i ↔ g.Matches c i := by
  unfold Matches
  rw [declares_append_reference hi hs]
  refine and_congr_right fun hd => ?_
  rw [core_append, core_append, if_neg (Nat.ne_of_lt hd.lt), if_neg (Nat.ne_of_lt hi)]

theorem Asked.append_reference {g : SymbolGraph} {i p : Nat} {s : Symbol} (ha : g.Asked i)
    (hi : i < g.size) (hs : s.category = .reference) :
    (g.append p s).Asked i ∧ (g.append p s).landing i = g.landing i := by
  have hcore : (g.append p s).core i = g.core i := by
    rw [core_append, if_neg (Nat.ne_of_lt hi)]
  refine ha.congr hcore ?_ fun hnone => ?_
  · unfold linkedDeclaration
    rw [node?_append, if_neg (Nat.ne_of_lt hi)]
  · exact (matchingDeclaration_eq_none_congr hcore (fun c => declares_append_reference hi hs)
      fun c => matches_append_reference hi hs).mpr hnone

/-- Asking any node changes nothing for an asked node. -/
theorem Asked.ask {g : SymbolGraph} {i : Nat} (ha : g.Asked i) (j : Nat) :
    (g.ask j).Asked i ∧ (g.ask j).landing i = g.landing i := by
  rcases g.ask_eq j with hsame | ⟨c, hl, hc, hlink⟩
  · rw [hsame]
    exact ⟨ha, rfl⟩
  · have hne : j ≠ i := by
      rintro rfl
      rw [ha hl] at hc
      cases hc
    rw [hlink]
    refine ha.congr (core_link g j c i) (linkedDeclaration_link_of_ne c hne) fun hnone => ?_
    exact (matchingDeclaration_eq_none_congr (core_link g j c i)
      (fun a => Declares.congr (core_link g j c i) (core_link g j c a))
      fun a => matches_link g j c a i).mpr hnone

theorem methodDeclaration_of_linked {g : SymbolGraph} {i c : Nat}
    (h : g.linkedDeclaration i = some c) : g.methodDeclaration i = (some c, g) := by
  rw [SymbolGraph.methodDeclaration, h]

theorem methodDeclaration_of_matching {g : SymbolGraph} {i c : Nat}
    (hl : g.linkedDeclaration i = none) (h : g.matchingDeclaration i = some c) :
    g.methodDeclaration i = (some c, g.link i c) := by
  rw [SymbolGraph.methodDeclaration, hl, h]
  rfl

theorem methodDeclaration_of_none {g : SymbolGraph} {i : Nat}
    (hl : g.linkedDeclaration i = none) (h : g.matchingDeclaration i = none) :
    g.methodDeclaration i = (none, g) := by
  rw [SymbolGraph.methodDeclaration, hl, h]

/-- Once asked, a node is asked, and its uses go where they went. -/
theorem asked_ask (g : SymbolGraph) (i : Nat) :
    (g.ask i).Asked i ∧ (g.ask i).landing i = g.landing i := by
  cases hd : g.isMethodDefinition i with
  | false =>
    have hsame : g.ask i = g := by rw [ask, hd]; rfl
    rw [hsame]
    refine ⟨fun _ => matchingDeclaration_eq_none_of_core fun s p hs hcategory => ?_, rfl⟩
    rw [isMethodDefinition_iff_core.mpr ⟨s, some p, hs, hcategory⟩] at hd
    cases hd
  | true =>
    have hask : g.ask i = (g.methodDeclaration i).2 := by rw [ask, hd]; rfl
    have hlanding : g.landing i = (g.methodDeclaration i).1.getD i := by rw [landing, hd]; rfl
    rw [hask, hlanding]
    cases hl : g.linkedDeclaration i with
    | some c =>
      have ha : g.Asked i := fun hnone => by rw [hl] at hnone; cases hnone
      rw [methodDeclaration_of_linked hl, ha.landing_eq, hd, hl]
      exact ⟨ha, rfl⟩
    | none =>
      cases hm : g.matchingDeclaration i with
      | none =>
        have ha : g.Asked i := fun _ => hm
        rw [methodDeclaration_of_none hl hm, ha.landing_eq, hd, hl]
        exact ⟨ha, rfl⟩
      | some c =>
        obtain ⟨s, p, hcore, _⟩ := isMethodDefinition_iff_core.mp hd
        obtain ⟨n, hn, _⟩ := core_eq_some_iff.mp hcore
        have hlink : (g.link i c).linkedDeclaration i = some c := by
          rw [linkedDeclaration, node?_link, if_pos rfl, hn]
          rfl
        have ha : (g.link i c).Asked i := fun hnone => by rw [hlink] at hnone; cases hnone
        have hd' : (g.link i c).isMethodDefinition i = true := by
          rw [isMethodDefinition_iff_core, core_link, ← isMethodDefinition_iff_core]
          exact hd
        rw [methodDeclaration_of_matching hl hm, ha.landing_eq, hd', hlink]
        exact ⟨ha, rfl⟩

theorem extends_ask (g : SymbolGraph) (i : Nat) : g.Extends (g.ask i) := by
  rcases g.ask_eq i with hsame | ⟨c, hl, _, hlink⟩
  · rw [hsame]
    exact Extends.refl g
  · rw [hlink]
    exact extends_link c hl

theorem nodeAt_ask_eq_none {g : SymbolGraph} {l : Location} (h : g.nodeAt l = none) (i : Nat) :
    (g.ask i).nodeAt l = none := by
  rcases g.ask_eq i with hsame | ⟨c, _, _, hlink⟩
  · rw [hsame]
    exact h
  · rw [hlink]
    exact nodeAt_link_eq_none_iff.mpr h

end SymbolAtlas.SymbolGraph
