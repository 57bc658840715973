import SymbolAtlas.Queries
import SymbolAtlas.Proofs.MethodUses

/-!
# Uses that are listed with a method definition

The uses of a method definition are listed with those of its declaration, but only if the two are
linked.  The list itself asks for no link: it shows what was asked for while uses were attached.

* `IsUseOf` — a use below a node.
* `StandsFor` — a unit has a use at the place of a node that stands for another.
* `LinksUsed` — every link leads to a declaration below which there is a use of the definition.

Principal results: `WellFormed.mem_uses`, `WellFormed.uses_apart` — what is listed, in order and
once; `linksUsed_ofUnits` — a link was made for a use of the definition; `method_uses_listed` — the
uses of the declaration are listed exactly if there is a link, and they are listed in any case once
the definition was asked for its declaration.
-/

set_option autoImplicit false

namespace SymbolAtlas

theorem Category.isReference_iff {c : Category} : c.isReference = true ↔ c = .reference := by
  cases c <;> simp [isReference]

/-! ## What is listed -/

/-- Where no two places agree, none is dropped. -/
theorem Location.dedup_of_apart {ls : List Location}
    (h : ls.Pairwise fun a b => (a == b) = false) : dedup ls = ls := by
  fun_induction dedup ls with
  | case1 a b rest heq _ =>
    have hne := List.rel_of_pairwise_cons h List.mem_cons_self
    rw [heq] at hne
    cases hne
  | case2 a b rest _ ih => rw [ih h.of_cons]
  | case3 ls _ => rfl

namespace SymbolGraph

variable {g : SymbolGraph}

/-- A use hangs below a node. -/
def IsUseOf (g : SymbolGraph) (r i : Nat) : Prop := g.isReference r = true ∧ g.parent r = some i

theorem mem_referencesTo {r i : Nat} : r ∈ g.referencesTo i ↔ g.IsUseOf r i := by
  rw [referencesTo, List.mem_filter, mem_children, and_comm]
  rfl

theorem isUseOf_iff_core {r i : Nat} :
    g.IsUseOf r i ↔ ∃ s, g.core r = some (s, some i) ∧ s.category = .reference := by
  unfold IsUseOf isReference
  rw [parent_eq_some_iff, Option.any_eq_true]
  constructor
  · rintro ⟨⟨n, hn, hcategory⟩, n', hn', hparent⟩
    rw [hn] at hn'
    cases hn'
    exact ⟨_, core_eq_some_iff.mpr ⟨n, hn, rfl, hparent⟩, Category.isReference_iff.mp hcategory⟩
  · rintro ⟨s, hs, hcategory⟩
    obtain ⟨n, hn, rfl, hparent⟩ := core_eq_some_iff.mp hs
    exact ⟨⟨n, hn, Category.isReference_iff.mpr hcategory⟩, n, hn, hparent⟩

theorem Declares.ne {c d : Nat} (h : g.Declares c d) : d ≠ c := by
  rintro rfl
  obtain ⟨n, m, hn, hm, hdefinition, hdeclaration, _⟩ := h
  rw [hn] at hm
  cases hm
  rw [hdefinition] at hdeclaration
  cases hdeclaration

/-- The nodes whose places are listed for a node. -/
def listed (g : SymbolGraph) (d : Nat) : List Nat :=
  (d :: (g.linkedDeclaration d).toList).flatMap g.referencesTo

theorem mem_listed {r d : Nat} :
    r ∈ g.listed d ↔ g.IsUseOf r d ∨ ∃ c, g.linkedDeclaration d = some c ∧ g.IsUseOf r c := by
  unfold listed
  rw [List.mem_flatMap]
  simp only [List.mem_cons, Option.mem_toList, mem_referencesTo]
  constructor
  · rintro ⟨i, rfl | hi, hr⟩
    · exact .inl hr
    · exact .inr ⟨i, hi, hr⟩
  · rintro (hr | ⟨c, hc, hr⟩)
    · exact ⟨d, .inl rfl, hr⟩
    · exact ⟨c, .inr hc, hr⟩

/-- No node is listed twice: it hangs below one other only. -/
theorem WellFormed.nodup_listed (hg : g.WellFormed) (d : Nat) : (g.listed d).Nodup := by
  have hone : ∀ i, (g.referencesTo i).Nodup := fun i => (g.nodup_children i).filter _
  unfold listed
  cases hl : g.linkedDeclaration d with
  | none =>
    rw [Option.toList_none, List.flatMap_cons, List.flatMap_nil, List.append_nil]
    exact hone d
  | some c =>
    rw [Option.toList_some, List.flatMap_cons, List.flatMap_cons, List.flatMap_nil,
      List.append_nil]
    refine List.nodup_append.mpr ⟨hone d, hone c, fun r hr r' hr' heq => ?_⟩
    have hd := (mem_referencesTo.mp hr).2
    rw [heq, (mem_referencesTo.mp hr').2] at hd
    exact (hg.linked d c hl).ne (Option.some.inj hd).symm

/-- The places of different nodes, put in order, do not agree. -/
theorem WellFormed.sorted_places (hg : g.WellFormed) {nodes : List Nat} (h : nodes.Nodup) :
    ((nodes.filterMap g.place).mergeSort Location.le).Pairwise fun a b =>
      a.le b = true ∧ (a == b) = false := by
  have htotal : ∀ a b : Location, (a.le b || b.le a) = true := fun a b =>
    Bool.or_eq_true_iff.mpr (Location.le_total a b)
  have htrans : ∀ a b c : Location, a.le b = true → b.le c = true → a.le c = true :=
    fun _ _ _ hab hbc => Location.le_trans hab hbc
  have hsorted := List.pairwise_mergeSort htrans htotal (nodes.filterMap g.place)
  have hapart : (nodes.filterMap g.place).Pairwise fun a b => (a == b) = false := by
    rw [List.pairwise_filterMap]
    refine h.imp fun {i j} hne a ha b hb => Bool.eq_false_iff.mpr fun heq => hne ?_
    exact hg.apart i j a b ha hb heq
  have hsymm : ∀ {a b : Location}, (a == b) = false → (b == a) = false := fun {a b} hab => by
    rw [← hab]
    exact BEq.comm
  exact hsorted.and (((List.mergeSort_perm _ _).pairwise_iff hsymm).mpr hapart)

/-- No place is dropped from the list. -/
theorem WellFormed.uses_eq (hg : g.WellFormed) (d : Nat) :
    g.uses d = ((g.listed d).filterMap g.place).mergeSort Location.le := by
  have hapart := (hg.sorted_places (hg.nodup_listed d)).imp fun {a b} hab => hab.2
  rw [uses, Location.sortDedup, ← listed, Location.dedup_of_apart hapart]

/-- The places that are listed for a node: those of its uses, and those of the uses of the
    declaration that it is linked to. -/
theorem WellFormed.mem_uses (hg : g.WellFormed) {d : Nat} {l : Location} :
    l ∈ g.uses d ↔ ∃ r, g.place r = some l ∧
      (g.IsUseOf r d ∨ ∃ c, g.linkedDeclaration d = some c ∧ g.IsUseOf r c) := by
  rw [hg.uses_eq, List.mem_mergeSort, List.mem_filterMap]
  simp only [mem_listed, and_comm]

/-- Places are listed in order, and each of them once. -/
theorem WellFormed.uses_apart (hg : g.WellFormed) (d : Nat) :
    (g.uses d).Pairwise fun a b => a.le b = true ∧ (a == b) = false := by
  rw [hg.uses_eq]
  exact hg.sorted_places (hg.nodup_listed d)

/-! ## Where links come from -/

theorem IsUseOf.mono {h : SymbolGraph} (he : g.Extends h) {r i : Nat} (hr : g.IsUseOf r i) :
    h.IsUseOf r i := by
  obtain ⟨s, hs, hcategory⟩ := isUseOf_iff_core.mp hr
  exact isUseOf_iff_core.mpr ⟨s, he.core hs, hcategory⟩

theorem Extends.place {h : SymbolGraph} (he : g.Extends h) {i : Nat} {l : Location}
    (hi : g.place i = some l) : h.place i = some l := by
  obtain ⟨n, hn, hl⟩ := place_eq_some_iff.mp hi
  obtain ⟨n', hn', hsymbol, _⟩ := he i n hn
  exact place_eq_some_iff.mpr ⟨n', hn', (congrArg Symbol.location hsymbol).trans hl⟩

theorem Extends.linkedDeclaration {h : SymbolGraph} (he : g.Extends h) {d c : Nat}
    (hd : g.linkedDeclaration d = some c) : h.linkedDeclaration d = some c := by
  obtain ⟨n, hn, hlink⟩ := linkedDeclaration_eq_some_iff.mp hd
  obtain ⟨n', hn', _, _, hkept⟩ := he d n hn
  exact linkedDeclaration_eq_some_iff.mpr ⟨n', hn', hkept c hlink⟩

/-- A unit has a use at the place of `r` that is one of the node `d`. -/
def StandsFor (us : List LocatedUnit) (g : SymbolGraph) (r d : Nat) : Prop :=
  ∃ lu ∈ us, ∃ tree, CursorTree.reconstruct lu = .ok tree ∧ ∃ id ∈ tree.preorder, ∃ t l,
    g.place r = some l ∧ lu.place (tree.cursor id) = some l ∧ tree.Uses lu id t ∧
      (lu.place t).bind g.nodeAt = some d

variable {us : List LocatedUnit}

theorem StandsFor.mono {h : SymbolGraph} (he : g.Extends h) {r d : Nat}
    (hr : StandsFor us g r d) : StandsFor us h r d := by
  obtain ⟨lu, hlu, tree, htree, id, hid, t, l, hl, hl', ht, hd⟩ := hr
  exact ⟨lu, hlu, tree, htree, id, hid, t, l, he.place hl, hl', ht, he.bind_nodeAt hd⟩

/-- Every link leads to a declaration below which there is a use of the definition. -/
def LinksUsed (us : List LocatedUnit) (g : SymbolGraph) : Prop :=
  ∀ d c, g.linkedDeclaration d = some c → ∃ r, g.IsUseOf r c ∧ StandsFor us g r d

/-- Growing without a new link keeps it so. -/
theorem LinksUsed.of_links {h : SymbolGraph} (hg : LinksUsed us g) (he : g.Extends h)
    (hlinks : h.linkedDeclaration = g.linkedDeclaration) : LinksUsed us h := by
  intro d c hd
  rw [hlinks] at hd
  obtain ⟨r, hr, hstands⟩ := hg d c hd
  exact ⟨r, hr.mono he, hstands.mono he⟩

/-- What is found for a node that is not linked is where its uses go. -/
theorem landing_of_matching {d c : Nat} (hl : g.linkedDeclaration d = none)
    (hm : g.matchingDeclaration d = some c) : g.landing d = c := by
  obtain ⟨n, _, hn, _, hcategory, _⟩ := declares_of_matchingDeclaration hm
  have hdefinition : g.isMethodDefinition d = true := by
    rw [isMethodDefinition, hn, Option.any_some, hcategory]
    rfl
  rw [landing, if_pos hdefinition, methodDeclaration_of_matching hl hm]
  rfl

end SymbolGraph

open SymbolGraph (StandsFor LinksUsed)

variable {us : List LocatedUnit} {lu : LocatedUnit} {tree : CursorTree}

namespace Declarations

/-- A step makes no link. -/
theorem Enters.links {siblings : List Nat} {owner id : Nat} {s : Declarations SymbolGraph}
    {done : Declarations SymbolGraph × Option Nat} (h : Enters lu tree siblings owner s id done) :
    done.1.graph.linkedDeclaration = s.graph.linkedDeclaration := by
  cases h with
  | passes _ => rfl
  | skips _ _ => rfl
  | keeps _ _ _ _ => rw [keep_graph]
  | expands _ _ _ _ => exact SymbolGraph.linkedDeclaration_append _ _ _
  | counts _ _ _ _ => rfl
  | adds _ _ _ _ _ => exact SymbolGraph.linkedDeclaration_append _ _ _

theorem visit_links (lu : LocatedUnit) (tree : CursorTree) (i : Nat) :
    ∀ (siblings : List Nat) (owner : Nat) (s : Declarations SymbolGraph),
      (visit lu tree siblings owner (tree.branchAt i) s).graph.linkedDeclaration =
        s.graph.linkedDeclaration := by
  induction i using tree.climb with
  | step i ih =>
    intro siblings owner s
    have hstep := (enters lu tree siblings owner s i).links
    rw [visit_branchAt]
    split
    · rename_i s' he
      rw [he] at hstep
      exact hstep
    · rename_i s' owner' he
      rw [he] at hstep
      rw [← hstep]
      exact List.foldlRecOn (motive := fun t : Declarations SymbolGraph =>
          t.graph.linkedDeclaration = s'.graph.linkedDeclaration) _ _ rfl
        fun t ht c hc => (ih c hc _ owner' t).trans ht

/-- The first pass makes no link. -/
theorem build_linksUsed {g : SymbolGraph} (hg : LinksUsed us g) :
    LinksUsed us (build lu tree g).graph :=
  hg.of_links (build_advances lu tree g).1.extends_ (visit_links lu tree 0 _ _ _)

end Declarations

namespace References

/-- A step links a definition only when a use of it is attached. -/
theorem Examines.linksUsed (hlu : lu ∈ us) (htree : CursorTree.reconstruct lu = .ok tree) {id : Nat}
    {s : References SymbolGraph} {done : References SymbolGraph × Bool}
      (h : Examines lu tree s id done)
    (hid : id ∈ tree.preorder) (hu : tree.InsideUse lu id) (hs : LinksUsed us s.graph) :
    LinksUsed us done.1.graph := by
  cases h with
  | passes _ _ => exact hs
  | taken _ _ hg _ => rw [hg]; exact hs
  | drops _ _ _ _ hg _ => rw [hg]; exact hs
  | @attaches l t node _ hl hf _ hm ha hn hg _ =>
    rw [hg]
    have happend := (s.graph.ask node).extends_append (s.graph.landing node)
      (lu.symbol .reference (tree.cursor id) l)
    have hext := (s.graph.extends_ask node).trans happend
    have hlinks := (s.graph.ask node).linkedDeclaration_append (s.graph.landing node)
      (lu.symbol .reference (tree.cursor id) l)
    rcases s.graph.ask_eq node with hsame | ⟨c, hnone, hmatching, hlink⟩
    · exact hs.of_links hext (hlinks.trans (by rw [hsame]))
    · intro d c' hd
      rw [hlinks, hlink] at hd
      by_cases hnode : node = d
      · -- the use that is attached is one of the node that is linked now
        subst hnode
        rw [SymbolGraph.linkedDeclaration_link hmatching] at hd
        cases hd
        have hland := SymbolGraph.landing_of_matching hnone hmatching
        have hsize := s.graph.size_ask node
        refine ⟨s.graph.size, SymbolGraph.isUseOf_iff_core.mpr
          ⟨lu.symbol .reference (tree.cursor id) l, ?_, rfl⟩, lu, hlu, tree, htree, id, hid, t, l,
          ?_, hl, .target hu hm ha, hext.bind_nodeAt hn⟩
        · rw [SymbolGraph.core_append, hsize, if_pos rfl, hland]
        · rw [SymbolGraph.place_append, hsize, if_pos rfl]
          rfl
      · rw [SymbolGraph.linkedDeclaration_link_of_ne c hnode] at hd
        obtain ⟨r, hr, hstands⟩ := hs d c' hd
        exact ⟨r, hr.mono hext, hstands.mono hext⟩

/-- Resolving a use with its inside makes links for uses only. -/
theorem resolveAt_linksUsed (hlu : lu ∈ us) (htree : CursorTree.reconstruct lu = .ok tree)
    (i : Nat) : i ∈ tree.preorder → tree.InsideUse lu i → ∀ s : References SymbolGraph,
      LinksUsed us s.graph → LinksUsed us (resolveAt lu tree i s).graph := by
  induction i using tree.climb with
  | step i ih =>
    intro hi hu s hs
    have hstep := (examines lu tree s i).linksUsed hlu htree hi hu hs
    rw [resolveAt_eq]
    split
    · rename_i s' he
      rw [he] at hstep
      exact List.foldlRecOn
        (motive := fun t : References SymbolGraph => LinksUsed us t.graph) _ _ hstep
        fun t ht c hc => ih c hc (CursorTree.mem_preorder_of_inside hi hc) (hu.of_inside hc) t ht
    · rename_i s' he
      rw [he] at hstep
      exact hstep

/-- The second pass makes links for uses only. -/
theorem resolvePending_linksUsed (hlu : lu ∈ us) (htree : CursorTree.reconstruct lu = .ok tree)
    {pending : List (Location × Nat)} (hp : ∀ e ∈ pending, Declarations.IsUse lu tree e)
    {g : SymbolGraph} (hg : LinksUsed us g) :
    LinksUsed us (resolvePending lu tree g pending).graph := by
  rw [resolvePending_eq_foldl fun e he => (hp e he).place]
  exact List.foldlRecOn (motive := fun t : References SymbolGraph => LinksUsed us t.graph) _ _ hg
    fun t ht e he =>
      resolveAt_linksUsed hlu htree e.2 (hp e he).mem (.of_category (hp e he).category) t ht

end References

namespace SymbolGraph

theorem linksUsed_index (hlu : lu ∈ us) {g : SymbolGraph} (hg : LinksUsed us g) :
    LinksUsed us ((Operation.index lu).apply g) := by
  unfold Operation.apply
  simp only
  split
  · rename_i report g' hi
    obtain ⟨tree, htree, hdone⟩ := indexUnit_eq_ok_iff.mp hi
    cases hdone
    exact References.resolvePending_linksUsed hlu htree (Declarations.build_advances lu tree g).2
      (Declarations.build_linksUsed hg)
  · exact hg

/-- **Every link was made for a use of the definition**, which hangs below the declaration. -/
theorem linksUsed_ofUnits (us : List LocatedUnit) : LinksUsed us (ofUnits us) := by
  refine List.foldlRecOn (motive := LinksUsed us) _ _ (fun d c hd => ?_)
    fun g hg _ hlu => linksUsed_index hlu hg
  obtain ⟨n, hn, hlink⟩ := linkedDeclaration_eq_some_iff.mp hd
  obtain rfl : d = 0 := Nat.lt_one_iff.mp (node?_eq_some_lt hn)
  cases hn
  cases hlink

/-- If a definition is not linked to its declaration, then the uses of the declaration are uses of
    something else. -/
theorem standsFor_other {d c r : Nat} (hne : d ≠ c) (hl : (ofUnits us).linkedDeclaration d ≠ some c)
    (hr : (ofUnits us).IsUseOf r c) : ∃ d', d' ≠ d ∧ StandsFor us (ofUnits us) r d' := by
  obtain ⟨s, hs, hreference⟩ := isUseOf_iff_core.mp hr
  have hgrown := ofUnits_growsBy us
  have hpos := (wellFormed_of_growsBy hgrown).pos_of_owner hs
  obtain ⟨k, p, hp, ⟨lu, hlu, tree, htree, hcause⟩, hsize, _, hrest, _⟩ := hgrown.origin hpos hs
  cases hp
  have hext := (k.extends_append c s).trans hrest.extends_
  have hplace : ∀ l, s.location = some l → (ofUnits us).place r = some l := fun l hl => by
    refine hrest.extends_.place ?_
    rw [place_append, if_pos hsize.symm]
    exact hl
  rcases hcause with hcause | hcause
  · cases hcause with
    | declared _ _ hd _ => exact absurd hreference (Category.ne_reference hd)
    | expanded hid hk hl' hm hp =>
      exact ⟨c, hne.symm, lu, hlu, tree, htree, _, hid, _, _, hplace _ rfl, hl',
        .macroDefinition hk hm, hext.bind_nodeAt hp⟩
  · generalize hland : c = landing at hcause
    cases hcause with
    | @used id t d' l hid hu hl' hm ha hd hasked =>
      refine ⟨d', ?_, lu, hlu, tree, htree, id, hid, t, l, hplace l rfl, hl', .target hu hm ha,
        hext.bind_nodeAt hd⟩
      -- the definition itself would have been linked before the use was attached
      rintro rfl
      refine hl (hext.linkedDeclaration ?_)
      rw [hasked.landing_eq] at hland
      split at hland
      · cases hlinked : k.linkedDeclaration d' with
        | none =>
          rw [hlinked] at hland
          exact absurd hland.symm hne
        | some c' =>
          rw [hlinked] at hland
          rw [hland]
          rfl
      · exact absurd hland.symm hne

/-! ## The list of a definition -/

variable {g : SymbolGraph}

/-- A node that was asked is linked to what it was told. -/
theorem linkedDeclaration_methodDeclaration {d c : Nat} (h : (g.methodDeclaration d).1 = some c) :
    (g.methodDeclaration d).2.linkedDeclaration d = some c := by
  cases hl : g.linkedDeclaration d with
  | some c' =>
    rw [methodDeclaration_of_linked hl] at h ⊢
    exact hl.trans h
  | none =>
    cases hm : g.matchingDeclaration d with
    | some c' =>
      rw [methodDeclaration_of_matching hl hm] at h ⊢
      exact (linkedDeclaration_link hm).trans h
    | none =>
      rw [methodDeclaration_of_none hl hm] at h
      cases h

/-- Nothing but links changes when a node is asked. -/
theorem place_methodDeclaration (g : SymbolGraph) (d i : Nat) :
    (g.methodDeclaration d).2.place i = g.place i := by
  rcases g.methodDeclaration_graph d with hsame | ⟨c, _, _, hlink⟩
  · rw [hsame]
  · rw [hlink, place_link]

theorem isUseOf_methodDeclaration {d r i : Nat} :
    (g.methodDeclaration d).2.IsUseOf r i ↔ g.IsUseOf r i := by
  rw [isUseOf_iff_core, isUseOf_iff_core]
  rcases g.methodDeclaration_graph d with hsame | ⟨c, _, _, hlink⟩
  · rw [hsame]
  · rw [hlink, core_link]

/-- Once a definition was asked, its uses are listed with those of its declaration. -/
theorem WellFormed.mem_uses_asked (hg : g.WellFormed) {d c : Nat}
    (h : (g.methodDeclaration d).1 = some c) {l : Location} :
    l ∈ (g.methodDeclaration d).2.uses d ↔
      ∃ r, g.place r = some l ∧ (g.IsUseOf r d ∨ g.IsUseOf r c) := by
  rw [(hg.methodDeclaration d).mem_uses, linkedDeclaration_methodDeclaration h]
  simp only [place_methodDeclaration, isUseOf_methodDeclaration, Option.some.injEq,
    exists_eq_left']

/-- The declaration of a definition is found if it matches and there is no other. -/
theorem WellFormed.methodDeclaration_of_sole (hg : g.WellFormed) {d c : Nat} (hm : g.Matches c d)
    (hsole : ∀ c', g.Declares c' d → c' = c) : (g.methodDeclaration d).1 = some c := by
  cases hfound : (g.methodDeclaration d).1 with
  | some c' => rw [hsole c' (hg.declares_of_methodDeclaration hfound)]
  | none =>
    cases hl : g.linkedDeclaration d with
    | some c' =>
      rw [methodDeclaration_of_linked hl] at hfound
      cases hfound
    | none =>
      cases hmatching : g.matchingDeclaration d with
      | some c' =>
        rw [methodDeclaration_of_matching hl hmatching] at hfound
        cases hfound
      | none => exact absurd hm (hg.not_matches hmatching c)

/-- A definition for which a declaration is found is linked to that one or to none. -/
theorem linkedDeclaration_of_methodDeclaration {d c c' : Nat}
    (h : (g.methodDeclaration d).1 = some c) (hl : g.linkedDeclaration d = some c') : c' = c := by
  rw [methodDeclaration_of_linked hl] at h
  exact Option.some.inj h

/-- **What is listed with a method definition for which a declaration is found.**  The list is in
    order and without repetition, and has all uses of the definition.  It has those of the
    declaration if the two are linked, which takes a use of the definition among them; if they are
    not, then all of them are uses of other nodes.  Asking for the declaration makes the list
    complete. -/
theorem method_uses_listed (us : List LocatedUnit) {d c : Nat}
    (h : ((ofUnits us).methodDeclaration d).1 = some c) :
    let g := ofUnits us
    ((g.uses d).Pairwise fun a b => a.le b = true ∧ (a == b) = false) ∧
      (∀ l, l ∈ g.uses d ↔ ∃ r, g.place r = some l ∧
        (g.IsUseOf r d ∨ g.linkedDeclaration d = some c ∧ g.IsUseOf r c)) ∧
      (g.linkedDeclaration d = some c → ∃ r, g.IsUseOf r c ∧ StandsFor us g r d) ∧
      (g.linkedDeclaration d ≠ some c → ∀ r, g.IsUseOf r c →
        ∃ d', d' ≠ d ∧ StandsFor us g r d') ∧
      ∀ l, l ∈ (g.methodDeclaration d).2.uses d ↔
        ∃ r, g.place r = some l ∧ (g.IsUseOf r d ∨ g.IsUseOf r c) := by
  intro g
  have hg : g.WellFormed := wellFormed_of_growsBy (ofUnits_growsBy us)
  have hne : d ≠ c := (hg.declares_of_methodDeclaration h).ne
  refine ⟨hg.uses_apart d, fun l => ?_, linksUsed_ofUnits us d c,
    fun hl r hr => standsFor_other hne hl hr, fun l => hg.mem_uses_asked h⟩
  rw [hg.mem_uses]
  refine exists_congr fun r => and_congr_right fun _ => or_congr_right ⟨?_, fun hc => ⟨c, hc⟩⟩
  rintro ⟨c', hlinked, hr⟩
  obtain rfl := linkedDeclaration_of_methodDeclaration h hlinked
  exact ⟨hlinked, hr⟩

/-- A method that is declared, used inside its class and defined further below. -/
def methodUnit : LocatedUnit :=
  .ofUnit {} {
    mainFile := ⟨"/w/a.cpp"⟩
    cursors := #[
      { kind := .translationUnit, spelling := "/w/a.cpp", position := .none },
      { kind := .structDecl, spelling := "S", position := ⟨some ⟨"/w/a.cpp"⟩, 1, 8⟩,
        isDefinition := true, parent := some 0 },
      { kind := .method, spelling := "run", displayName := some "run()",
        position := ⟨some ⟨"/w/a.cpp"⟩, 1, 17⟩, parent := some 1 },
      { kind := .method, spelling := "go", displayName := some "go()",
        position := ⟨some ⟨"/w/a.cpp"⟩, 1, 29⟩, isDefinition := true, parent := some 1 },
      { kind := .declRefExpr, spelling := "run", position := ⟨some ⟨"/w/a.cpp"⟩, 1, 36⟩,
        parent := some 3, referenced := some 2 },
      { kind := .method, spelling := "run", displayName := some "run()",
        position := ⟨some ⟨"/w/a.cpp"⟩, 2, 9⟩, isDefinition := true, parent := some 0,
        semanticParent := some 1 }] }

/-- The graph of that unit. -/
def methodGraph : SymbolGraph := ofUnits [methodUnit]

/-- The declaration is found for the definition, and the use hangs below it; but nothing asked, and
    the use is not listed with the definition. -/
theorem methodGraph_found :
    (methodGraph.methodDeclaration 4).1 = some 2 ∧ methodGraph.IsUseOf 5 2 ∧
      methodGraph.linkedDeclaration 4 ≠ some 2 ∧ (methodGraph.uses 4).length = 0 ∧
      ∃ l, methodGraph.place 5 = some l := by
  have hg : methodGraph.WellFormed := wellFormed_of_growsBy (ofUnits_growsBy [methodUnit])
  have hdefinition : (methodGraph.node? 4).any (fun n => decide (n.category = .methodDefinition ∧
      n.parent = some 1 ∧ n.name = "run" ∧ n.displayName = "run()")) = true := by
    decide +kernel
  have hdeclaration : (methodGraph.node? 2).any (fun n => decide (n.category = .methodDeclaration ∧
      n.parent = some 1 ∧ n.name = "run" ∧ n.displayName = "run()")) = true := by
    decide +kernel
  have hsole : ∀ i, i < methodGraph.size →
      (methodGraph.node? i).any (fun n => decide (n.category = .methodDeclaration)) = true →
        i = 2 := by
    decide +kernel
  obtain ⟨n, hn, hn'⟩ := (Option.any_eq_true _ _).mp hdefinition
  obtain ⟨m, hm, hm'⟩ := (Option.any_eq_true _ _).mp hdeclaration
  obtain ⟨hnc, hnp, hnn, hnd⟩ := of_decide_eq_true hn'
  obtain ⟨hmc, hmp, hmn, hmd⟩ := of_decide_eq_true hm'
  refine ⟨hg.methodDeclaration_of_sole ⟨⟨n, m, hn, hm, hnc, hmc, hmp.trans hnp.symm,
    hmn.trans hnn.symm⟩, ?_⟩ fun c hc => ?_, ⟨by decide +kernel, by decide +kernel⟩,
    by decide +kernel, by decide +kernel, Option.isSome_iff_exists.mp (by decide +kernel)⟩
  · unfold core
    rw [hn, hm, Option.map_some, Option.map_some, Option.map_some, Option.map_some]
    exact congrArg some (hmd.trans hnd.symm)
  · have hlt := hc.lt
    obtain ⟨_, m', _, hm', _, hcategory, _⟩ := hc
    refine hsole c hlt ?_
    rw [hm', Option.any_some]
    exact decide_eq_true hcategory

theorem method_uses_listed_asked :
    (methodGraph.methodDeclaration 4).1 = some 2 ∧ (methodGraph.uses 4).length = 0 ∧
      (∃ d, d ≠ 4 ∧ StandsFor [methodUnit] methodGraph 5 d) ∧
      ∃ l, methodGraph.place 5 = some l ∧ l ∈ (methodGraph.methodDeclaration 4).2.uses 4 := by
  obtain ⟨hfound, huse, hunlinked, hnone, l, hl⟩ := methodGraph_found
  obtain ⟨_, _, _, hother, hasked⟩ := method_uses_listed [methodUnit] hfound
  exact ⟨hfound, hnone, hother hunlinked 5 huse, l, hl,
    (hasked l).mpr ⟨5, hl, .inr huse⟩⟩

/-- The use inside the class is not listed with the definition as long as nothing asks. -/
theorem use_not_listed :
    ¬∀ d c, (methodGraph.methodDeclaration d).1 = some c → ∀ r l, methodGraph.IsUseOf r c →
      methodGraph.place r = some l → l ∈ methodGraph.uses d := by
  intro hlisted
  obtain ⟨hfound, huse, _, hnone, l, hl⟩ := methodGraph_found
  have hmem := hlisted 4 2 hfound 5 l huse hl
  rw [List.length_eq_zero_iff.mp hnone] at hmem
  cases hmem

end SymbolGraph

end SymbolAtlas
