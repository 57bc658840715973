import SymbolAtlas.Proofs.LoweredTrees
import SymbolAtlas.Proofs.LoweredUses
import SymbolAtlas.Proofs.Provenance

/-!
# Lowered units are closed

All that a use in a lowered unit refers to is in that unit.  So indexing the unit, into whatever
graph, comes across no use that names nothing.

The second pass sweeps what stands inside a use as well, and a declaration there would name nothing.
But a use is kept for the second pass only if its place is free, and then nothing hangs below it:
what stands inside a cursor that looks like the use stands inside a declaration that is around the
use, and that has taken the place.

* `TranslationUnit.Closed` — uses refer to declarations of their names.
* `Declarations.Free` — no declaration around a use is at the place of the use.
* `References.Quiet` — no use was told to name nothing.

Principal results: `Declarations.build_free` — uses that are kept are free;
`inside_eq_nil_of_free` — nothing hangs below a free use of a lowered unit;
`ofSource_closed_and_quiet` — lowered units are closed, and indexing them is quiet.
-/

set_option autoImplicit false

namespace SymbolAtlas

/-! ## Closed units -/

/-- All that uses name is in the unit. -/
structure TranslationUnit.Closed (u : TranslationUnit) : Prop where
  /-- A use refers to a declaration, or the definition of a macro, of the name that it spells. -/
  uses : ∀ i < u.size, (u.kind i).isReference = true →
    ∃ target < u.size, u.referenced i = some target ∧ u.spelling target = u.spelling i ∧
      ((u.kind target).isDeclaration = true ∨ u.kind target = .macroDefinition) ∧
      (u.kind target).isReference = false ∧ u.kind target ≠ .unexposed
  /-- What stands for a namespace is no record. -/
  spaces : ∀ i < u.size, u.kind i = .namespaceRef →
    ∀ target, u.referenced i = some target → (u.kind target).isRecord = false
  unexposed : ∀ i < u.size, u.kind i = .unexposed → u.referenced i = none
  /-- A record without a body is linked to a record of its name that has one, if to anything. -/
  forwards : ∀ i < u.size, (u.kind i).isRecord = true → u.isDefinition i = false →
    ∀ d, u.definition i = some d →
      d < u.size ∧ (u.kind d).isRecord = true ∧ u.isDefinition d = true ∧
        u.spelling d = u.spelling i

namespace TranslationUnit.FullyBound

variable {u : TranslationUnit}

theorem uses (h : u.FullyBound) {i : Nat} (hi : i < u.size)
    (hreference : (u.kind i).isReference = true) :
    ∃ target < u.size, u.referenced i = some target ∧ u.spelling target = u.spelling i ∧
      ((u.kind target).isDeclaration = true ∨ u.kind target = .macroDefinition) ∧
      (u.kind target).isReference = false ∧ u.kind target ≠ .unexposed := by
  have hbound := h.bound_of_kind hi fun hkind => by
    rw [hkind] at hreference
    cases hreference
  obtain ⟨target, href, htarget, -⟩ := hbound.rests.names hreference
  rcases htarget with hdeclares | hhas
  · obtain ⟨kind, _, hhas, hdeclaration⟩ := id hdeclares
    rw [← hhas.kind] at hdeclaration
    refine ⟨target, hhas.lt, href, hhas.name, .inl hdeclaration, hdeclares.kind, fun hkind => ?_⟩
    rw [hkind] at hdeclaration
    cases hdeclaration
  · refine ⟨target, hhas.lt, href, hhas.name, .inr hhas.kind, ?_, ?_⟩
    · rw [hhas.kind]
      rfl
    · rw [hhas.kind]
      exact CursorKind.noConfusion

/-- A unit whose cursors are bound is closed. -/
theorem closed (h : u.FullyBound) : u.Closed where
  uses i hi hreference := h.uses hi hreference
  spaces i hi hspace target htarget := by
    have hreference : (u.kind i).isReference = true := by
      rw [hspace]
      rfl
    have hbound := h.bound_of_kind hi (hspace ▸ CursorKind.noConfusion)
    obtain ⟨_, href, -, hrecord⟩ := hbound.rests.names hreference
    cases href.symm.trans htarget
    exact hrecord hspace
  unexposed i hi hunexposed := by
    have hbound := h.bound_of_kind hi (hunexposed ▸ CursorKind.noConfusion)
    have hkind : (u.cursor i).kind = .unexposed := hunexposed
    exact hbound.rests.referenced_eq_none (by rw [hkind]; rfl) (by rw [hkind]; rfl)
  forwards i hi hrecord hbody d hd := by
    have hbound := h.bound_of_kind hi fun hkind => by
      rw [hkind] at hrecord
      cases hrecord
    have hlink : (u.cursor i).definition = some d := by
      rw [definition, hbody] at hd
      rw [← hd]
      cases (u.cursor i).definition <;> rfl
    obtain ⟨kind, hhas, hkind⟩ := (hbound.rests.linked hrecord hbody).definition d hlink
    exact ⟨hhas.lt, hhas.kind ▸ hkind, hhas.isDefinition, hhas.name⟩

end TranslationUnit.FullyBound

/-! ## Uses that are kept -/

variable {lu : LocatedUnit} {tree : CursorTree}

/-- A declaration around a node, into which the first pass does not go without adding it. -/
structure CursorTree.DeclaredAround (lu : LocatedUnit) (tree : CursorTree) (a id : Nat) : Prop where
  mem : a ∈ Branch.lineage (links tree.nodes) id
  ne : a ≠ id
  adds : ¬tree.PassesThrough lu a
  declares : (lu.unit.category (tree.cursor a)).declares = true

namespace Declarations

/-- No declaration around the node is at its place. -/
def Free (lu : LocatedUnit) (tree : CursorTree) (id : Nat) : Prop :=
  ∀ a, tree.DeclaredAround lu a id → ∀ l l', lu.place (tree.cursor a) = some l →
    lu.place (tree.cursor id) = some l' → (l == l') = false

/-- The places of all declarations around the node are taken. -/
def AroundTaken (lu : LocatedUnit) (tree : CursorTree) (g : SymbolGraph) (id : Nat) : Prop :=
  ∀ a, tree.DeclaredAround lu a id → ∀ l, lu.place (tree.cursor a) = some l → g.occupied l = true

theorem AroundTaken.mono {g h : SymbolGraph} (he : g.Extends h) {id : Nat}
    (hg : AroundTaken lu tree g id) : AroundTaken lu tree h id := fun a ha l hl =>
  he.occupied (hg a ha l hl)

/-- A use at a free place is free, when the places of the declarations around it are taken. -/
theorem AroundTaken.free {g : SymbolGraph} {id : Nat} {l : Location}
    (h : AroundTaken lu tree g id) (hl : lu.place (tree.cursor id) = some l)
    (hf : g.nodeAt l = none) : Free lu tree id := fun a ha la l' hla hl' => by
  cases hl.symm.trans hl'
  refine Bool.eq_false_iff.mpr fun heq => SymbolGraph.not_occupied hf ?_
  rw [← SymbolGraph.occupied_congr heq]
  exact h a ha la hla

/-- A step keeps no use but its own, and that only if it is free. -/
theorem Enters.keepsFree {siblings : List Nat} {owner id : Nat} {s : Declarations SymbolGraph}
    {done : Declarations SymbolGraph × Option Nat} (h : Enters lu tree siblings owner s id done)
    (haround : AroundTaken lu tree s.graph id) :
    ∀ e ∈ done.1.pending, e ∈ s.pending ∨ Free lu tree e.2 := by
  cases h with
  | @keeps l _ hl hf _ =>
    exact fun e he => (mem_pending_keep he).imp_right fun heq => by
      rw [heq]
      exact haround.free hl hf
  | passes | skips | expands | counts | adds => exact fun e he => .inl he

/-- When the pass goes on inside, the places of all declarations around are taken. -/
theorem Enters.aroundTaken {siblings : List Nat} {owner owner' id c : Nat}
    {s s' : Declarations SymbolGraph}
    (h : Enters lu tree siblings owner s id (s', some owner'))
    (hgrows : s.graph.Extends s'.graph) (haround : AroundTaken lu tree s.graph id)
    (hc : c ∈ tree.inside id) : AroundTaken lu tree s'.graph c := by
  intro a ha l hl
  rcases (Branch.mem_lineage_of_hangs (Branch.mem_directlyBelow.mp hc)).mp ha.mem with rfl | hmem
  · exact absurd rfl ha.ne
  · by_cases hid : a = id
    · subst hid
      cases h with
      | passes hp => exact absurd hp ha.adds
      | adds _ _ hl' _ _ =>
        cases hl'.symm.trans hl
        exact SymbolGraph.occupied_append rfl
    · exact hgrows.occupied (haround a ⟨hmem, hid, ha.adds, ha.declares⟩ l hl)

/-- Visiting a node keeps free uses only. -/
theorem visit_keepsFree (lu : LocatedUnit) (tree : CursorTree) (i : Nat) :
    ∀ (owner : Nat), i ∈ tree.preorder → ∀ (siblings : List Nat) (s : Declarations SymbolGraph),
      (∀ m ∈ siblings, tree.Siblings i m) → Encloses s.graph owner →
        AroundTaken lu tree s.graph i →
          ∀ e ∈ (visit lu tree siblings owner (tree.branchAt i) s).pending,
            e ∈ s.pending ∨ Free lu tree e.2 := by
  induction i using tree.climb with
  | step i ih =>
    intro owner hi siblings s hsiblings howner haround
    have hstep := enters lu tree siblings owner s i
    have hadvances := hstep.advances hi hsiblings howner
    have hkeeps := hstep.keepsFree haround
    rw [visit_branchAt]
    split
    · rename_i s' he
      rw [he] at hkeeps
      exact hkeeps
    · rename_i s' owner' he
      rw [he] at hstep hadvances hkeeps
      have hinside : ∀ c ∈ tree.inside i, AroundTaken lu tree s'.graph c := fun c hc =>
        hstep.aroundTaken hadvances.1.grows.extends_ haround hc
      -- the graph grows from one node inside to the next, so what was taken stays so
      refine (List.foldlRecOn
        (motive := fun t : Declarations SymbolGraph => Advances lu tree s' t ∧
          ∀ e ∈ t.pending, e ∈ s.pending ∨ Free lu tree e.2) _ _
        ⟨.refl s', hkeeps⟩ fun t ht c hc => ?_).2
      have howner' := (hadvances.2 owner' rfl).mono ht.1.grows.extends_
      have hmem := CursorTree.mem_preorder_of_inside hi hc
      have hvisit := visit_advances lu tree c owner' hmem (tree.inside i) t
        (fun m hm => ⟨i, hc, hm⟩) howner'
      refine ⟨ht.1.trans hvisit, fun e he => ?_⟩
      rcases ih c hc owner' hmem (tree.inside i) t (fun m hm => ⟨i, hc, hm⟩) howner'
        ((hinside c hc).mono ht.1.grows.extends_) e he with hold | hfree
      · exact ht.2 e hold
      · exact .inr hfree

/-- **Uses that the first pass keeps are free.** -/
theorem build_free (lu : LocatedUnit) (tree : CursorTree) (g : SymbolGraph) :
    ∀ e ∈ (build lu tree g).pending, Free lu tree e.2 := by
  intro e he
  refine (visit_keepsFree lu tree 0 SymbolGraph.root tree.zero_mem_preorder [] { graph := g }
    (fun _ hm => by cases hm) (.inl rfl) (fun a ha l hl => ?_) e he).resolve_left List.not_mem_nil
  exact absurd (Nat.le_zero.mp (Branch.le_of_mem_lineage ha.mem)) ha.ne

end Declarations

/-- What is of the kind of a use, but no use itself, is declared. -/
theorem Category.declares_of_ne_reference {k : CursorKind} {d d' : Bool}
    (h : ofCursor k d = .reference) (h' : ofCursor k d' ≠ .reference) :
    (ofCursor k d').declares = true := by
  cases k <;> cases d <;> cases d' <;> first | rfl | exact absurd rfl h' | cases h

/-- A cursor of the category of uses is a use, or a record without a body. -/
theorem Category.reference_of_ofCursor {k : CursorKind} {d : Bool}
    (h : ofCursor k d = .reference) :
    k.isReference = true ∨ k.isRecord = true ∧ d = false := by
  cases k <;> cases d <;> first | exact .inl rfl | exact .inr ⟨rfl, rfl⟩ | cases h

/-- What may become a node is a cursor of the unit. -/
theorem TranslationUnit.lt_size_of_category {u : TranslationUnit} {i : Nat}
    (h : u.category i ≠ .invalid) : i < u.size := by
  refine Nat.lt_of_not_le fun hle => h ?_
  have hdefault : u.cursor i = default := by
    rw [cursor, Array.getD_eq_getD_getElem?, Array.getElem?_eq_none hle]
    rfl
  rw [category, kind, hdefault]
  rfl

namespace CursorTree

/-- Every node but the root of a rebuilt tree has one above it. -/
theorem parent_ne_none (ht : reconstruct lu = .ok tree) {n : Nat} (hn : n < tree.nodes.size)
    (hpos : n ≠ 0) : (tree.node n).parent ≠ none := by
  obtain ⟨q, hq⟩ := (grown_of_reconstruct ht).exists_hangs hn hpos
  rw [parent_of_inside (Branch.mem_directlyBelow.mpr hq)]
  exact Option.some_ne_none q

/-- **Nothing hangs below a free use.**  What stands inside a cursor that looks like the use would
    stand inside a declaration around it, at its place. -/
theorem inside_eq_nil_of_free (hbound : lu.unit.FullyBound) (hreports : lu.ReportsParents)
    (ht : reconstruct lu = .ok tree) {id : Nat}
    (hc : lu.unit.category (tree.cursor id) = .reference) {l : Location}
    (hl : lu.place (tree.cursor id) = some l) (hfree : Declarations.Free lu tree id) :
    tree.inside id = [] := by
  refine List.eq_nil_iff_forall_not_mem.mpr fun c hinside => ?_
  have hhangs := Branch.mem_directlyBelow.mp hinside
  have hfollowing := following_reconstruct hreports ht
  obtain ⟨-, n, hn, hparent, hlike⟩ := hfollowing id c hhangs
  -- the lexical parent of what hangs there is no use
  obtain ⟨hlexical, -⟩ := TranslationUnit.hangs_parents.mp hparent
  obtain ⟨hcpos, hclt⟩ := hfollowing.cursor_bounds hhangs
  obtain ⟨p, -, hp, hreceives⟩ := (hbound.bound _ hcpos hclt).parent
  obtain rfl : cursorOf tree.nodes n = p := Option.some.inj (hlexical.symm.trans hp)
  obtain ⟨hkind, hplace⟩ := Bool.and_eq_true_iff.mp hlike
  have hkinds : lu.unit.kind (tree.cursor id) = lu.unit.kind (tree.cursor n) :=
    eq_of_beq hkind
  have hdeclares : (lu.unit.category (tree.cursor n)).declares = true := by
    rw [TranslationUnit.category, hkinds] at hc
    exact Category.declares_of_ne_reference hc hreceives.category
  have hne : n ≠ id := by
    rintro rfl
    exact hreceives.category hc
  -- and it is at the place of the use
  have hsame : (some l == lu.place (tree.cursor n)) = true := hl ▸ hplace
  cases hln : lu.place (tree.cursor n) with
  | none =>
    rw [hln] at hsame
    cases hsame
  | some l' =>
    rw [hln] at hsame
    have hpos : n ≠ 0 := fun hzero => by
      obtain ⟨_, hroot⟩ := hbound.root
      have hcursor : tree.cursor 0 = 0 := (grown_of_reconstruct ht).cursorOf_zero
      rw [hzero, hcursor, TranslationUnit.category, hroot.kind] at hdeclares
      cases hdeclares
    have hnsize : n < tree.nodes.size := by
      have h1 := Branch.le_of_mem_lineage hn
      have h2 := Branch.hangs_lt hhangs
      have h3 := lt_size_of_hangs hhangs
      omega
    have hadds := not_passesThrough hdeclares (parent_ne_none ht hnsize hpos)
      (hln ▸ Option.some_ne_none l')
    have hapart := hfree n ⟨hn, hne, hadds, hdeclares⟩ l' l hln hl
    have heq : (l' == l) = true := BEq.symm hsame
    rw [heq] at hapart
    cases hapart

end CursorTree

/-! ## The second pass -/

/-- The notice says that a use names nothing. -/
def ReferenceNotice.saysNothingReferenced : ReferenceNotice → Bool
  | .nothingReferenced _ _ _ _ => true
  | .alreadyIndexed _ _ _ _ _ | .duplicate _ => false

namespace References

/-- No use was told to name nothing. -/
def Quiet (notices : List ReferenceNotice) : Prop :=
  ∀ n ∈ notices, n.saysNothingReferenced = false

theorem Quiet.append {notices : List ReferenceNotice} (h : Quiet notices) {n : ReferenceNotice}
    (hn : n.saysNothingReferenced = false) : Quiet (notices ++ [n]) := fun m hm => by
  rcases List.mem_append.mp hm with hm | hm
  · exact h m hm
  · rw [List.mem_singleton.mp hm]
    exact hn

/-- Attaching a use below a node is quiet. -/
theorem insertBelow_quiet {s : References SymbolGraph} (h : Quiet s.notices) (cursor : Nat)
    (l : Location)
    (node : Nat) : Quiet (insertBelow lu s cursor l node).notices := by
  unfold insertBelow
  extract_lets
  split
  split
  · exact h
  · exact h.append rfl

/-- A use that stands for something, or of a kind that commonly does not, is attached quietly. -/
theorem attach_quiet {s : References SymbolGraph} {id : Nat} {l : Location} (h : Quiet s.notices)
    (hl : lu.place (tree.cursor id) = some l)
    (hmeans : silentWhenUnresolved (lu.unit.kind (tree.cursor id)) = true ∨
      ∃ t, lu.Means (tree.cursor id) t) : Quiet (attach lu tree s id l).1.notices := by
  unfold attach
  extract_lets cursor kind
  cases htarget : target lu cursor l with
  | none =>
    rcases hmeans with hsilent | ⟨t, hmeans⟩
    · change Quiet (if silentWhenUnresolved kind then s.notices else _)
      rw [if_pos hsilent]
      exact h
    · rw [(target_eq_some_iff hl).mpr hmeans] at htarget
      cases htarget
  | some t =>
    simp only
    split
    · exact h
    · split
      · exact h
      · exact insertBelow_quiet h cursor l _

/-- A use is handled quietly. -/
theorem site_quiet {s : References SymbolGraph} {id : Nat} (h : Quiet s.notices)
    (hmeans : silentWhenUnresolved (lu.unit.kind (tree.cursor id)) = true ∨
      ∃ t, lu.Means (tree.cursor id) t) :
    Quiet (site lu tree s id (lu.place (tree.cursor id))).1.notices := by
  unfold site
  extract_lets cursor
  split
  · exact h
  · rename_i l hl
    split
    · split
      · exact h.append rfl
      · exact h
    · split
      · exact h
      · exact attach_quiet h hl hmeans

/-- A use in a bound unit stands for something, or is of a kind that commonly does not. -/
theorem means_of_fullyBound (hbound : lu.unit.FullyBound) {c : Nat}
    (hc : lu.unit.category c = .reference) :
    silentWhenUnresolved (lu.unit.kind c) = true ∨ ∃ t, lu.Means c t := by
  have hlt := TranslationUnit.lt_size_of_category fun hinvalid => by cases hc.symm.trans hinvalid
  cases hforwardable : (lu.unit.kind c).isForwardable with
  | true =>
    rcases LocatedUnit.isForwardable_iff.mp hforwardable with hkind | hkind
    · rw [hkind]
      exact .inl rfl
    · rw [hkind]
      exact .inl rfl
  | false =>
    -- only classes and structs may name themselves
    have hmeans : ∀ t, lu.unit.referenced c = some t → lu.Means c t := fun t ht =>
      .referenced (fun hself => by
        rw [LocatedUnit.isForwardable_iff.mpr hself.1] at hforwardable
        cases hforwardable) ht
    rcases Category.reference_of_ofCursor hc with hreference | ⟨hrecord, hbody⟩
    · obtain ⟨t, -, ht, -⟩ := hbound.uses hlt hreference
      exact .inr ⟨t, hmeans t ht⟩
    · have hrests := (hbound.bound_of_kind hlt fun hkind => by
        rw [hkind] at hrecord
        cases hrecord).rests
      rcases (hrests.linked hrecord hbody).referenced with ⟨-, hfollowed⟩ | ⟨t, ht, -⟩
      · cases hforwardable.symm.trans hfollowed
      · exact .inr ⟨t, hmeans t ht⟩

/-- **Resolving the uses that the first pass keeps is quiet**, in a bound unit. -/
theorem resolvePending_quiet (hbound : lu.unit.FullyBound) (hreports : lu.ReportsParents)
    (ht : CursorTree.reconstruct lu = .ok tree) (g : SymbolGraph) {pending : List (Location × Nat)}
    (huses : ∀ e ∈ pending, Declarations.IsUse lu tree e)
    (hfree : ∀ e ∈ pending, Declarations.Free lu tree e.2) :
    Quiet (resolvePending lu tree g pending).notices := by
  rw [resolvePending_eq_foldl fun e he => (huses e he).place]
  refine List.foldlRecOn (motive := fun s : References SymbolGraph => Quiet s.notices) _ _
    (fun _ hn => nomatch hn) fun s hs e he => ?_
  have huse := huses e he
  have hinside := CursorTree.inside_eq_nil_of_free hbound hreports ht huse.category huse.place
    (hfree e he)
  have hsite : Quiet (site lu tree s e.2 _).1.notices :=
    site_quiet hs (means_of_fullyBound hbound huse.category)
  rw [resolveAt_eq]
  split
  · rename_i s' heq
    rw [heq] at hsite
    rw [sweepInside, hinside]
    exact hsite
  · rename_i s' heq
    rw [heq] at hsite
    exact hsite

end References

/-- Indexing a bound unit is quiet. -/
theorem indexTree_quiet {lu : LocatedUnit} {tree : CursorTree} (hbound : lu.unit.FullyBound)
    (hreports : lu.ReportsParents) (ht : CursorTree.reconstruct lu = .ok tree) (g : SymbolGraph) :
    References.Quiet (indexTree lu tree g).1.notices :=
  References.resolvePending_quiet hbound hreports ht _ (Declarations.build_advances lu tree g).2
    (Declarations.build_free lu tree g)

/-- **Lowered units are closed**, whatever the main file and the headers hold: all that is named in
    them is in them.  And indexing such a unit, into any graph, never tells of a use that names
    nothing. -/
theorem ofSource_closed_and_quiet (headers : Headers) (main : Source) :
    (TranslationUnit.ofSource headers main).Closed ∧
      ∀ (fs : FileSystem) (g : SymbolGraph), ∃ report g',
        indexUnit (.ofUnit fs (.ofSource headers main)) g = .ok (report, g') ∧
          ∀ kind name location parent,
            .nothingReferenced kind name location parent ∉ report.notices := by
  have hbound := TranslationUnit.fullyBound_ofSource headers main
  refine ⟨hbound.closed, fun fs g => ?_⟩
  have hreports : LocatedUnit.ReportsParents (.ofUnit fs (.ofSource headers main)) :=
    (TranslationUnit.plain_ofSource headers main).reportsParents _
  obtain ⟨tree, ht⟩ := CursorTree.reconstruct_total hreports
  refine ⟨_, _, indexUnit_eq_ok_iff.mpr ⟨tree, ht, rfl⟩, fun kind name location parent hmem => ?_⟩
  cases indexTree_quiet hbound hreports ht g _ hmem

end SymbolAtlas
