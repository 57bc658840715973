import SymbolAtlas.Indexer

/-!
# Passes over graphs that are kept in different ways

The passes over a unit ask a graph a few questions and change it in two ways.  Two graphs that
answer these questions alike, and go on doing so after either change, cannot be told apart by a
pass, however each of them is kept.

* `GraphAccess.Simulation` — a relation between two ways of keeping a graph that the accesses
  respect.
* `Declarations.Alike`, `References.Alike` — two states of a pass that differ in the graph only, and
  there by such a relation.

Principal results: `Declarations.build_alike`, `References.resolvePending_alike` — the passes over a
unit lead from alike to alike; `indexUnitInto_alike` — a unit is indexed with one report into both
graphs, or into neither.
-/

set_option autoImplicit false

namespace SymbolAtlas

variable {γ δ : Type}

/-- A relation between graphs that every access respects. -/
structure GraphAccess.Simulation [GraphAccess γ] [GraphAccess δ] (R : γ → δ → Prop) : Prop where
  size : ∀ {g h}, R g h → GraphAccess.size g = GraphAccess.size h
  nodeAt : ∀ {g h}, R g h → GraphAccess.nodeAt g = GraphAccess.nodeAt h
  symbol? : ∀ {g h}, R g h → GraphAccess.symbol? g = GraphAccess.symbol? h
  insert : ∀ {g h}, R g h → ∀ p s,
    (GraphAccess.insert g p s).1 = (GraphAccess.insert h p s).1 ∧
      R (GraphAccess.insert g p s).2 (GraphAccess.insert h p s).2
  methodDeclaration : ∀ {g h}, R g h → ∀ i,
    (GraphAccess.methodDeclaration g i).1 = (GraphAccess.methodDeclaration h i).1 ∧
      R (GraphAccess.methodDeclaration g i).2 (GraphAccess.methodDeclaration h i).2

variable {R : γ → δ → Prop} (lu : LocatedUnit) (tree : CursorTree)

/-! ## The declaration pass -/

namespace Declarations

/-- The graphs are related, and all else is the same. -/
structure Alike (R : γ → δ → Prop) (s : Declarations γ) (t : Declarations δ) : Prop where
  graph : R s.graph t.graph
  pending : s.pending = t.pending
  stats : s.stats = t.stats

variable {s : Declarations γ} {t : Declarations δ}

theorem Alike.keep (h : Alike R s t) (l : Location) (id : Nat) :
    Alike R (s.keep l id) (t.keep l id) := by
  unfold Declarations.keep
  rw [h.pending]
  split
  · exact h
  · exact ⟨h.graph, rfl, h.stats⟩

theorem Alike.countDuplicate (h : Alike R s t) : Alike R s.countDuplicate t.countDuplicate := by
  unfold Declarations.countDuplicate
  rw [h.stats]
  exact ⟨h.graph, h.pending, rfl⟩

variable [GraphAccess γ] [GraphAccess δ]

theorem Alike.occupied (hR : GraphAccess.Simulation R) (h : Alike R s t) :
    s.occupied = t.occupied := by
  funext l
  rw [Declarations.occupied, Declarations.occupied, hR.nodeAt h.graph]

theorem semanticOwner_alike (hR : GraphAccess.Simulation R) {g : γ} {h : δ} (hgh : R g h)
    (id : Nat) : semanticOwner lu tree g id = semanticOwner lu tree h id := by
  unfold semanticOwner
  rw [hR.nodeAt hgh]

theorem siblingMacro_alike (hR : GraphAccess.Simulation R) {g : γ} {h : δ} (hgh : R g h)
    (siblings : List Nat) (name : String) :
    siblingMacro lu tree g siblings name = siblingMacro lu tree h siblings name := by
  unfold siblingMacro
  rw [hR.nodeAt hgh]

/-- A macro expansion is handled in both graphs or in neither. -/
theorem expandMacro_alike (hR : GraphAccess.Simulation R) (h : Alike R s t) (siblings : List Nat)
    (c : Nat) (l : Location) :
    Option.Rel (Alike R) (expandMacro lu tree siblings s c l)
      (expandMacro lu tree siblings t c l) := by
  unfold expandMacro
  rw [h.occupied hR, siblingMacro_alike lu tree hR h.graph]
  split
  · exact .some h
  · cases siblingMacro lu tree t.graph siblings (lu.unit.spelling c) with
    | none => exact .none
    | some definition =>
      dsimp only
      obtain ⟨hsame, hrel⟩ := hR.insert h.graph definition (lu.symbol .reference c l)
      revert hsame hrel
      rcases GraphAccess.insert s.graph definition _ with ⟨r, g⟩
      rcases GraphAccess.insert t.graph definition _ with ⟨r', g'⟩
      rintro (rfl : r = r') (hrel : R g g')
      cases r with
      | error e => exact .some ⟨hrel, h.pending, h.stats⟩
      | ok i => exact .some ⟨hrel, h.pending, by rw [h.stats]⟩

theorem add_alike (hR : GraphAccess.Simulation R) (h : Alike R s t) (owner id : Nat)
    (category : Category) (l : Location) :
    Alike R (add lu tree owner s id category l).1 (add lu tree owner t id category l).1 ∧
      (add lu tree owner s id category l).2 = (add lu tree owner t id category l).2 := by
  unfold add
  rw [h.occupied hR, semanticOwner_alike lu tree hR h.graph, h.stats]
  split
  · exact ⟨h.countDuplicate, rfl⟩
  · obtain ⟨hsame, hrel⟩ := hR.insert h.graph
      ((semanticOwner lu tree t.graph id).getD owner) (lu.symbol category (tree.cursor id) l)
    revert hsame hrel
    simp only
    rcases GraphAccess.insert s.graph _ _ with ⟨r, g⟩
    rcases GraphAccess.insert t.graph _ _ with ⟨r', g'⟩
    rintro (rfl : r = r') (hrel : R g g')
    cases r with
    | error e => exact ⟨Alike.countDuplicate ⟨hrel, h.pending, rfl⟩, rfl⟩
    | ok i => exact ⟨⟨hrel, h.pending, rfl⟩, rfl⟩

/-- One tree node is handled alike, and its inside is visited in both graphs or in neither. -/
theorem enter_alike (hR : GraphAccess.Simulation R) (h : Alike R s t) (siblings : List Nat)
    (owner id : Nat) :
    Alike R (enter lu tree siblings owner s id).1 (enter lu tree siblings owner t id).1 ∧
      (enter lu tree siblings owner s id).2 = (enter lu tree siblings owner t id).2 := by
  have hexpanded : Option.Rel (Alike R)
      (if lu.unit.kind (tree.cursor id) = .macroExpansion then
        (lu.place (tree.cursor id)).bind (expandMacro lu tree siblings s (tree.cursor id))
        else none)
      (if lu.unit.kind (tree.cursor id) = .macroExpansion then
        (lu.place (tree.cursor id)).bind (expandMacro lu tree siblings t (tree.cursor id))
        else none) := by
    split
    · cases lu.place (tree.cursor id) with
      | none => exact .none
      | some l => exact expandMacro_alike lu tree hR h siblings (tree.cursor id) l
    · exact .none
  unfold enter
  revert hexpanded
  simp only
  generalize (if lu.unit.kind (tree.cursor id) = .macroExpansion then
    (lu.place (tree.cursor id)).bind (expandMacro lu tree siblings s (tree.cursor id))
    else none) = r
  generalize (if lu.unit.kind (tree.cursor id) = .macroExpansion then
    (lu.place (tree.cursor id)).bind (expandMacro lu tree siblings t (tree.cursor id))
    else none) = r'
  intro hexpanded
  cases hexpanded with
  | some h' => exact ⟨h', rfl⟩
  | none =>
    simp only
    split
    · rename_i l _ _
      rw [h.occupied hR]
      refine ⟨?_, rfl⟩
      split
      · exact h
      · exact h.keep l id
    · exact ⟨h, rfl⟩
    · exact ⟨h, rfl⟩
    · exact add_alike lu tree hR h owner id _ _
    · exact ⟨h, rfl⟩

mutual

/-- A tree node is visited alike. -/
theorem visit_alike (hR : GraphAccess.Simulation R) (siblings : List Nat) (owner : Nat) (b : Branch)
    (s : Declarations γ) (t : Declarations δ) (h : Alike R s t) :
    Alike R (visit lu tree siblings owner b s) (visit lu tree siblings owner b t) := by
  cases b with
  | node id below =>
    obtain ⟨h', hinside⟩ := enter_alike lu tree hR h siblings owner id
    rw [visit, visit]
    revert h' hinside
    rcases enter lu tree siblings owner s id with ⟨s', inside⟩
    rcases enter lu tree siblings owner t id with ⟨t', inside'⟩
    rintro h' (rfl : inside = inside')
    cases inside with
    | none => exact h'
    | some owner' => exact visitAll_alike hR (below.map Branch.item) owner' below s' t' h'

theorem visitAll_alike (hR : GraphAccess.Simulation R) (siblings : List Nat) (owner : Nat)
    (bs : List Branch) (s : Declarations γ) (t : Declarations δ) (h : Alike R s t) :
    Alike R (visitAll lu tree siblings owner bs s) (visitAll lu tree siblings owner bs t) := by
  cases bs with
  | nil =>
    rw [visitAll, visitAll]
    exact h
  | cons b bs =>
    rw [visitAll, visitAll]
    exact visitAll_alike hR siblings owner bs _ _ (visit_alike hR siblings owner b s t h)

end

/-- The declarations of a unit are added to both graphs alike. -/
theorem build_alike (hR : GraphAccess.Simulation R) {g : γ} {h : δ} (hgh : R g h) :
    Alike R (build lu tree g) (build lu tree h) :=
  visit_alike lu tree hR [] SymbolGraph.root tree.branch _ _ ⟨hgh, rfl, rfl⟩

end Declarations

/-! ## The reference pass -/

namespace References

/-- The graphs are related, and all else is the same. -/
structure Alike (R : γ → δ → Prop) (s : References γ) (t : References δ) : Prop where
  graph : R s.graph t.graph
  stats : s.stats = t.stats
  notices : s.notices = t.notices

variable [GraphAccess γ] [GraphAccess δ] {s : References γ} {t : References δ}

/-- What comes of the attempt to add a use. -/
def inserted (s : References γ) (r : Except DuplicateLocation Nat × γ) (redirected : Nat) :
    References γ :=
  match r with
  | (.ok _, graph) =>
    { s with graph, stats := { s.stats with created := s.stats.created + 1, redirected } }
  | (.error e, graph) =>
    { graph
      stats := { s.stats with alreadyPresent := s.stats.alreadyPresent + 1, redirected }
      notices := s.notices ++ [.duplicate e] }

theorem insertBelow_alike (hR : GraphAccess.Simulation R) (h : Alike R s t) (c : Nat)
    (l : Location) (node : Nat) :
    Alike R (insertBelow lu s c l node) (insertBelow lu t c l node) := by
  obtain ⟨g, stats, notices⟩ := s
  obtain ⟨g', stats', notices'⟩ := t
  obtain ⟨hg : R g g', rfl : stats = stats', rfl : notices = notices'⟩ := h
  -- The use is added alike below any node of related graphs.
  have hinsert : ∀ {k : γ} {k' : δ}, R k k' → ∀ owner redirected,
      Alike R
        (inserted ⟨g, stats, notices⟩
          (GraphAccess.insert k owner (lu.symbol .reference c l)) redirected)
        (inserted ⟨g', stats, notices⟩
          (GraphAccess.insert k' owner (lu.symbol .reference c l)) redirected) := by
    intro k k' hk owner redirected
    obtain ⟨hsame, hrel⟩ := hR.insert hk owner (lu.symbol .reference c l)
    revert hsame hrel
    rcases GraphAccess.insert k _ _ with ⟨r, m⟩
    rcases GraphAccess.insert k' _ _ with ⟨r', m'⟩
    rintro (rfl : r = r') (hrel : R m m')
    cases r with
    | error e => exact ⟨hrel, rfl, rfl⟩
    | ok i => exact ⟨hrel, rfl, rfl⟩
  unfold insertBelow
  dsimp only
  rw [hR.symbol? hg]
  by_cases hmethod : ((GraphAccess.symbol? g' node).any (·.category == .methodDefinition)) = true
  · rw [if_pos hmethod, if_pos hmethod]
    obtain ⟨hsame, hrel⟩ := hR.methodDeclaration hg node
    revert hsame hrel
    rcases GraphAccess.methodDeclaration g node with ⟨r, m⟩
    rcases GraphAccess.methodDeclaration g' node with ⟨r', m'⟩
    rintro (rfl : r = r') (hrel : R m m')
    cases r with
    | none => exact hinsert hrel _ _
    | some d => exact hinsert hrel _ _
  · rw [if_neg hmethod, if_neg hmethod]
    exact hinsert hg _ _

theorem attach_alike (hR : GraphAccess.Simulation R) (h : Alike R s t) (id : Nat) (l : Location) :
    Alike R (attach lu tree s id l).1 (attach lu tree t id l).1 ∧
      (attach lu tree s id l).2 = (attach lu tree t id l).2 := by
  unfold attach
  simp only [h.stats, h.notices, hR.nodeAt h.graph]
  cases target lu (tree.cursor id) l with
  | none => exact ⟨⟨h.graph, rfl, rfl⟩, rfl⟩
  | some d =>
    dsimp only
    split
    · exact ⟨⟨h.graph, rfl, rfl⟩, rfl⟩
    · cases (lu.place d).bind (GraphAccess.nodeAt t.graph) with
      | none => exact ⟨⟨h.graph, rfl, rfl⟩, rfl⟩
      | some node => exact ⟨insertBelow_alike lu hR h _ l node, rfl⟩

theorem site_alike (hR : GraphAccess.Simulation R) (h : Alike R s t) (id : Nat)
    (place : Option Location) :
    Alike R (site lu tree s id place).1 (site lu tree t id place).1 ∧
      (site lu tree s id place).2 = (site lu tree t id place).2 := by
  unfold site
  simp only [h.stats, h.notices, hR.nodeAt h.graph, hR.symbol? h.graph]
  split
  · exact ⟨h, rfl⟩
  · split
    · exact ⟨⟨h.graph, rfl, rfl⟩, rfl⟩
    · split
      · exact ⟨h, rfl⟩
      · exact attach_alike lu tree hR h id _

mutual

/-- A tree node is resolved alike. -/
theorem resolve_alike (hR : GraphAccess.Simulation R) (place : Option Location) (b : Branch)
    (s : References γ) (t : References δ) (h : Alike R s t) :
    Alike R (resolve lu tree place b s) (resolve lu tree place b t) := by
  cases b with
  | node id below =>
    obtain ⟨h', hinside⟩ := site_alike lu tree hR h id place
    rw [resolve, resolve]
    revert h' hinside
    rcases site lu tree s id place with ⟨s', inside⟩
    rcases site lu tree t id place with ⟨t', inside'⟩
    rintro h' (rfl : inside = inside')
    cases inside with
    | false => exact h'
    | true => exact sweep_alike hR below s' t' h'

theorem sweep_alike (hR : GraphAccess.Simulation R) (bs : List Branch)
    (s : References γ) (t : References δ) (h : Alike R s t) :
    Alike R (sweep lu tree bs s) (sweep lu tree bs t) := by
  cases bs with
  | nil =>
    rw [sweep, sweep]
    exact h
  | cons b bs =>
    rw [sweep, sweep]
    exact sweep_alike hR bs _ _ (resolve_alike hR _ b s t h)

end

/-- The pending references of a unit are resolved in both graphs alike. -/
theorem resolvePending_alike (hR : GraphAccess.Simulation R) {g : γ} {h : δ} (hgh : R g h)
    (pending : List (Location × Nat)) :
    Alike R (resolvePending lu tree g pending) (resolvePending lu tree h pending) := by
  have hfold : ∀ (s : References γ) (t : References δ), Alike R s t →
      Alike R
        (pending.foldl (fun s e =>
          resolve lu tree (some e.1) (.node e.2 (tree.branches.getD e.2 [])) s) s)
        (pending.foldl (fun s e =>
          resolve lu tree (some e.1) (.node e.2 (tree.branches.getD e.2 [])) s) t) := by
    induction pending with
    | nil => exact fun _ _ hst => hst
    | cons e pending ih => exact fun s t hst => ih _ _ (resolve_alike lu tree hR _ _ s t hst)
  exact hfold _ _ ⟨hgh, rfl, rfl⟩

end References

/-! ## Units -/

variable [GraphAccess γ] [GraphAccess δ]

/-- A unit with its tree is added with one report to both graphs. -/
theorem indexTreeInto_alike (hR : GraphAccess.Simulation R) {g : γ} {h : δ} (hgh : R g h) :
    (indexTreeInto lu tree g).1 = (indexTreeInto lu tree h).1 ∧
      R (indexTreeInto lu tree g).2 (indexTreeInto lu tree h).2 := by
  have hbuilt := Declarations.build_alike lu tree hR hgh
  have hresolved := References.resolvePending_alike lu tree hR hbuilt.graph
    (Declarations.build lu tree g).pending
  unfold indexTreeInto
  dsimp only
  rw [← hbuilt.pending, hbuilt.stats, hresolved.stats, hresolved.notices, hR.size hgh,
    hR.size hresolved.graph]
  exact ⟨rfl, hresolved.graph⟩

/-- A unit is indexed with one report into both graphs, or into neither. -/
theorem indexUnitInto_alike (hR : GraphAccess.Simulation R) {g : γ} {h : δ} (hgh : R g h) :
    (∃ e, indexUnitInto lu g = .error e ∧ indexUnitInto lu h = .error e) ∨
      ∃ report g' h', indexUnitInto lu g = .ok (report, g') ∧
        indexUnitInto lu h = .ok (report, h') ∧ R g' h' := by
  unfold indexUnitInto
  cases CursorTree.reconstruct lu with
  | error e => exact .inl ⟨e, rfl, rfl⟩
  | ok tree =>
    obtain ⟨hreport, hrel⟩ := indexTreeInto_alike lu tree hR hgh
    exact .inr ⟨_, _, _, rfl, congrArg Except.ok (Prod.ext hreport.symm rfl), hrel⟩

end SymbolAtlas
