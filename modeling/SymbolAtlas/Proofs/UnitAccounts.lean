import Mathlib.Data.List.Forall2
import SymbolAtlas.Proofs.JobSteps
import SymbolAtlas.Proofs.Provenance

/-!
# What the counters of a run add up to

Both passes count what they do.  A graph has as many nodes more as declarations, macro expansions
and uses were counted, whatever was in it before; what was in it stays.  The second pass examines
the uses that were kept and, below those that it attaches, all cursors with a location; each of
these sites is counted once, under what became of it, but for what never becomes a node and stands
at a free location.

* `References.sites` — the sites that are examined, each with the graph that it meets.
* `References.Site.Ends` — what becomes of a site.

Principal result: `indexing_accounts` — the reports of units and of batches tell how the graph has
grown, and every site is counted exactly once.
-/

set_option autoImplicit false

namespace SymbolAtlas

variable {lu : LocatedUnit} {tree : CursorTree}

/-! ## The first pass -/

namespace Declarations

/-- A graph has as many nodes more as were counted. -/
def Accounts (s s' : Declarations SymbolGraph) : Prop :=
  s'.graph.size + (s.stats.declarations + s.stats.macroReferences) =
    s.graph.size + (s'.stats.declarations + s'.stats.macroReferences)

theorem Accounts.trans {s t u : Declarations SymbolGraph} (hst : Accounts s t)
    (htu : Accounts t u) :
    Accounts s u := by
  unfold Accounts at *
  omega

/-- A step counts the node that it adds. -/
theorem Enters.accounts {siblings : List Nat} {owner id : Nat} {s : Declarations SymbolGraph}
    {done : Declarations SymbolGraph × Option Nat} (h : Enters lu tree siblings owner s id done) :
    Accounts s done.1 := by
  unfold Accounts
  cases h with
  | passes _ => rfl
  | skips _ _ => rfl
  | keeps _ _ _ _ => rw [keep_graph, keep_stats]
  | expands _ _ _ _ =>
    rw [SymbolGraph.size_append]
    dsimp only
    omega
  | counts _ _ _ _ => rfl
  | adds _ _ _ _ _ =>
    rw [SymbolGraph.size_append]
    dsimp only
    omega

theorem visit_accounts (lu : LocatedUnit) (tree : CursorTree) (i : Nat) :
    ∀ (siblings : List Nat) (owner : Nat) (s : Declarations SymbolGraph),
      Accounts s (visit lu tree siblings owner (tree.branchAt i) s) := by
  induction i using tree.climb with
  | step i ih =>
    intro siblings owner s
    have hstep := (enters lu tree siblings owner s i).accounts
    rw [visit_branchAt]
    split
    · rename_i s' he
      rw [he] at hstep
      exact hstep
    · rename_i s' owner' he
      rw [he] at hstep
      exact hstep.trans (List.foldlRecOn (motive := Accounts s') _ _ rfl
        fun t ht c hc => ht.trans (ih c hc _ owner' t))

/-- The first pass counts the nodes that it adds. -/
theorem size_build (lu : LocatedUnit) (tree : CursorTree) (g : SymbolGraph) :
    (build lu tree g).graph.size = g.size +
      ((build lu tree g).stats.declarations + (build lu tree g).stats.macroReferences) := by
  have h := visit_accounts lu tree 0 [] SymbolGraph.root { graph := g }
  unfold Accounts at h
  exact h

end Declarations

/-! ## The second pass -/

namespace References

/-- A node of the tree that is examined at a location, and the graph that it meets. -/
structure Site where
  node : Nat
  place : Location
  graph : SymbolGraph

mutual

/-- The sites that are examined while a node of the tree is resolved. -/
def sites (lu : LocatedUnit) (tree : CursorTree) (location : Option Location) :
    Branch → References SymbolGraph → List Site
  | .node id below, s =>
    let here := location.toList.map fun l => { node := id, place := l, graph := s.graph }
    match site lu tree s id location with
    | (s', true) => here ++ sitesAll lu tree below s'
    | (_, false) => here

/-- The sites that are examined while several nodes are swept. -/
def sitesAll (lu : LocatedUnit)
    (tree : CursorTree) : List Branch → References SymbolGraph → List Site
  | [], _ => []
  | b :: bs, s =>
    let location := lu.place (tree.cursor b.item)
    sites lu tree location b s ++ sitesAll lu tree bs (resolve lu tree location b s)

end

/-- The sites that are examined while the uses that were kept are resolved in turn. -/
def pendingSites (lu : LocatedUnit) (tree : CursorTree) :
    List (Location × Nat) → References SymbolGraph → List Site
  | [], _ => []
  | e :: es, s =>
    sites lu tree (some e.1) (tree.branchAt e.2) s ++
      pendingSites lu tree es (resolve lu tree (some e.1) (tree.branchAt e.2) s)

/-- A site is at the place of its node, and one thing becomes of it; nothing does of what never
    becomes a node, at a free location. -/
def Site.Ends (lu : LocatedUnit) (tree : CursorTree) (x : Site) (o : Option Outcome) : Prop :=
  lu.place (tree.cursor x.node) = some x.place ∧
    match o with
    | some o => Becomes lu (tree.cursor x.node) x.place x.graph o
    | none => lu.unit.category (tree.cursor x.node) = .invalid ∧ x.graph.nodeAt x.place = none

/-- The nodes that were added are counted, and so are the sites, each under what became of it. -/
structure Tallies (lu : LocatedUnit) (tree : CursorTree) (s s' : References SymbolGraph)
    (xs : List Site) :
    Prop where
  size : s'.graph.size + s.stats.created = s.graph.size + s'.stats.created
  ends : ∃ os, List.Forall₂ (Site.Ends lu tree) xs os ∧
    ∀ o : Outcome, o.counter s'.stats = o.counter s.stats + os.count (some o)

theorem Tallies.nil (s : References SymbolGraph) : Tallies lu tree s s [] :=
  ⟨rfl, [], .nil, fun _ => rfl⟩

theorem Tallies.append {s t u : References SymbolGraph} {xs ys : List Site}
    (hst : Tallies lu tree s t xs)
    (htu : Tallies lu tree t u ys) : Tallies lu tree s u (xs ++ ys) := by
  obtain ⟨os, hos, hcount⟩ := hst.ends
  obtain ⟨os', hos', hcount'⟩ := htu.ends
  refine ⟨?_, os ++ os', List.rel_append hos hos', fun o => ?_⟩
  · have hsize := hst.size
    have hsize' := htu.size
    omega
  · rw [hcount', hcount, List.count_append, Nat.add_assoc]

/-- A site that is counted once. -/
theorem Tallies.one {s s' : References SymbolGraph} {x : Site} {o : Outcome}
    (hx : x.Ends lu tree (some o))
    (hs : Counted o s.stats s'.stats)
    (hsize : s'.graph.size = s.graph.size + if .created = o then 1 else 0) :
    Tallies lu tree s s' [x] := by
  refine ⟨?_, [some o], .cons hx .nil, fun o' => ?_⟩
  · have hcreated : s'.stats.created = s.stats.created + if .created = o then 1 else 0 :=
      hs .created
    omega
  · rw [hs o', List.count_singleton]
    by_cases heq : o' = o
    · simp [heq]
    · have hne : ¬o = o' := fun h => heq h.symm
      simp [heq, hne]

/-- What is examined at a node is counted. -/
theorem Examines.tallies {id : Nat} {s : References SymbolGraph}
    {done : References SymbolGraph × Bool}
    (h : Examines lu tree s id done) : Tallies lu tree s done.1
      ((lu.place (tree.cursor id)).toList.map fun l =>
        { node := id, place := l, graph := s.graph }) := by
  cases h with
  | passes hp hf =>
    cases hl : lu.place (tree.cursor id) with
    | none => exact .nil s
    | some l =>
      have hc := hp.resolve_left (by rw [hl]; exact Option.some_ne_none l)
      exact ⟨rfl, [none], .cons ⟨hl, hc, hf l hl⟩ .nil, fun _ => rfl⟩
  | taken hl ho hg hs =>
    rw [hl]
    exact .one ⟨hl, .alreadyPresent ho⟩ hs (by rw [hg]; rfl)
  | drops hl _ hb ho hg hs =>
    rw [hl]
    exact .one ⟨hl, hb⟩ hs (by rw [hg, if_neg ho.symm]; rfl)
  | @attaches l t node _ hl hf hc hm ha hn hg hs =>
    rw [hl]
    refine .one ⟨hl, .created hf hc hm ha hn⟩ hs ?_
    rw [hg, SymbolGraph.size_append, SymbolGraph.size_ask, if_pos rfl]

mutual

/-- What is examined while a node is resolved at its own place is counted. -/
theorem resolve_tallies (lu : LocatedUnit) (tree : CursorTree) :
    ∀ (b : Branch) (s : References SymbolGraph),
      Tallies lu tree s (resolve lu tree (lu.place (tree.cursor b.item)) b s)
        (sites lu tree (lu.place (tree.cursor b.item)) b s)
  | .node id below, s => by
    have hstep := (examines lu tree s id).tallies
    unfold resolve sites
    dsimp only [Branch.item]
    cases he : site lu tree s id (lu.place (tree.cursor id)) with
    | mk s' goesOn =>
      rw [he] at hstep
      cases goesOn with
      | true => exact hstep.append (sweep_tallies lu tree below s')
      | false => exact hstep

/-- What is examined while nodes are swept is counted. -/
theorem sweep_tallies (lu : LocatedUnit) (tree : CursorTree) :
    ∀ (bs : List Branch) (s : References SymbolGraph),
      Tallies lu tree s (sweep lu tree bs s) (sitesAll lu tree bs s)
  | [], s => by
    unfold sweep sitesAll
    exact .nil s
  | b :: bs, s => by
    unfold sweep sitesAll
    exact (resolve_tallies lu tree b s).append (sweep_tallies lu tree bs _)

end

/-- What is examined while the uses that were kept are resolved is counted. -/
theorem foldl_resolve_tallies :
    ∀ {pending : List (Location × Nat)},
      (∀ e ∈ pending, lu.place (tree.cursor e.2) = some e.1) → ∀ s : References SymbolGraph,
        Tallies lu tree s
          (pending.foldl (fun s e => resolve lu tree (some e.1) (tree.branchAt e.2) s) s)
          (pendingSites lu tree pending s)
  | [], _, s => .nil s
  | e :: es, hp, s => by
    have hfirst := resolve_tallies lu tree (tree.branchAt e.2) s
    have hplace : lu.place (tree.cursor (tree.branchAt e.2).item) = some e.1 :=
      hp e List.mem_cons_self
    rw [hplace] at hfirst
    rw [List.foldl_cons, pendingSites]
    exact hfirst.append
      (foldl_resolve_tallies (fun e' he' => hp e' (List.mem_cons_of_mem e he')) _)

/-- What the second pass examines is counted. -/
theorem resolvePending_tallies {g : SymbolGraph} {pending : List (Location × Nat)}
    (hp : ∀ e ∈ pending, lu.place (tree.cursor e.2) = some e.1) :
    Tallies lu tree { graph := g } (resolvePending lu tree g pending)
      (pendingSites lu tree pending { graph := g }) :=
  foldl_resolve_tallies hp { graph := g }

/-- Every use that was kept is examined. -/
theorem exists_mem_pendingSites :
    ∀ {pending : List (Location × Nat)} {s : References SymbolGraph}
      {e : Location × Nat}, e ∈ pending →
      ∃ x ∈ pendingSites lu tree pending s, x.node = e.2 ∧ x.place = e.1
  | d :: ds, s, e, he => by
    rw [pendingSites]
    rcases List.mem_cons.mp he with rfl | he
    · refine ⟨⟨e.2, e.1, s.graph⟩, List.mem_append_left _ ?_, rfl, rfl⟩
      rw [tree.branchAt_eq, sites]
      split
      · exact List.mem_append_left _ (List.mem_singleton_self _)
      · exact List.mem_singleton_self _
    · obtain ⟨x, hx, hnode⟩ := exists_mem_pendingSites he
      exact ⟨x, List.mem_append_right _ hx, hnode⟩

end References

/-! ## Units and batches -/

/-- What was in a graph is there as it was, and so many nodes more. -/
structure SymbolGraph.GrownBy (n : Nat) (g g' : SymbolGraph) : Prop where
  extends_ : g.Extends g'
  found : ∀ l i, g.nodeAt l = some i → g'.nodeAt l = some i
  size : g'.size = g.size + n

open SymbolGraph (GrownBy)

theorem SymbolGraph.GrownBy.refl (g : SymbolGraph) : GrownBy 0 g g :=
  ⟨.refl g, fun _ _ h => h, rfl⟩

theorem SymbolGraph.GrownBy.trans {m n : Nat} {g h k : SymbolGraph} (hgh : GrownBy m g h)
    (hhk : GrownBy n h k) : GrownBy (m + n) g k where
  extends_ := hgh.extends_.trans hhk.extends_
  found l i hi := hhk.found l i (hgh.found l i hi)
  size := by
    rw [hhk.size, hgh.size, Nat.add_assoc]

/-- The nodes that two passes counted. -/
def counted (build : BuildStats) (resolve : ResolveStats) : Nat :=
  build.declarations + build.macroReferences + resolve.created

/-- Indexing a unit adds the nodes that it counts. -/
theorem indexTree_grownBy (lu : LocatedUnit) (tree : CursorTree) (g : SymbolGraph) :
    GrownBy (indexTree lu tree g).1.nodesAdded g (indexTree lu tree g).2 ∧
      (indexTree lu tree g).1.nodesAdded =
        counted (indexTree lu tree g).1.build (indexTree lu tree g).1.resolve := by
  obtain ⟨hbuild, hpending⟩ := Declarations.build_advances lu tree g
  have hresolve := References.resolvePending_growsBy hpending (Declarations.build lu tree g).graph
  have hextends := hbuild.extends_.trans hresolve.extends_
  have hsize : (indexTree lu tree g).2.size = g.size +
      counted (indexTree lu tree g).1.build (indexTree lu tree g).1.resolve := by
    have hbuilt := Declarations.size_build lu tree g
    have hresolved := (References.resolvePending_tallies
      (g := (Declarations.build lu tree g).graph) fun e he => (hpending e he).place).size
    unfold indexTree indexTreeInto counted
    dsimp only at hresolved ⊢
    omega
  have hadded : (indexTree lu tree g).1.nodesAdded = (indexTree lu tree g).2.size - g.size := rfl
  exact ⟨⟨hextends, fun l i hi => hextends.nodeAt hi, by omega⟩, by omega⟩

/-- The nodes that a job added. -/
def FileOutcome.nodesAdded : FileOutcome → Nat
  | .indexed report => report.nodesAdded
  | _ => 0

namespace Indexer

variable {σ : Type} {F : Frontend σ}

theorem Summary.nodesAdded_eq_foldl (s : Summary) :
    s.nodesAdded = (s.map (·.2.nodesAdded)).foldl (· + ·) 0 := by
  rw [List.foldl_map]
  refine List.foldl_ext _ _ _ fun n e _ => ?_
  obtain ⟨_, outcome⟩ := e
  cases outcome <;> rfl

/-- A summary tells the nodes of its entries. -/
theorem Summary.nodesAdded_cons (e : Path × FileOutcome) (s : Summary) :
    Summary.nodesAdded (e :: s) = e.2.nodesAdded + s.nodesAdded := by
  have hassoc := @List.foldl_assoc Nat (· + ·) _ (s.map (·.2.nodesAdded)) e.2.nodesAdded 0
  rw [nodesAdded_eq_foldl, nodesAdded_eq_foldl, List.map_cons, List.foldl_cons, Nat.zero_add]
  exact hassoc

/-- Indexing a file adds the nodes that its report counts. -/
theorem TakesIn.grownBy {ix ix' : Indexer σ} {job : SourceJob} {report : FileReport}
    (h : TakesIn F ix job report ix') :
    GrownBy report.nodesAdded ix.graph ix'.graph ∧
      report.nodesAdded = counted report.build report.resolve := by
  obtain ⟨unit, _, _, done, hdone, hadded, hbuild, hresolve⟩ := h.unit
  obtain ⟨tree, _, heq⟩ := indexUnit_eq_ok_iff.mp hdone
  have hgrown := indexTree_grownBy (.ofUnit ix'.world.files unit) tree ix.graph
  rw [heq] at hgrown
  rw [hadded, hbuild, hresolve]
  exact hgrown

/-- A job adds the nodes that its outcome tells, and a report tells what was counted. -/
theorem Ends.grownBy {ix : Indexer σ} {force : Bool} {job : SourceJob}
    {done : FileOutcome × Indexer σ} (h : Ends F ix force job done) :
    GrownBy done.1.nodesAdded ix.graph done.2.graph ∧
      ∀ report, done.1 = .indexed report →
        report.nodesAdded = counted report.build report.resolve := by
  cases h with
  | upToDate _ _ => exact ⟨.refl _, fun _ he => by cases he⟩
  | failed _ hs =>
    refine ⟨?_, fun _ he => by cases he⟩
    rw [hs.graph]
    exact .refl _
  | indexed _ ht =>
    obtain ⟨hgrown, hcounted⟩ := ht.grownBy
    exact ⟨hgrown, fun _ he => by cases he; exact hcounted⟩

/-- A batch adds the nodes that its summary tells. -/
theorem runJobs_grownBy (F : Frontend σ) (force : Bool) (jobs : List SourceJob) (ix : Indexer σ) :
    GrownBy (runJobs F force jobs ix).1.nodesAdded ix.graph (runJobs F force jobs ix).2.graph ∧
      ∀ e ∈ (runJobs F force jobs ix).1, ∀ report, e.2 = .indexed report →
        report.nodesAdded = counted report.build report.resolve := by
  induction jobs generalizing ix with
  | nil => exact ⟨.refl _, fun _ he => by cases he⟩
  | cons job jobs ih =>
    obtain ⟨hfirst, hreport⟩ := (ends_runJob F ix force job).grownBy
    obtain ⟨hrest, hreports⟩ := ih (ix.runJob F force job).2
    rw [runJobs]
    dsimp only
    refine ⟨?_, fun e he => ?_⟩
    · rw [Summary.nodesAdded_cons]
      exact hfirst.trans hrest
    · rcases List.mem_cons.mp he with rfl | he
      · exact hreport
      · exact hreports e he

end Indexer

/-- **What indexing counts is what it did.**  A unit leaves everything that was in the graph as it
    was, and adds as many nodes as its declarations, macro expansions and uses were counted.  The
    second pass examines the uses that were kept, none of which is of a kind that never becomes a
    node, and what it sweeps; every site is counted under what became of it, but for what never
    becomes a node, at a free location.  Over a batch the nodes that the reports tell add up to the
    growth of the graph. -/
theorem indexing_accounts (lu : LocatedUnit) (tree : CursorTree) (g : SymbolGraph) {σ : Type}
    (F : Frontend σ) (force : Bool) (jobs : List SourceJob) (ix : Indexer σ) :
    let built := Declarations.build lu tree g
    let sites := References.pendingSites lu tree built.pending { graph := built.graph }
    let done := indexTree lu tree g
    let ran := Indexer.runJobs F force jobs ix
    (GrownBy done.1.nodesAdded g done.2 ∧
      done.1.nodesAdded = counted done.1.build done.1.resolve) ∧
    ((∀ e ∈ built.pending, lu.unit.category (tree.cursor e.2) ≠ .invalid ∧
        ∃ x ∈ sites, x.node = e.2 ∧ x.place = e.1) ∧
      ∃ outcomes, List.Forall₂ (References.Site.Ends lu tree) sites outcomes ∧
        ∀ o : References.Outcome, o.counter done.1.resolve = outcomes.count (some o)) ∧
    GrownBy ran.1.nodesAdded ix.graph ran.2.graph ∧
      ∀ e ∈ ran.1, ∀ report, e.2 = .indexed report →
        report.nodesAdded = counted report.build report.resolve := by
  intro built sites done ran
  have hpending := (Declarations.build_advances lu tree g).2
  obtain ⟨outcomes, hends, hcounters⟩ :=
    (References.resolvePending_tallies (g := built.graph) fun e he => (hpending e he).place).ends
  refine ⟨indexTree_grownBy lu tree g, ⟨fun e he => ⟨?_, ?_⟩, outcomes, hends, fun o => ?_⟩,
    Indexer.runJobs_grownBy F force jobs ix⟩
  · rw [(hpending e he).category]
    decide
  · exact References.exists_mem_pendingSites he
  · have hnone : o.counter ({} : ResolveStats) = 0 := by cases o <;> rfl
    have hcounter := hcounters o
    rw [hnone, Nat.zero_add] at hcounter
    exact hcounter

end SymbolAtlas
