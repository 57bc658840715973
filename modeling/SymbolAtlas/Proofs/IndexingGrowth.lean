import SymbolAtlas.Proofs.Provenance

/-!
# Graphs grow while units are indexed

Both passes over a tree of cursors append nodes for causes, and every cause names a node that is in
the graph when it is used.

* In the first pass that is the root, a node inserted for an enclosing cursor, or a node found at
  the location of the semantic parent or of a macro definition.
* In the second pass it is a node found at the location of what a use names, or the declaration
  that is linked to it; that the latter is in the graph is why the graph has to be well-formed.

Principal result: `indexUnit_grows` — indexing a unit does nothing to a graph but make it grow.
-/

set_option autoImplicit false

namespace SymbolAtlas

open SymbolGraph (WellFormed bind_nodeAt_lt)

variable {lu : LocatedUnit} {tree : CursorTree} {g : SymbolGraph}

namespace Declarations

theorem semanticOwner_lt {id owner : Nat} (h : semanticOwner lu tree g id = some owner) :
    owner < g.size := by
  obtain ⟨_, _, _, _, _, hnode⟩ := semanticOwner_eq_some h
  exact bind_nodeAt_lt hnode

theorem Encloses.lt (hg : g.WellFormed) {p : Nat} (h : Encloses g p) : p < g.size := by
  rcases h with rfl | ⟨s, q, hs, _⟩
  · exact hg.size_pos
  · obtain ⟨n, hn, _⟩ := SymbolGraph.core_eq_some_iff.mp hs
    exact SymbolGraph.node?_eq_some_lt hn

theorem Cause.lt (hg : g.WellFormed) {p : Nat} {s : Symbol} (h : Cause lu tree g p s) :
    p < g.size := by
  cases h with
  | declared _ _ _ hp => exact hp.elim (·.lt hg) semanticOwner_lt
  | expanded _ _ _ _ hp => exact bind_nodeAt_lt hp

end Declarations

namespace References

/-- Uses of a node of the graph go to a node of the graph. -/
theorem landing_lt (hg : g.WellFormed) {d : Nat} (hd : d < g.size) : g.landing d < g.size := by
  rcases hg.landing_cases d with hself | hdeclares
  · rw [hself]
    exact hd
  · exact hdeclares.lt

theorem Cause.lt (hg : g.WellFormed) {p : Nat} {s : Symbol} (h : Cause lu tree g p s) :
    p < g.size := by
  cases h with
  | used _ _ _ _ _ hd _ => exact landing_lt hg (bind_nodeAt_lt hd)

end References

theorem LocatedUnit.Cause.lt (hg : g.WellFormed) {p : Nat} {s : Symbol} (h : lu.Cause g p s) :
    p < g.size := by
  obtain ⟨tree, _, hbuilt | hresolved⟩ := h
  · exact hbuilt.lt hg
  · exact hresolved.lt hg

/-- Indexing a unit makes a graph grow. -/
theorem indexUnit_grows {g' : SymbolGraph} {report : UnitReport} (hg : g.WellFormed)
    (h : indexUnit lu g = .ok (report, g')) : g.Grows g' :=
  (indexUnit_growsBy h).grows (fun _ _ _ hk hc => hc.lt hk) hg

end SymbolAtlas
