import SymbolAtlas.Indexer
import SymbolAtlas.Text.Json

/-!
# Reports

The summary of an indexing run, as lines to read and as JSON.

Main facts: the files of a report are those of the run, each counted once
(`IndexReport.counts_ofSummary`).
-/

set_option autoImplicit false

namespace SymbolAtlas

/-- The summary of an indexing run. -/
structure IndexReport where
  indexed : Nat
  upToDate : Nat
  nodesAdded : Nat
  nodes : Nat
  references : Nat
  /-- Numbers of nodes by the names of their categories, in the order of names. -/
  byCategory : List (String × Nat)
  errors : List (Path × IndexError)

namespace IndexReport

/-- The report of a run that left a graph. -/
def ofSummary (s : Indexer.Summary) (g : SymbolGraph) : IndexReport where
  indexed := s.indexed
  upToDate := s.upToDate
  nodesAdded := s.nodesAdded
  nodes := g.stats.nodes
  references := g.stats.references
  byCategory := (g.stats.byCategory.map fun e => (e.1.name, e.2)).mergeSort
    fun a b => !decide (b.1 < a.1)
  errors := s.errors

/-- The lines of a report. -/
def lines (r : IndexReport) : List String :=
  ["Index Summary",
    "=============",
    s!"Files indexed:    {r.indexed}",
    s!"Files up to date: {r.upToDate}",
    s!"Files failed:     {r.errors.length}",
    s!"Total nodes:      {r.nodes}",
    s!"References:       {r.references}"]
  ++ if r.byCategory.isEmpty then []
    else "" :: "Nodes by category:" :: r.byCategory.map fun e => s!"  {e.1}: {e.2}"

open Text (Json)

/-- A report as a value to print. -/
def toJson (r : IndexReport) : Json :=
  .object [
    ("indexed", .nat r.indexed),
    ("up_to_date", .nat r.upToDate),
    ("failed", .nat r.errors.length),
    ("nodes_added", .nat r.nodesAdded),
    ("nodes", .nat r.nodes),
    ("references", .nat r.references),
    ("by_category", .object (r.byCategory.map fun e => (e.1, .nat e.2))),
    ("errors", .array (r.errors.map fun e =>
      .object [("file", .string e.1.text), ("error", .string e.2.message)]))]

theorem counts_ofSummary (s : Indexer.Summary) (g : SymbolGraph) :
    (ofSummary s g).indexed + (ofSummary s g).upToDate + (ofSummary s g).errors.length
      = s.length := by
  show s.indexed + s.upToDate + s.errors.length = s.length
  unfold Indexer.Summary.indexed Indexer.Summary.upToDate Indexer.Summary.errors
  induction s with
  | nil => rfl
  | cons e rest ih =>
    obtain ⟨file, outcome⟩ := e
    cases outcome <;> simp_all <;> omega

end IndexReport

end SymbolAtlas
