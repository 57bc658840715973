import SymbolAtlas.Indexer
import SymbolAtlas.Proofs.LexicalTree
import SymbolAtlas.Proofs.LoweringWalk

/-!
# The trees of lowered units

A parser may report any cursor as the parent of another, but lowering never does: the cursors that
it makes leave `reportedParent` alone (`TranslationUnit.Plain`), and binding their uses does not
touch it.  What a visitor is told of such a cursor is the lexical parent itself.

Principal results: `plain_ofSource` — lowered units are plain; `reconstruct_never_fails` — the tree
of a unit is rebuilt whenever its cursors report parents that look like the lexical ones, whatever
else looks alike, and so is that of every lowered unit.
-/

set_option autoImplicit false

namespace SymbolAtlas

namespace TranslationUnit

/-- No cursor reports another parent than its lexical one. -/
def Plain (u : TranslationUnit) : Prop := ∀ i, (u.cursor i).reportedParent = none

theorem plain_empty (file : Path) : (empty file).Plain := by
  intro i
  cases i with
  | zero => rfl
  | succ i => rfl

theorem Plain.push {u : TranslationUnit} (h : u.Plain) (p : Nat) {c : Cursor}
    (hc : c.reportedParent = none) : (u.push p c).Plain := by
  intro i
  rcases Nat.lt_trichotomy i u.size with hi | rfl | hi
  · rw [cursor_push_of_lt u p c hi]
    exact h i
  · rw [cursor_push]
    exact hc
  · have hnone : (u.push p c).cursors[i]? = none :=
      Array.getElem?_eq_none (by rw [TranslationUnit.push, Array.size_push]; exact hi)
    rw [cursor, Array.getD_eq_getD_getElem?, hnone]
    rfl

theorem Plain.modify {u : TranslationUnit} (h : u.Plain) (i : Nat) {f : Cursor → Cursor}
    (hf : ∀ c, (f c).reportedParent = c.reportedParent) : (u.modify i f).Plain := by
  intro j
  have hj := h j
  unfold cursor at hj ⊢
  rw [Array.getD_eq_getD_getElem?] at hj ⊢
  rw [TranslationUnit.modify, Array.getElem?_modify]
  split
  · cases hc : u.cursors[j]? with
    | none => rfl
    | some c =>
      rw [hc] at hj
      exact (hf c).trans hj
  · exact hj

/-- A plain unit tells visitors the lexical parents. -/
theorem Plain.reportsParents {u : TranslationUnit} (h : u.Plain)
    (places : Array (Option Location)) : LocatedUnit.ReportsParents ⟨u, places⟩ := by
  intro r c p hv hp
  have hvisited : (r, c) ∈ u.visited := hv
  rw [visited_eq] at hvisited
  obtain ⟨⟨above, i⟩, he, heq⟩ := List.mem_map.mp hvisited
  obtain ⟨rfl, rfl⟩ := Prod.mk.inj heq
  have habove := (hangs_parents.mp (edges_topBranches he).1).1
  have hpar : (u.cursor i).parent = some p := hp
  rw [habove] at hpar
  cases hpar
  rw [reported, h i]
  exact LocatedUnit.alike_refl _ _

end TranslationUnit

namespace Lowering

/-- The unit made so far is plain. -/
def PlainSoFar (s : Lowering) : Prop := s.unit.Plain

theorem plain_foldl_addExpansion (expansions : List Expansion) {u : TranslationUnit}
    (h : u.Plain) : (expansions.foldl addExpansion u).Plain := by
  induction expansions generalizing u with
  | nil => exact h
  | cons e es ih => exact ih (h.push 0 rfl)

theorem steady_plainSoFar : Steady PlainSoFar where
  push here kind spelling token isDefinition displayName :=
    .modifyGet fun s hs => TranslationUnit.Plain.push hs here.parent rfl
  openScope _ _ := .modifyGet fun _ hs => hs
  setMembers _ _ := .modify fun _ hs => hs
  declare scope name cursor := .modify fun s hs => by
    have hbind : ∀ free : Bool, PlainSoFar
        (if free then { s with scopes := s.scopes.bind scope name cursor } else s) := fun free => by
      cases free with
      | true => exact hs
      | false => exact hs
    split
    · exact hs
    · exact hbind _
  addSite _ _ _ _ := .modify fun _ hs => hs
  addForward _ _ _ := .modify fun _ hs => hs
  setType cursor hint := by
    unfold setType
    split
    · exact .modify fun _ hs => hs
    · exact .pure _
  expandIfMacro here name token := .modifyGet fun s hs => by
    split
    · exact hs
    · exact hs
  flushExpansions := .modify fun s hs => by
    have h := plain_foldl_addExpansion s.expansions.toList hs
    rw [Array.foldl_toList] at h
    exact h
  enter header depth := .modifyGet fun s hs => by
    split
    · exact hs
    · exact hs
  own id owner s hs := TranslationUnit.Plain.modify hs id fun _ => rfl
  setMacros _ _ hs := hs

/-- Binding keeps a unit plain. -/
theorem plain_bindAll {s : Lowering} (h : s.unit.Plain) : s.bindAll.unit.Plain := by
  have hbind : ∀ (s : Lowering) (site : UseSite), s.unit.Plain → (s.bindSite site).unit.Plain := by
    intro s site hs
    unfold bindSite
    split
    · exact hs.modify _ fun _ => rfl
    · exact hs.modify _ fun _ => rfl
  have hlink : ∀ (s : Lowering) (f : Forward), s.unit.Plain → (s.linkForward f).unit.Plain :=
    fun s f hs => hs.modify _ fun _ => rfl
  have hsites : PlainSoFar (s.sites.foldl bindSite s) :=
    Array.foldl_induction (fun _ s => PlainSoFar s) h fun i s' hs => hbind s' _ hs
  exact Array.foldl_induction (fun _ s => PlainSoFar s) hsites fun i s' hs => hlink s' _ hs

end Lowering

/-- Lowered units are plain. -/
theorem TranslationUnit.plain_ofSource (headers : Headers) (main : Source) :
    (ofSource headers main).Plain :=
  Lowering.plain_bindAll (Lowering.steady_plainSoFar.collect headers main (plain_empty main.path))

namespace CursorTree

/-- **A reconstruction whose cursors report parents that look like the lexical ones never fails**,
    whatever else looks alike.  In particular no lowered unit is refused, and so indexing one never
    is. -/
theorem reconstruct_never_fails :
    (∀ lu : LocatedUnit, lu.ReportsParents → ∃ t, reconstruct lu = .ok t) ∧
    ∀ (fs : FileSystem) (headers : Headers) (main : Source),
      (∃ t, reconstruct (.ofUnit fs (.ofSource headers main)) = .ok t) ∧
      ∀ g, ∃ done, indexUnit (.ofUnit fs (.ofSource headers main)) g = .ok done := by
  refine ⟨fun lu h => reconstruct_total h, fun fs headers main => ?_⟩
  have hreports : LocatedUnit.ReportsParents (.ofUnit fs (.ofSource headers main)) :=
    (TranslationUnit.plain_ofSource headers main).reportsParents _
  obtain ⟨t, ht⟩ := reconstruct_total hreports
  refine ⟨⟨t, ht⟩, fun g => ⟨indexTree (.ofUnit fs (.ofSource headers main)) t g, ?_⟩⟩
  rw [indexUnit, indexUnitInto, ht]
  rfl

/-- A file that says `auto x = f()();`, with its syntax tree: what the outer call calls is a call,
    and both begin at the same token. -/
def callOfCall : Source where
  path := ⟨"/a.cpp"⟩
  text := "auto x = f()();"
  tree :=
    .node "translation_unit" true 0 15 [] [] [
      .node "declaration" true 0 15 [(.type, [0]), (.declarator, [1])] [] [
        .node "placeholder_type_specifier" true 0 4 [] [] [],
        .node "init_declarator" true 5 14 [(.declarator, [0]), (.value, [1])] [] [
          .node "identifier" true 5 6 [] [] [],
          .node "call_expression" true 9 14 [(.function, [0]), (.arguments, [1])] [] [
            .node "call_expression" true 9 12 [(.function, [0]), (.arguments, [1])] [] [
              .node "identifier" true 9 10 [] [] [],
              .node "argument_list" true 10 12 [] [] []],
            .node "argument_list" true 12 14 [] [] []]]]]

/-- The located unit of that file, which reaches no header. -/
def callOfCallUnit : LocatedUnit :=
  .ofUnit {} (.ofSource { files := {}, includePaths := [], load := fun _ => none } callOfCall)

theorem reconstruct_callOfCall :
    callOfCallUnit.ReportsParents ∧ (callOfCallUnit.unit.cursor 3).parent = some 2 ∧
      callOfCallUnit.unit.kind 2 = .callExpr ∧ callOfCallUnit.alike 2 3 = true ∧
      ∃ t, reconstruct callOfCallUnit = .ok t := by
  have hreports : callOfCallUnit.ReportsParents :=
    (TranslationUnit.plain_ofSource _ callOfCall).reportsParents _
  exact ⟨hreports, by decide +kernel, by decide +kernel, by decide +kernel,
    reconstruct_never_fails.1 callOfCallUnit hreports⟩

end CursorTree

end SymbolAtlas
