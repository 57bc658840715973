import SymbolAtlas.Proofs.LinkedUses

/-!
# Links of overloaded methods

A graph is built by insertions and questions: nodes go below existing ones, and methods are asked
for their declarations at any moment in between.  The first question that finds a declaration
links it for good.  It looks for the display name of the definition, and makes do with the only
declaration of the name if that one has another display name.

* `Building` — the runs of insertions and questions.
* `FallsBack` — the only declaration of a method has another display name than the definition.
* `AskedEarly` — a definition was asked when it fell back, and further overloads came later.

Principal results: `linked_of_question` — every link goes back to a question; `FallsBack.linked` — a
question that falls back links for good; `overload_links` — the links and answers are those of the
matching overload exactly if the definition was not asked early.
-/

set_option autoImplicit false

namespace SymbolAtlas.SymbolGraph

/-! ## Runs -/

/-- An insertion below an existing node, or a question. -/
def Operation.Builds (g : SymbolGraph) : Operation → Prop
  | .insert parent _ => parent < g.size
  | .methodDeclaration _ => True
  | _ => False

/-- Insertions and questions that can be done one after the other. -/
def BuildingFrom : SymbolGraph → List Operation → Prop
  | _, [] => True
  | g, op :: ops => op.Builds g ∧ BuildingFrom (op.apply g) ops

/-- The graph that operations make of the empty one. -/
def built (ops : List Operation) : SymbolGraph :=
  ops.foldl Operation.apply .empty

/-- A run of insertions and questions on the empty graph. -/
def Building (ops : List Operation) : Prop := BuildingFrom .empty ops

instance Operation.decidableBuilds (g : SymbolGraph) : (op : Operation) → Decidable (op.Builds g)
  | .insert parent _ => inferInstanceAs (Decidable (parent < g.size))
  | .methodDeclaration _ => .isTrue trivial
  | .clear => .isFalse id
  | .index _ => .isFalse id

instance decidableBuildingFrom :
    (g : SymbolGraph) → (ops : List Operation) → Decidable (BuildingFrom g ops)
  | _, [] => .isTrue trivial
  | g, op :: ops =>
    letI := decidableBuildingFrom (op.apply g) ops
    inferInstanceAs (Decidable (op.Builds g ∧ BuildingFrom (op.apply g) ops))

instance (ops : List Operation) : Decidable (Building ops) :=
  inferInstanceAs (Decidable (BuildingFrom .empty ops))

theorem buildingFrom_append {g : SymbolGraph} {before after : List Operation} :
    BuildingFrom g (before ++ after) ↔
      BuildingFrom g before ∧ BuildingFrom (before.foldl Operation.apply g) after := by
  induction before generalizing g with
  | nil => exact (and_iff_right trivial).symm
  | cons op ops ih =>
    rw [List.cons_append, BuildingFrom, BuildingFrom, ih, List.foldl_cons, and_assoc]

theorem built_append (before after : List Operation) :
    built (before ++ after) = after.foldl Operation.apply (built before) :=
  List.foldl_append

theorem built_concat (ops : List Operation) (op : Operation) :
    built (ops ++ [op]) = op.apply (built ops) := by
  rw [built_append]
  rfl

theorem building_concat {ops : List Operation} {op : Operation} :
    Building (ops ++ [op]) ↔ Building ops ∧ op.Builds (built ops) := by
  rw [Building, buildingFrom_append]
  exact and_congr_right fun _ => and_iff_left trivial

theorem Building.before {before after : List Operation} (h : Building (before ++ after)) :
    Building before :=
  (buildingFrom_append.mp h).1

theorem insert_apply_of_free {g : SymbolGraph} {s : Symbol} (p : Nat)
    (h : ∀ l, s.location = some l → g.nodeAt l = none) :
    (Operation.insert p s).apply g = g.append p s := by
  unfold Operation.apply
  simp only [insert_of_free p h]
  rfl

theorem insert_apply_of_taken {g : SymbolGraph} {s : Symbol} (p : Nat)
    (h : ¬∀ l, s.location = some l → g.nodeAt l = none) :
    (Operation.insert p s).apply g = g := by
  unfold Operation.apply
  simp only
  split
  · rename_i i g' hi
    exact absurd (insert_eq_ok_iff.mp hi).1 h
  · rfl

/-- An insertion changes nothing, or appends a node. -/
theorem insert_apply_cases (g : SymbolGraph) (p : Nat) (s : Symbol) :
    (Operation.insert p s).apply g = g ∨ (Operation.insert p s).apply g = g.append p s := by
  by_cases h : ∀ l, s.location = some l → g.nodeAt l = none
  · exact .inr (insert_apply_of_free p h)
  · exact .inl (insert_apply_of_taken p h)

theorem Operation.Builds.extends_ {g : SymbolGraph} {op : Operation} (h : op.Builds g) :
    g.Extends (op.apply g) := by
  cases op with
  | insert p s =>
    rcases insert_apply_cases g p s with hsame | happend
    · rw [hsame]
      exact Extends.refl g
    · rw [happend]
      exact extends_append g p s
  | methodDeclaration i => exact extends_methodDeclaration g i
  | clear => exact h.elim
  | index lu => exact h.elim

theorem BuildingFrom.extends_ {g : SymbolGraph} {ops : List Operation} (h : BuildingFrom g ops) :
    g.Extends (ops.foldl Operation.apply g) := by
  induction ops generalizing g with
  | nil => exact Extends.refl g
  | cons op ops ih => exact h.1.extends_.trans (ih h.2)

/-- What was built stays. -/
theorem Building.extends_ {before after : List Operation} (h : Building (before ++ after)) :
    (built before).Extends (built (before ++ after)) := by
  rw [built_append]
  exact (buildingFrom_append.mp h).2.extends_

theorem Building.wellFormed {ops : List Operation} (h : Building ops) :
    (built ops).WellFormed := by
  induction ops using List.reverseRecOn with
  | nil => exact wellFormed_empty
  | append_singleton ops op ih =>
    obtain ⟨hops, hop⟩ := building_concat.mp h
    rw [built_concat]
    refine (ih hops).apply ?_
    cases op with
    | insert p s => exact hop
    | methodDeclaration i => trivial
    | clear => exact hop.elim
    | index lu => exact hop.elim

/-! ## What is found -/

/-- The only declaration of the method that `d` defines is `c`, under another display name. -/
def FallsBack (g : SymbolGraph) (d c : Nat) : Prop :=
  (∀ c', g.Declares c' d ↔ c' = c) ∧ ¬g.Matches c d

theorem FallsBack.declares {g : SymbolGraph} {d c : Nat} (h : g.FallsBack d c) : g.Declares c d :=
  (h.1 c).mpr rfl

theorem FallsBack.not_matches {g : SymbolGraph} {d c : Nat} (h : g.FallsBack d c) (m : Nat) :
    ¬g.Matches m d := by
  intro hm
  obtain rfl := (h.1 m).mp hm.1
  exact h.2 hm

theorem declares_iff_any {g : SymbolGraph} {c i : Nat} :
    g.Declares c i ↔ ((g.node? i).any fun n => (g.node? c).any fun m =>
      decide (n.category = .methodDefinition ∧ m.category = .methodDeclaration ∧
        m.parent = n.parent ∧ m.name = n.name)) = true := by
  simp only [Declares, Option.any_eq_true, decide_eq_true_eq]
  constructor
  · rintro ⟨n, m, hn, hm, h⟩
    exact ⟨n, hn, m, hm, h⟩
  · rintro ⟨n, hn, m, hm, h⟩
    exact ⟨n, m, hn, hm, h⟩

instance (g : SymbolGraph) (c i : Nat) : Decidable (g.Declares c i) :=
  decidable_of_iff' _ declares_iff_any

instance (g : SymbolGraph) (c i : Nat) : Decidable (g.Matches c i) :=
  inferInstanceAs (Decidable (_ ∧ _))

/-- A node that something declares is a method definition with an owner. -/
theorem Declares.definition {g : SymbolGraph} (hg : g.WellFormed) {c d : Nat}
    (h : g.Declares c d) :
    ∃ n owner, g.node? d = some n ∧ n.category = .methodDefinition ∧ n.parent = some owner := by
  obtain ⟨n, _, hn, _, hcategory, _⟩ := h
  obtain ⟨owner, howner⟩ := hg.exists_owner hn (by rw [hcategory]; decide)
  exact ⟨n, owner, hn, hcategory, howner⟩

/-- What is found has the display name of the definition, or it is the only declaration. -/
theorem matchingDeclaration_cases {g : SymbolGraph} (hg : g.WellFormed) {d c : Nat}
    (h : g.matchingDeclaration d = some c) : g.Matches c d ∨ g.FallsBack d c := by
  obtain ⟨n, owner, hn, hcategory, howner⟩ := (declares_of_matchingDeclaration h).definition hg
  have hmem := fun c' => mem_candidates (c := c') hn hcategory howner
  rw [matchingDeclaration_eq hn hcategory howner] at h
  generalize g.candidates owner n.name = found at h hmem
  split at h
  · rename_i c' hfind
    cases h
    have hd : g.Declares c d := (hmem c).mp (List.mem_of_find?_eq_some hfind)
    have htest := List.find?_some hfind
    exact .inl ((matches_iff_of_declares hn hd).mpr htest)
  · rename_i c' hfind
    cases h
    refine .inr ⟨fun c' => (hmem c').symm.trans List.mem_singleton, fun hm => ?_⟩
    exact List.find?_eq_none.mp hfind c (List.mem_singleton_self c)
      ((matches_iff_of_declares hn hm.1).mp hm)
  · cases h

theorem FallsBack.matchingDeclaration {g : SymbolGraph} (hg : g.WellFormed) {d c : Nat}
    (h : g.FallsBack d c) : g.matchingDeclaration d = some c := by
  obtain ⟨n, owner, hn, hcategory, howner⟩ := h.declares.definition hg
  cases hfound : g.matchingDeclaration d with
  | none =>
    exact absurd ⟨c, h.1⟩ ((matchingDeclaration_eq_none_iff hn hcategory howner).mp hfound).2
  | some c' => rw [(h.1 c').mp (declares_of_matchingDeclaration hfound)]

/-- At most one declaration has the display name of the definition. -/
def OneMatch (g : SymbolGraph) (d : Nat) : Prop :=
  ∀ m m', g.Matches m d → g.Matches m' d → m = m'

theorem OneMatch.matchingDeclaration_iff {g : SymbolGraph} {d : Nat} (hone : g.OneMatch d)
    (hg : g.WellFormed) {c : Nat} :
    g.matchingDeclaration d = some c ↔ g.Matches c d ∨ g.FallsBack d c := by
  refine ⟨matchingDeclaration_cases hg, ?_⟩
  rintro (hm | hf)
  · cases hfound : g.matchingDeclaration d with
    | none => exact absurd hm (hg.not_matches hfound c)
    | some c' =>
      rcases matchingDeclaration_cases hg hfound with hm' | hf
      · rw [hone c' c hm' hm]
      · exact absurd hm (hf.not_matches c)
  · exact hf.matchingDeclaration hg

/-! ## Where links come from -/

/-- A link goes back to a question at which the declaration was found. -/
theorem linked_of_question {ops : List Operation} (h : Building ops) {d c : Nat}
    (hl : (built ops).linkedDeclaration d = some c) :
    ∃ before after, ops = before ++ .methodDeclaration d :: after ∧
      (built before).matchingDeclaration d = some c := by
  induction ops using List.reverseRecOn with
  | nil =>
    obtain ⟨n, _, hn, _, hcategory, _⟩ := wellFormed_empty.linked d c hl
    obtain rfl : d = 0 := Nat.lt_one_iff.mp (node?_eq_some_lt hn)
    cases hn
    cases hcategory
  | append_singleton ops op ih =>
    obtain ⟨hops, hop⟩ := building_concat.mp h
    rw [built_concat] at hl
    have hold : (built ops).linkedDeclaration d = some c →
        ∃ before after, ops ++ [op] = before ++ .methodDeclaration d :: after ∧
          (built before).matchingDeclaration d = some c := fun hl' => by
      obtain ⟨before, after, rfl, hfound⟩ := ih hops hl'
      exact ⟨before, after ++ [op], List.append_assoc _ _ _, hfound⟩
    cases op with
    | insert p s =>
      rcases insert_apply_cases (built ops) p s with hsame | happend
      · rw [hsame] at hl
        exact hold hl
      · rw [happend, linkedDeclaration_append] at hl
        exact hold hl
    | methodDeclaration i =>
      rcases (built ops).methodDeclaration_graph i with hsame | ⟨c', _, hfound, hlink⟩
      · exact hold (by rw [← hsame]; exact hl)
      · unfold Operation.apply at hl
        simp only [hlink] at hl
        by_cases hi : i = d
        · subst hi
          rw [linkedDeclaration_link hfound] at hl
          cases hl
          exact ⟨ops, [], rfl, hfound⟩
        · rw [linkedDeclaration_link_of_ne c' hi] at hl
          exact hold hl
    | clear => exact hop.elim
    | index lu => exact hop.elim

/-- A question at which a definition falls back links it, or finds it linked that way, and the link
    stays. -/
theorem FallsBack.linked {before after : List Operation} {d c : Nat}
    (hf : (built before).FallsBack d c)
    (h : Building (before ++ .methodDeclaration d :: after)) :
    (built (before ++ .methodDeclaration d :: after)).linkedDeclaration d = some c := by
  have hwf : (built before).WellFormed := h.before.wellFormed
  have hanswer : ((built before).methodDeclaration d).1 = some c := by
    cases hl : (built before).linkedDeclaration d with
    | some c' =>
      rw [methodDeclaration_of_linked hl, (hf.1 c').mp (hwf.linked d c' hl)]
    | none => rw [methodDeclaration_of_matching hl (hf.matchingDeclaration hwf)]
  have hasked : (built (before ++ [.methodDeclaration d])).linkedDeclaration d = some c := by
    rw [built_concat]
    exact linkedDeclaration_methodDeclaration hanswer
  rw [List.append_cons] at h ⊢
  exact h.extends_.linkedDeclaration hasked

/-! ## Runs without questions -/

/-- Two graphs with the same nodes, links left out. -/
def Alike (g h : SymbolGraph) : Prop :=
  g.size = h.size ∧ ∀ i, g.core i = h.core i

theorem Alike.refl (g : SymbolGraph) : g.Alike g := ⟨rfl, fun _ => rfl⟩

theorem Alike.place {g h : SymbolGraph} (ha : g.Alike h) (i : Nat) : g.place i = h.place i := by
  have hplace : ∀ k : SymbolGraph, k.place i = (k.core i).bind (·.1.location) := fun k => by
    unfold SymbolGraph.place core
    cases k.node? i with
    | none => rfl
    | some n => rfl
  rw [hplace, hplace, ha.2]

theorem Alike.free_iff {g h : SymbolGraph} (ha : g.Alike h) (s : Symbol) :
    (∀ l, s.location = some l → g.nodeAt l = none) ↔
      ∀ l, s.location = some l → h.nodeAt l = none := by
  simp only [nodeAt_eq_none_iff, ha.place]

theorem Alike.append {g h : SymbolGraph} (ha : g.Alike h) (p : Nat) (s : Symbol) :
    (g.append p s).Alike (h.append p s) := by
  refine ⟨?_, fun i => ?_⟩
  · rw [size_append, size_append, ha.1]
  · rw [core_append, core_append, ha.1, ha.2]

/-- An insertion goes through in both graphs or in neither. -/
theorem Alike.insert {g h : SymbolGraph} (ha : g.Alike h) (p : Nat) (s : Symbol) :
    ((Operation.insert p s).apply g).Alike ((Operation.insert p s).apply h) := by
  by_cases hfree : ∀ l, s.location = some l → g.nodeAt l = none
  · rw [insert_apply_of_free p hfree, insert_apply_of_free p ((ha.free_iff s).mp hfree)]
    exact ha.append p s
  · rw [insert_apply_of_taken p hfree,
      insert_apply_of_taken p (mt (ha.free_iff s).mpr hfree)]
    exact ha

theorem Alike.methodDeclaration {g h : SymbolGraph} (ha : g.Alike h) (i : Nat) :
    g.Alike (h.methodDeclaration i).2 := by
  rcases h.methodDeclaration_graph i with hsame | ⟨c, _, _, hlink⟩
  · rw [hsame]
    exact ha
  · rw [hlink]
    exact ⟨ha.1.trans (size_link h i c).symm, fun j => (ha.2 j).trans (core_link h i c j).symm⟩

theorem Alike.declares_iff {g h : SymbolGraph} (ha : g.Alike h) {c d : Nat} :
    g.Declares c d ↔ h.Declares c d :=
  Declares.congr (ha.2 d) (ha.2 c)

theorem Alike.matches_iff {g h : SymbolGraph} (ha : g.Alike h) {c d : Nat} :
    g.Matches c d ↔ h.Matches c d :=
  Matches.congr (ha.2 d) (ha.2 c)

/-- What is found depends on the nodes and not on the links. -/
theorem Alike.matchingDeclaration_eq {g h : SymbolGraph} (ha : g.Alike h) (hg : g.WellFormed)
    (hh : h.WellFormed) {d : Nat} (hone : h.OneMatch d) :
    g.matchingDeclaration d = h.matchingDeclaration d := by
  have hone' : g.OneMatch d := fun m m' hm hm' =>
    hone m m' (ha.matches_iff.mp hm) (ha.matches_iff.mp hm')
  refine Option.ext fun c => ?_
  rw [hone'.matchingDeclaration_iff hg, hone.matchingDeclaration_iff hh]
  unfold FallsBack
  simp only [ha.declares_iff, ha.matches_iff]

/-- The operation is an insertion. -/
def Operation.inserts : Operation → Bool
  | .insert _ _ => true
  | _ => false

/-- The insertions of a run. -/
def unasked (ops : List Operation) : List Operation := ops.filter Operation.inserts

theorem unasked_concat (ops : List Operation) (op : Operation) :
    unasked (ops ++ [op]) = if op.inserts then unasked ops ++ [op] else unasked ops := by
  unfold unasked
  rw [List.filter_append]
  cases h : op.inserts with
  | true => rw [List.filter_singleton, h]; rfl
  | false => rw [List.filter_singleton, h]; exact List.append_nil _

/-- Without its questions a run leads to the same nodes. -/
theorem Building.unasked {ops : List Operation} (h : Building ops) :
    Building (unasked ops) ∧ (built (unasked ops)).Alike (built ops) := by
  induction ops using List.reverseRecOn with
  | nil => exact ⟨trivial, rfl, fun _ => rfl⟩
  | append_singleton ops op ih =>
    obtain ⟨hops, hop⟩ := building_concat.mp h
    obtain ⟨hbuilding, halike⟩ := ih hops
    rw [unasked_concat]
    cases op with
    | insert p s =>
      have hp : (Operation.insert p s).Builds (built (SymbolGraph.unasked ops)) := by
        show p < _
        rw [halike.1]
        exact hop
      refine ⟨building_concat.mpr ⟨hbuilding, hp⟩, ?_⟩
      show (built (SymbolGraph.unasked ops ++ [_])).Alike _
      rw [built_concat, built_concat]
      exact halike.insert p s
    | methodDeclaration i =>
      refine ⟨hbuilding, ?_⟩
      rw [built_concat]
      exact halike.methodDeclaration i
    | clear => exact hop.elim
    | index lu => exact hop.elim

/-- Nothing is linked where nothing was asked. -/
theorem linkedDeclaration_unasked {ops : List Operation} (h : Building (unasked ops)) (d : Nat) :
    (built (unasked ops)).linkedDeclaration d = none := by
  cases hl : (built (unasked ops)).linkedDeclaration d with
  | none => rfl
  | some c =>
    obtain ⟨before, after, hops, _⟩ := linked_of_question h hl
    have hmem : Operation.methodDeclaration d ∈ unasked ops := by
      rw [hops]
      exact List.mem_append_right _ List.mem_cons_self
    cases (List.mem_filter.mp hmem).2

theorem fst_methodDeclaration_of_unlinked {g : SymbolGraph} {d : Nat}
    (h : g.linkedDeclaration d = none) : (g.methodDeclaration d).1 = g.matchingDeclaration d := by
  cases hm : g.matchingDeclaration d with
  | none => rw [methodDeclaration_of_none h hm]
  | some c => rw [methodDeclaration_of_matching h hm]

/-- A definition that was never asked is told what is found at the end. -/
theorem Building.answer_unasked {ops : List Operation} (h : Building ops) {d : Nat}
    (hone : (built ops).OneMatch d) :
    ((built (SymbolGraph.unasked ops)).methodDeclaration d).1 =
      (built ops).matchingDeclaration d := by
  obtain ⟨hbuilding, halike⟩ := h.unasked
  rw [fst_methodDeclaration_of_unlinked (linkedDeclaration_unasked hbuilding d)]
  exact halike.matchingDeclaration_eq hbuilding.wellFormed h.wellFormed hone

/-! ## Questions that come too early -/

/-- The definition was asked when its only declaration had another display name, and further
    overloads were declared later. -/
def AskedEarly (ops : List Operation) (d : Nat) : Prop :=
  ∃ before after c, ops = before ++ .methodDeclaration d :: after ∧
    (built before).FallsBack d c ∧ ∃ c', c' ≠ c ∧ (built ops).Declares c' d

theorem Extends.matches_iff {g h : SymbolGraph} (he : g.Extends h) {c d : Nat}
    (hd : g.Declares c d) : h.Matches c d ↔ g.Matches c d := by
  obtain ⟨n, _, hn, _⟩ := id hd
  exact Matches.congr (he.core_eq (node?_eq_some_lt hn)) (he.core_eq hd.lt)

/-- After an early question the link has another display name than the definition, and there is
    another declaration. -/
theorem AskedEarly.linked {ops : List Operation} (h : Building ops) {d : Nat}
    (he : AskedEarly ops d) :
    ∃ c, (built ops).linkedDeclaration d = some c ∧ ¬(built ops).Matches c d ∧
      ∃ c', c' ≠ c ∧ (built ops).Declares c' d := by
  obtain ⟨before, after, c, rfl, hf, hother⟩ := he
  refine ⟨c, hf.linked h, fun hm => ?_, hother⟩
  exact hf.2 ((h.extends_.matches_iff hf.declares).mp hm)

/-- Without an early question a link leads to a matching overload or to the only declaration. -/
theorem linked_cases {ops : List Operation} (h : Building ops) {d c : Nat}
    (hearly : ¬AskedEarly ops d) (hl : (built ops).linkedDeclaration d = some c) :
    (built ops).Matches c d ∨ (built ops).FallsBack d c := by
  obtain ⟨before, after, rfl, hfound⟩ := linked_of_question h hl
  have hd := declares_of_matchingDeclaration hfound
  have hmatches := h.extends_.matches_iff hd
  rcases matchingDeclaration_cases h.before.wellFormed hfound with hm | hf
  · exact .inl (hmatches.mpr hm)
  · refine .inr ⟨fun c' => ⟨fun hc' => ?_, ?_⟩, fun hm => hf.2 (hmatches.mp hm)⟩
    · refine Classical.byContradiction fun hne => ?_
      exact hearly ⟨before, after, c, rfl, hf, c', hne, hc'⟩
    · rintro rfl
      exact hd.mono h.extends_

/-- **Links and answers are those of the matching overload exactly if no question came too early.**
    If a declaration has the display name of the definition, then so has the one that the
    definition is linked to; and what the definition is told does not depend on the questions that
    were asked before. -/
theorem overload_links {ops : List Operation} (h : Building ops) (d : Nat) :
    ((∃ m, (built ops).Matches m d) →
      ((∀ c, (built ops).linkedDeclaration d = some c → (built ops).Matches c d) ↔
        ¬AskedEarly ops d)) ∧
    ((built ops).OneMatch d →
      (((built ops).methodDeclaration d).1 = ((built (unasked ops)).methodDeclaration d).1 ↔
        ¬AskedEarly ops d)) := by
  refine ⟨fun hmatch => ⟨fun hlinks hearly => ?_, fun hearly c hl => ?_⟩,
    fun hone => ⟨fun hsame hearly => ?_, fun hearly => ?_⟩⟩
  · obtain ⟨c, hl, hm, _⟩ := hearly.linked h
    exact hm (hlinks c hl)
  · obtain ⟨m, hm⟩ := hmatch
    rcases linked_cases h hearly hl with hc | hf
    · exact hc
    · exact absurd hm (hf.not_matches m)
  · obtain ⟨c, hl, hm, c', hne, hc'⟩ := hearly.linked h
    rw [methodDeclaration_of_linked hl, h.answer_unasked hone] at hsame
    rcases matchingDeclaration_cases h.wellFormed hsame.symm with hc | hf
    · exact hm hc
    · exact hne ((hf.1 c').mp hc')
  · rw [h.answer_unasked hone]
    cases hl : (built ops).linkedDeclaration d with
    | none => exact fst_methodDeclaration_of_unlinked hl
    | some c =>
      rw [methodDeclaration_of_linked hl]
      exact ((hone.matchingDeclaration_iff h.wellFormed).mpr (linked_cases h hearly hl)).symm

/-- A class `C`. -/
def classSymbol : Symbol :=
  { category := .classType, kind := .classDecl, name := "C", displayName := "C",
    location := some ⟨⟨"/t/c.h"⟩, 1, 7⟩ }

/-- A definition of `m(int)`. -/
def definitionSymbol : Symbol :=
  { category := .methodDefinition, kind := .method, name := "m", displayName := "m(int)",
    location := some ⟨⟨"/t/c.cpp"⟩, 4, 9⟩ }

/-- An overload of `m` that is declared on a line. -/
def overloadSymbol (displayName : String) (line : Nat) : Symbol :=
  { category := .methodDeclaration, kind := .method, name := "m", displayName,
    location := some ⟨⟨"/t/c.h"⟩, line, 10⟩ }

/-- A definition that is asked when nothing is declared yet, and two overloads after that. -/
def declaredLater : List Operation :=
  [.insert 0 classSymbol, .insert 1 definitionSymbol, .methodDeclaration 2,
    .insert 1 (overloadSymbol "m(char)" 3), .insert 1 (overloadSymbol "m(int)" 4)]

/-- The definition is asked again when both are declared. -/
def askedInTime : List Operation := declaredLater ++ [.methodDeclaration 2]

theorem overload_links_askedInTime :
    Building askedInTime ∧ (∃ m, (built askedInTime).Matches m 2) ∧
      (built askedInTime).OneMatch 2 ∧ (built askedInTime).linkedDeclaration 2 = some 4 ∧
      ¬AskedEarly askedInTime 2 ∧ ((built askedInTime).methodDeclaration 2).1 =
        ((built (unasked askedInTime)).methodDeclaration 2).1 := by
  have hbefore : Building declaredLater := by decide +kernel
  have hbuilding : Building askedInTime := building_concat.mpr ⟨hbefore, trivial⟩
  have halike : (built declaredLater).Alike (built askedInTime) := by
    rw [askedInTime, built_concat]
    exact (Alike.refl _).methodDeclaration 2
  have hmatch : (built declaredLater).Matches 4 2 := by decide +kernel
  have hmatch' : (built askedInTime).Matches 4 2 := halike.matches_iff.mp hmatch
  have hone : (built declaredLater).OneMatch 2 := by
    have honly : ∀ m < 5, (built declaredLater).Matches m 2 → m = 4 := by decide +kernel
    have hsize : (built declaredLater).size = 5 := by decide +kernel
    exact fun m m' hm hm' =>
      (honly m (hsize ▸ hm.1.lt) hm).trans (honly m' (hsize ▸ hm'.1.lt) hm').symm
  have hone' : (built askedInTime).OneMatch 2 := fun m m' hm hm' =>
    hone m m' (halike.matches_iff.mpr hm) (halike.matches_iff.mpr hm')
  have hlink : (built askedInTime).linkedDeclaration 2 = some 4 := by
    have hunlinked : (built declaredLater).linkedDeclaration 2 = none := by decide +kernel
    rw [askedInTime, built_concat]
    refine linkedDeclaration_methodDeclaration ?_
    rw [fst_methodDeclaration_of_unlinked hunlinked]
    exact (hone.matchingDeclaration_iff hbefore.wellFormed).mpr (.inl hmatch)
  obtain ⟨hlinks, hanswers⟩ := overload_links hbuilding 2
  have hearly := (hlinks ⟨4, hmatch'⟩).mp fun c hc => by
    rw [hlink] at hc
    cases hc
    exact hmatch'
  exact ⟨hbuilding, ⟨4, hmatch'⟩, hone', hlink, hearly, (hanswers hone').mpr hearly⟩

/-- A definition, and a declaration of another overload. -/
def otherOverload : List Operation :=
  [.insert 0 classSymbol, .insert 1 definitionSymbol, .insert 1 (overloadSymbol "m(char)" 3)]

/-- The definition is asked for its declaration, which comes later. -/
def askedEarly : List Operation :=
  otherOverload ++ .methodDeclaration 2 :: [.insert 1 (overloadSymbol "m(int)" 4)]

/-- The definition keeps the link to the other overload when its own declaration comes. -/
theorem overload_missed :
    ¬∀ ops d c, Building ops → (built ops).linkedDeclaration d = some c →
      (∃ m, (built ops).Matches m d) → (built ops).Matches c d := by
  intro hmatches
  have hbefore : Building otherOverload := by decide +kernel
  have hsize : (built otherOverload).size = 4 := by decide +kernel
  have hbuilding : Building askedEarly := by
    refine buildingFrom_append.mpr ⟨hbefore, trivial, ?_, trivial⟩
    show 1 < ((built otherOverload).methodDeclaration 2).2.size
    rw [← ((Alike.refl _).methodDeclaration 2).1, hsize]
    decide
  have hfalls : (built otherOverload).FallsBack 2 3 := by
    have honly : ∀ c < 4, (built otherOverload).Declares c 2 → c = 3 := by decide +kernel
    refine ⟨fun c => ⟨fun hc => honly c (hsize ▸ hc.lt) hc, ?_⟩, by decide +kernel⟩
    rintro rfl
    decide +kernel
  have hmatch : (built (unasked askedEarly)).Matches 4 2 := by decide +kernel
  have hother : ¬(built (unasked askedEarly)).Matches 3 2 := by decide +kernel
  have halike := hbuilding.unasked.2
  exact hother (halike.matches_iff.mpr
    (hmatches askedEarly 2 3 hbuilding (hfalls.linked hbuilding) ⟨4, halike.matches_iff.mp hmatch⟩))

end SymbolAtlas.SymbolGraph
