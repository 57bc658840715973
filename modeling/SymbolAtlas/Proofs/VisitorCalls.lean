import SymbolAtlas.Proofs.VisitOrder
import SymbolAtlas.Proofs.LoweringChanges

/-!
# What a visitor is called with

A visitor decides at every cursor how the visit goes on, from all that it has seen so far.  So which
cursors it is called with depends on its own answers: what stands inside a cursor that it skips is
left out, and when it stops, nothing more comes, however deep inside other cursors it stands.

* `TranslationUnit.Built` — a unit whose cursors were put in one by one.
* `TranslationUnit.ListsInside` — the pre-order list of what stands strictly inside a cursor.
* `TranslationUnit.Call`, `TranslationUnit.calls` — a call of a visitor, and all calls of a visit.
* `TranslationUnit.follow` — a visit along a list: what is skipped is taken out of what is to come.

Principal results: `TranslationUnit.follow_branch` — to walk a branch is to follow its edges,
whatever comes behind them; `TranslationUnit.follow_along` — which edges of a list are followed;
`TranslationUnit.visit_calls` — what a visitor of a unit is called with.
-/

set_option autoImplicit false

namespace SymbolAtlas

namespace Branch

/-- No item of a rooted branch stands behind one below it. -/
theorem preorder_descends (parents : Array (Option Nat)) (i : Nat) :
    (rooted parents i).preorder.Pairwise fun a b => b ∉ lineage parents a := by
  induction i using climb parents with
  | step i ih =>
    rw [preorder_rooted, List.pairwise_cons, List.flatMap, List.pairwise_flatten]
    refine ⟨?_, ?_, ?_⟩
    · intro x hx hmem
      obtain ⟨c, hc, hxc⟩ := List.mem_flatMap.mp hx
      have hlt := hangs_lt (mem_directlyBelow.mp hc)
      have hle := le_of_mem_lineage ((mem_preorder_rooted c x).mp hxc)
      exact absurd (le_of_mem_lineage hmem) (Nat.not_le_of_lt (Nat.lt_of_lt_of_le hlt hle))
    · intro l hl
      obtain ⟨c, hc, rfl⟩ := List.mem_map.mp hl
      exact ih c (mem_directlyBelow.mp hc)
    · rw [List.pairwise_map]
      refine (directlyBelow_pairwise parents i).imp_of_mem ?_
      intro a b ha hb hlt x hx y hy hmem
      -- an item below b and above one below a would put b and a above the same item
      have hbx := mem_lineage_trans ((mem_preorder_rooted b y).mp hy) hmem
      exact absurd (siblings_disjoint (mem_directlyBelow.mp ha) (mem_directlyBelow.mp hb)
        ((mem_preorder_rooted a x).mp hx) hbx) (Nat.ne_of_lt hlt)

end Branch

namespace TranslationUnit

variable {u : TranslationUnit} {σ : Type}

/-! ## Units put together cursor by cursor -/

/-- The unit was put together cursor by cursor, each inside one that was there before or outside the
    visited tree; what else is set in a cursor does not move it. -/
inductive Built : TranslationUnit → Prop where
  | empty (mainFile : Path) : Built (.empty mainFile)
  | push {u : TranslationUnit} (h : Built u) {parent : Nat} (hparent : parent < u.size)
      (c : Cursor) : Built (u.push parent c)
  | pushDetached {u : TranslationUnit} (h : Built u) (c : Cursor) : Built (u.pushDetached c)
  | modify {u : TranslationUnit} (h : Built u) (i : Nat) {f : Cursor → Cursor}
      (hf : ∀ c, (f c).parent = c.parent) : Built (u.modify i f)
  | addInclusion {u : TranslationUnit} (h : Built u) (path : Path) (depth : Nat) :
      Built (u.addInclusion path depth)

/-- The cursors put directly inside a cursor, in the order in which they were put there. -/
def directlyInside (u : TranslationUnit) (p : Nat) : List Nat :=
  (List.range u.size).filter fun i => (u.cursor i).parent == some p

/-- The list has what stands strictly inside a cursor: each cursor directly inside it, and behind
    that one what stands inside that one. -/
inductive ListsInside (u : TranslationUnit) : Nat → List Nat → Prop where
  | mk (i : Nat) (below : Nat → List Nat)
      (h : ∀ c ∈ u.directlyInside i, ListsInside u c (below c)) :
      ListsInside u i ((u.directlyInside i).flatMap fun c => c :: below c)

/-- A cursor stands strictly inside another one. -/
inductive Inside (u : TranslationUnit) (a : Nat) : Nat → Prop where
  | directly {i : Nat} (h : i ∈ u.directlyInside a) : Inside u a i
  | deeper {p i : Nat} (hp : Inside u a p) (h : i ∈ u.directlyInside p) : Inside u a i

theorem cursor_pushDetached_eq (u : TranslationUnit) (c : Cursor) (i : Nat) :
    (u.pushDetached c).cursor i = if i = u.size then { c with parent := none } else u.cursor i := by
  simp only [cursor, pushDetached, size, Array.getD_eq_getD_getElem?, Array.getElem?_push]
  split
  · rfl
  · rfl

/-- A parent link leads to an earlier cursor. -/
theorem Built.parent_lt (h : u.Built) {i p : Nat} (hp : (u.cursor i).parent = some p) :
    p < i ∧ i < u.size := by
  induction h generalizing i p with
  | empty mainFile =>
    cases i with
    | zero => cases hp
    | succ i => cases hp
  | @push u _ parent hparent c ih =>
    rw [size_push]
    rw [cursor_push_eq] at hp
    split at hp
    · rename_i hi
      cases hp
      exact ⟨hi ▸ hparent, hi ▸ Nat.lt_succ_self _⟩
    · exact ⟨(ih hp).1, Nat.lt_succ_of_lt (ih hp).2⟩
  | @pushDetached u _ c ih =>
    rw [show (u.pushDetached c).size = u.size + 1 from Array.size_push _]
    rw [cursor_pushDetached_eq] at hp
    split at hp
    · cases hp
    · exact ⟨(ih hp).1, Nat.lt_succ_of_lt (ih hp).2⟩
  | @modify u _ j f hf ih =>
    rw [size_modify]
    rw [cursor_modify_eq] at hp
    split at hp
    · exact ih ((hf _).symm.trans hp)
    · exact ih hp
  | addInclusion _ _ _ ih => exact ih hp

theorem mem_directlyInside {p i : Nat} :
    i ∈ u.directlyInside p ↔ i < u.size ∧ (u.cursor i).parent = some p := by
  rw [directlyInside, List.mem_filter, List.mem_range, beq_iff_eq]

namespace Built

theorem hangs_iff (h : u.Built) {p i : Nat} :
    Branch.hangs u.parents p i = true ↔ i ∈ u.directlyInside p := by
  rw [hangs_parents, mem_directlyInside]
  exact ⟨fun hp => ⟨(h.parent_lt hp.1).2, hp.1⟩, fun hi => ⟨hi.2, (h.parent_lt hi.2).1⟩⟩

theorem directlyBelow_eq (h : u.Built) (p : Nat) :
    Branch.directlyBelow u.parents p = u.directlyInside p := by
  have hsize : u.parents.size = u.size := Array.size_map
  unfold Branch.directlyBelow
  rw [hsize, directlyInside]
  refine List.filter_congr fun i hi => ?_
  rw [Bool.eq_iff_iff, h.hangs_iff, mem_directlyInside, beq_iff_eq]
  exact ⟨fun hp => hp.2, fun hp => ⟨List.mem_range.mp hi, hp⟩⟩

/-- What stands inside a cursor has it on its lineage. -/
theorem inside_iff (h : u.Built) {a i : Nat} :
    u.Inside a i ↔ a ∈ Branch.lineage u.parents i ∧ a ≠ i := by
  constructor
  · intro hi
    induction hi with
    | directly hi =>
      have hangs := h.hangs_iff.mpr hi
      exact ⟨(Branch.mem_lineage_of_hangs hangs).mpr (.inr (Branch.self_mem_lineage a)),
        Nat.ne_of_lt (Branch.hangs_lt hangs)⟩
    | @deeper p i _ hi ih =>
      have hangs := h.hangs_iff.mpr hi
      refine ⟨(Branch.mem_lineage_of_hangs hangs).mpr (.inr ih.1), Nat.ne_of_lt ?_⟩
      exact Nat.lt_of_le_of_lt (Branch.le_of_mem_lineage ih.1) (Branch.hangs_lt hangs)
  · rintro ⟨ha, hne⟩
    induction i using Nat.strongRecOn with
    | ind i ih =>
      rcases Branch.hangs_or_top u.parents i with ⟨p, hp⟩ | htop
      · have hmem := Branch.mem_lineage_parent hp ha hne
        by_cases hpa : a = p
        · exact .directly (h.hangs_iff.mp (hpa ▸ hp))
        · exact .deeper (ih p (Branch.hangs_lt hp) hmem hpa) (h.hangs_iff.mp hp)
      · rw [Branch.lineage_of_top htop, List.mem_singleton] at ha
        exact absurd ha hne

/-- The pre-order of the branches below a cursor lists what stands inside it. -/
theorem listsInside (h : u.Built) (i : Nat) :
    u.ListsInside i (Branch.rooted u.parents i).preorder.tail := by
  induction i using Branch.climb u.parents with
  | step i ih =>
    have hlists := ListsInside.mk (u := u) i
      (fun c => (Branch.rooted u.parents c).preorder.tail)
      fun c hc => ih c (h.hangs_iff.mpr hc)
    have hflat : (u.directlyInside i).flatMap
        (fun c => c :: (Branch.rooted u.parents c).preorder.tail) =
          (Branch.rooted u.parents i).preorder.tail := by
      rw [Branch.preorder_rooted, List.tail_cons, h.directlyBelow_eq]
      refine List.flatMap_congr fun c _ => ?_
      rw [Branch.preorder_rooted, List.tail_cons]
    rwa [hflat] at hlists

end Built

end TranslationUnit

/-! ## Following a list -/

namespace TranslationUnit

variable {u : TranslationUnit} {σ : Type}

/-- The edges of a list that do not lead into a cursor. -/
def outside (u : TranslationUnit) (i : Nat) (edges : List (Nat × Nat)) : List (Nat × Nat) :=
  edges.filter fun e => !(Branch.lineage u.parents e.2).contains i

theorem mem_outside {i : Nat} {edges : List (Nat × Nat)} {e : Nat × Nat} :
    e ∈ u.outside i edges ↔ e ∈ edges ∧ i ∉ Branch.lineage u.parents e.2 := by
  simp [outside]

/-- A visit along a list of edges that lead from lexical parents to cursors.  When the visitor skips
    a cursor, the edges into it are taken out of the rest of the list; when it stops, the rest is
    dropped. -/
def follow (u : TranslationUnit) (visitor : σ → Nat → Nat → σ × Verdict)
    (edges : List (Nat × Nat)) (s : σ) : σ :=
  match edges with
  | [] => s
  | (above, i) :: rest =>
    match visitor s i (u.reported above i) with
    | (s', .stop) => s'
    | (s', .skip) => follow u visitor (u.outside i rest) s'
    | (s', .descend) => follow u visitor rest s'
termination_by edges.length
decreasing_by
  · exact Nat.lt_succ_of_le (List.length_filter_le _ _)
  · exact Nat.lt_succ_self _

/-- What the walk of a branch does, as a step on the way along a list. -/
def resume (u : TranslationUnit) (visitor : σ → Nat → Nat → σ × Verdict)
    (rest : List (Nat × Nat)) : σ × Bool → σ
  | (s, true) => u.follow visitor rest s
  | (s, false) => s

variable {visitor : σ → Nat → Nat → σ × Verdict}

/-- The edges of branches that hang side by side are followed one branch after the other. -/
theorem follow_siblings (cs : List Nat) (above : Nat) (rest : List (Nat × Nat))
    (hapart : cs.Pairwise fun c c' => ∀ x, c' ∈ Branch.lineage u.parents x →
      c ∉ Branch.lineage u.parents x)
    (hrest : ∀ c ∈ cs, ∀ e ∈ rest, c ∉ Branch.lineage u.parents e.2)
    (hwalk : ∀ c ∈ cs, ∀ (rest : List (Nat × Nat)) (s : σ),
      (∀ e ∈ rest, c ∉ Branch.lineage u.parents e.2) →
        u.follow visitor ((Branch.rooted u.parents c).edges above ++ rest) s =
          u.resume visitor rest ((Branch.rooted u.parents c).walk
            (fun s i a => visitor s i (u.reported a i)) above s))
    (s : σ) :
    u.follow visitor (Branch.edgesAll above (cs.map (Branch.rooted u.parents)) ++ rest) s =
      u.resume visitor rest (Branch.walkAll (fun s i a => visitor s i (u.reported a i)) above
        (cs.map (Branch.rooted u.parents)) s) := by
  induction cs generalizing s with
  | nil => rfl
  | cons c cs ih =>
    obtain ⟨hc, hcs⟩ := List.pairwise_cons.mp hapart
    rw [List.map_cons, Branch.edgesAll, List.append_assoc, Branch.walkAll,
      hwalk c List.mem_cons_self]
    · cases hstep : (Branch.rooted u.parents c).walk
        (fun s i a => visitor s i (u.reported a i)) above s with
      | mk s' goesOn =>
        cases goesOn with
        | true =>
          exact ih hcs (fun d hd => hrest d (List.mem_cons_of_mem c hd))
            (fun d hd => hwalk d (List.mem_cons_of_mem c hd)) s'
        | false => rfl
    · intro e he
      rcases List.mem_append.mp he with he | he
      · have hitem : e.2 ∈ Branch.preorderAll (cs.map (Branch.rooted u.parents)) := by
          rw [← Branch.map_snd_edgesAll above]
          exact List.mem_map_of_mem he
        rw [Branch.preorderAll_eq_flatMap, List.flatMap_map] at hitem
        obtain ⟨d, hd, hx⟩ := List.mem_flatMap.mp hitem
        exact hc d hd e.2 ((Branch.mem_preorder_rooted d e.2).mp hx)
      · exact hrest c List.mem_cons_self e he

/-- Nothing stands inside two cursors that hang side by side. -/
theorem apart_directlyBelow (u : TranslationUnit) (i : Nat) :
    (Branch.directlyBelow u.parents i).Pairwise fun c c' =>
      ∀ x, c' ∈ Branch.lineage u.parents x → c ∉ Branch.lineage u.parents x := by
  refine (Branch.directlyBelow_pairwise u.parents i).imp_of_mem ?_
  intro c c' hc hc' hlt x hx hcx
  exact absurd (Branch.siblings_disjoint (Branch.mem_directlyBelow.mp hc)
    (Branch.mem_directlyBelow.mp hc') hcx hx) (Nat.ne_of_lt hlt)

/-- **To walk a branch is to follow its edges**, whatever comes behind them. -/
theorem follow_branch (i above : Nat) (rest : List (Nat × Nat)) (s : σ)
    (hrest : ∀ e ∈ rest, i ∉ Branch.lineage u.parents e.2) :
    u.follow visitor ((Branch.rooted u.parents i).edges above ++ rest) s =
      u.resume visitor rest ((Branch.rooted u.parents i).walk
        (fun s i a => visitor s i (u.reported a i)) above s) := by
  induction i using Branch.climb u.parents generalizing above rest s with
  | step i ih =>
    rw [Branch.rooted_eq, Branch.edges, List.cons_append, follow, Branch.walk]
    have hinside : ∀ e ∈ Branch.edgesAll i
        ((Branch.directlyBelow u.parents i).map (Branch.rooted u.parents)),
        i ∈ Branch.lineage u.parents e.2 := fun e he => by
      have hitem : e.2 ∈ (Branch.rooted u.parents i).preorder := by
        rw [Branch.rooted_eq, Branch.preorder, ← Branch.map_snd_edgesAll i]
        exact List.mem_cons_of_mem i (List.mem_map_of_mem he)
      exact (Branch.mem_preorder_rooted i e.2).mp hitem
    cases visitor s i (u.reported above i) with
    | mk s' answer =>
      cases answer with
      | stop => rfl
      | skip =>
        -- all edges of the branch lead into the cursor that is skipped, and none behind them does
        have hout : u.outside i (Branch.edgesAll i
            ((Branch.directlyBelow u.parents i).map (Branch.rooted u.parents)) ++ rest) = rest := by
          unfold outside
          rw [List.filter_append, List.filter_eq_nil_iff.mpr, List.nil_append,
            List.filter_eq_self.mpr]
          · intro e he
            simpa using hrest e he
          · intro e he
            simpa using hinside e he
        simp only [hout]
        rfl
      | descend =>
        refine follow_siblings _ i rest (apart_directlyBelow u i) ?_ ?_ s'
        · intro c hc e he hmem
          refine hrest e he (Branch.mem_lineage_trans ?_ hmem)
          exact (Branch.mem_lineage_of_hangs (Branch.mem_directlyBelow.mp hc)).mpr
            (.inr (Branch.self_mem_lineage i))
        · exact fun c hc rest s hrest => ih c (Branch.mem_directlyBelow.mp hc) i rest s hrest

/-- The edges strictly inside a cursor, in pre-order. -/
def edgesInside (u : TranslationUnit) (start : Nat) : List (Nat × Nat) :=
  Branch.edgesAll start ((Branch.directlyBelow u.parents start).map (Branch.rooted u.parents))

theorem resume_nil (done : σ × Bool) : u.resume visitor [] done = done.1 := by
  obtain ⟨s, goesOn⟩ := done
  cases goesOn with
  | true => rw [resume, follow]
  | false => rfl

/-- A visit follows the edges inside its start. -/
theorem visit_eq_follow (start : Nat) (visitor : σ → Nat → Nat → σ × Verdict) (s : σ) :
    u.visit start visitor s = u.follow visitor (u.edgesInside start) s := by
  have hfollow := @follow_siblings u _ visitor
    (Branch.directlyBelow u.parents start) start [] (apart_directlyBelow u start)
    (fun _ _ _ he => by cases he) (fun c _ rest s hrest => follow_branch c start rest s hrest) s
  rw [List.append_nil, resume_nil] at hfollow
  rw [edgesInside, hfollow, visit, branches_getD]
  rfl

/-! ## The calls of a visitor -/

/-- A call of a visitor: the cursor and the parent that it is handed, and what it answers. -/
structure Call where
  cursor : Nat
  parent : Nat
  answer : Verdict

/-- A visitor that takes down its calls, the latest last. -/
def recording (visitor : σ → Nat → Nat → σ × Verdict) (seen : σ × List Call) (i parent : Nat) :
    (σ × List Call) × Verdict :=
  let (s, answer) := visitor seen.1 i parent
  ((s, seen.2 ++ [⟨i, parent, answer⟩]), answer)

/-- What a visitor is called with. -/
def calls (u : TranslationUnit) (start : Nat) (visitor : σ → Nat → Nat → σ × Verdict) (s : σ) :
    List Call :=
  (u.visit start (recording visitor) (s, [])).2

/-- The calls take the visitor from one state to another: each one finds what those before it left,
    and its answer is what the visitor answers then. -/
inductive Drives (visitor : σ → Nat → Nat → σ × Verdict) : σ → List Call → σ → Prop where
  | nil (s : σ) : Drives visitor s [] s
  | cons {s s' t : σ} {c : Call} {calls : List Call}
      (h : visitor s c.cursor c.parent = (s', c.answer)) (hrest : Drives visitor s' calls t) :
      Drives visitor s (c :: calls) t

/-- No call with the answer to skip is for a cursor strictly above this one. -/
def Spared (u : TranslationUnit) (calls : List Call) (i : Nat) : Prop :=
  ∀ c ∈ calls, c.answer = .skip → c.cursor ∈ Branch.lineage u.parents i → c.cursor = i

instance (u : TranslationUnit) (calls : List Call) (i : Nat) : Decidable (u.Spared calls i) :=
  List.decidableBAll _ _

/-- The calls go along a list of edges. -/
structure Along (u : TranslationUnit) (visitor : σ → Nat → Nat → σ × Verdict) (s : σ)
    (edges : List (Nat × Nat)) (calls : List Call) (t : σ) : Prop where
  drives : Drives visitor s calls t
  /-- They are for the edges that no skipped cursor takes out, up to one where the visitor stops. -/
  cut : ∃ taken rest, edges.filter (fun e => u.Spared calls e.2) = taken ++ rest ∧
    calls.map (fun c => (c.cursor, c.parent)) = taken.map (fun e => (e.2, u.reported e.1 e.2)) ∧
    (rest = [] ∨ ∃ c ∈ calls.getLast?, c.answer = .stop)
  goesOn : ∀ c ∈ calls.dropLast, c.answer ≠ .stop

namespace Along

variable {s s' t : σ} {edges : List (Nat × Nat)} {calls : List Call}

theorem mem_edges (h : u.Along visitor s edges calls t) {c : Call} (hc : c ∈ calls) :
    ∃ e ∈ edges, c.cursor = e.2 ∧ c.parent = u.reported e.1 e.2 := by
  obtain ⟨taken, rest, hcut, hedges, -⟩ := h.cut
  have hmem : (c.cursor, c.parent) ∈ taken.map fun e => (e.2, u.reported e.1 e.2) :=
    hedges ▸ List.mem_map_of_mem hc
  obtain ⟨e, he, heq⟩ := List.mem_map.mp hmem
  obtain ⟨hcursor, hparent⟩ := Prod.mk.inj heq
  have hin : e ∈ edges.filter fun e => u.Spared calls e.2 :=
    hcut ▸ List.mem_append_left rest he
  exact ⟨e, (List.mem_filter.mp hin).1, hcursor.symm, hparent.symm⟩

/-- A call in front of others: what it leaves of the list is what those go along. -/
theorem cons {above i : Nat} {answer : Verdict} {rest left : List (Nat × Nat)}
    (hstep : visitor s i (u.reported above i) = (s', answer)) (hanswer : answer ≠ .stop)
    (hbehind : ∀ e ∈ rest, e.2 ∉ Branch.lineage u.parents i)
    (h : u.Along visitor s' left calls t) (hleft : left ⊆ rest)
    (hspared : left.filter (fun e => u.Spared calls e.2) =
      rest.filter fun e => u.Spared (⟨i, u.reported above i, answer⟩ :: calls) e.2) :
    u.Along visitor s ((above, i) :: rest) (⟨i, u.reported above i, answer⟩ :: calls) t := by
  have hself : u.Spared (⟨i, u.reported above i, answer⟩ :: calls) i := by
    intro c hc _ hmem
    rcases List.mem_cons.mp hc with rfl | hc
    · rfl
    · obtain ⟨e, he, hcursor, -⟩ := h.mem_edges hc
      exact absurd (hcursor ▸ hmem) (hbehind e (hleft he))
  obtain ⟨taken, dropped, hcut, hedges, hdropped⟩ := h.cut
  refine ⟨.cons hstep h.drives, ⟨(above, i) :: taken, dropped, ?_, ?_, ?_⟩, fun c hc => ?_⟩
  · rw [List.filter_cons_of_pos (by simpa using hself), ← hspared, hcut, List.cons_append]
  · rw [List.map_cons, List.map_cons, hedges]
  · refine hdropped.imp_right fun ⟨c, hc, hstop⟩ => ⟨c, ?_, hstop⟩
    cases calls with
    | nil => cases hc
    | cons d calls => exact hc
  · cases calls with
    | nil => cases hc
    | cons d calls =>
      rw [List.dropLast_cons_cons] at hc
      rcases List.mem_cons.mp hc with rfl | hc
      · exact hanswer
      · exact h.goesOn c hc

end Along

theorem spared_cons {c : Call} {calls : List Call} {i : Nat} :
    u.Spared (c :: calls) i ↔
      (c.answer = .skip → c.cursor ∈ Branch.lineage u.parents i → c.cursor = i) ∧
        u.Spared calls i :=
  List.forall_mem_cons

/-- **Which edges of a list are followed.**  In the list no cursor stands behind one inside it. -/
theorem follow_along (edges : List (Nat × Nat)) (s : σ) (past : List Call)
    (horder : edges.Pairwise fun e e' => e'.2 ∉ Branch.lineage u.parents e.2) :
    ∃ calls, u.Along visitor s edges calls (u.follow visitor edges s) ∧
      u.follow (recording visitor) edges (s, past) = (u.follow visitor edges s, past ++ calls) := by
  fun_induction follow u visitor edges s generalizing past with
  | case1 s =>
    refine ⟨[], ⟨.nil s, ⟨[], [], rfl, rfl, .inl rfl⟩, fun c hc => by cases hc⟩, ?_⟩
    rw [follow, List.append_nil]
  | case2 s above i rest s' hstep =>
    obtain ⟨hbehind, -⟩ := List.pairwise_cons.mp horder
    let c : Call := ⟨i, u.reported above i, .stop⟩
    refine ⟨[c], ⟨.cons hstep (.nil s'), ⟨[(above, i)], rest, ?_, rfl, .inr ⟨c, rfl, rfl⟩⟩, ?_⟩, ?_⟩
    · have hspared : ∀ x, u.Spared [c] x := fun x d hd hskip => by
        rw [List.mem_singleton.mp hd] at hskip
        cases hskip
      rw [List.filter_eq_self.mpr fun e _ => decide_eq_true (hspared e.2)]
      rfl
    · exact fun d hd => by cases hd
    · rw [follow, recording, hstep]
  | case3 s above i rest s' hstep ih =>
    obtain ⟨hbehind, hrest⟩ := List.pairwise_cons.mp horder
    let c : Call := ⟨i, u.reported above i, .skip⟩
    obtain ⟨calls, halong, hrecorded⟩ :=
      ih (past ++ [c]) (List.Pairwise.sublist List.filter_sublist hrest)
    refine ⟨c :: calls, halong.cons hstep Verdict.noConfusion hbehind
      (fun e he => (mem_outside.mp he).1) ?_, ?_⟩
    · unfold outside
      rw [List.filter_filter]
      refine List.filter_congr fun e he => ?_
      have hne : e.2 ≠ i := fun heq => hbehind e he (by
        rw [heq]
        exact Branch.self_mem_lineage i)
      rw [← Bool.decide_coe (!_), ← Bool.decide_and, decide_eq_decide, spared_cons]
      simp only [Bool.not_eq_true', List.contains_eq_mem, decide_eq_false_iff_not]
      exact ⟨fun ⟨hspared, hout⟩ => ⟨fun _ hmem => absurd hmem hout, hspared⟩,
        fun ⟨hout, hspared⟩ => ⟨hspared, fun hmem => hne (hout trivial hmem).symm⟩⟩
    · rw [follow, recording, hstep]
      simp only
      rw [hrecorded, List.append_assoc]
      rfl
  | case4 s above i rest s' hstep ih =>
    obtain ⟨hbehind, hrest⟩ := List.pairwise_cons.mp horder
    let c : Call := ⟨i, u.reported above i, .descend⟩
    obtain ⟨calls, halong, hrecorded⟩ := ih (past ++ [c]) hrest
    refine ⟨c :: calls,
      halong.cons hstep Verdict.noConfusion hbehind (List.Subset.refl rest) ?_, ?_⟩
    · refine List.filter_congr fun e _ => ?_
      rw [decide_eq_decide, spared_cons]
      exact ⟨fun hspared => ⟨fun hskip => Verdict.noConfusion hskip, hspared⟩, fun h => h.2⟩
    · rw [follow, recording, hstep]
      simp only
      rw [hrecorded, List.append_assoc]
      rfl

/-! ## The edges inside a cursor -/

theorem map_snd_edgesInside (u : TranslationUnit) (start : Nat) :
    (u.edgesInside start).map (·.2) = (Branch.rooted u.parents start).preorder.tail := by
  rw [edgesInside, Branch.map_snd_edgesAll, Branch.rooted_eq, Branch.preorder, List.tail_cons]

/-- The edges inside a cursor lead from lexical parents. -/
theorem hangs_of_mem_edgesInside {start : Nat} {e : Nat × Nat} (h : e ∈ u.edgesInside start) :
    Branch.hangs u.parents e.1 e.2 = true := by
  induction start using Branch.climb u.parents with
  | step i ih =>
    rw [edgesInside, Branch.edgesAll_eq_flatMap, List.flatMap_map] at h
    obtain ⟨c, hc, he⟩ := List.mem_flatMap.mp h
    have hhangs := Branch.mem_directlyBelow.mp hc
    rw [Branch.rooted_eq, Branch.edges, List.mem_cons] at he
    rcases he with rfl | he
    · exact hhangs
    · exact ih c hhangs he

/-- No edge inside a cursor leads into one above the cursors of the edges before it. -/
theorem pairwise_edgesInside (u : TranslationUnit) (start : Nat) :
    (u.edgesInside start).Pairwise fun e e' => e'.2 ∉ Branch.lineage u.parents e.2 := by
  have hitems := (Branch.preorder_descends u.parents start).sublist (List.tail_sublist _)
  rwa [← map_snd_edgesInside, List.pairwise_map] at hitems

/-- The calls of a visit go along the edges inside its start. -/
theorem calls_along (start : Nat) (visitor : σ → Nat → Nat → σ × Verdict) (s : σ) :
    u.Along visitor s (u.edgesInside start) (u.calls start visitor s)
      (u.visit start visitor s) := by
  obtain ⟨found, halong, hrecorded⟩ :=
    @follow_along u _ visitor (u.edgesInside start) s [] (pairwise_edgesInside u start)
  have hcalls : u.calls start visitor s = found := by
    rw [calls, visit_eq_follow, hrecorded]
    rfl
  rwa [← visit_eq_follow, ← hcalls] at halong

open scoped Classical in
/-- **What a visitor is called with.**  The calls run through the pre-order list of what stands
    inside the start, without what stands inside a cursor that the visitor skipped, and end at the
    first cursor where it stops; each is handed the parent that its cursor reports, or else the
    lexical one, and no cursor is handed over twice. -/
theorem visit_calls (h : u.Built) (start : Nat) (visitor : σ → Nat → Nat → σ × Verdict) (s : σ) :
    let calls := u.calls start visitor s
    Drives visitor s calls (u.visit start visitor s) ∧
    (∃ order rest, u.ListsInside start order ∧
      order.filter (fun i => ∀ c ∈ calls, c.answer = .skip → ¬u.Inside c.cursor i) =
        calls.map (·.cursor) ++ rest ∧
      (rest = [] ∨ ∃ c ∈ calls.getLast?, c.answer = .stop)) ∧
    (∀ c ∈ calls.dropLast, c.answer ≠ .stop) ∧
    (∀ c ∈ calls, ∃ lexical, (u.cursor c.cursor).parent = some lexical ∧
      c.parent = ((u.cursor c.cursor).reportedParent).getD lexical) ∧
    (calls.map (·.cursor)).Nodup := by
  intro calls
  have halong : u.Along visitor s (u.edgesInside start) calls (u.visit start visitor s) :=
    calls_along start visitor s
  obtain ⟨taken, rest, hcut, hedges, hrest⟩ := halong.cut
  have hcursors : calls.map (·.cursor) = taken.map (·.2) := by
    have hfirst := congrArg (List.map Prod.fst) hedges
    rw [List.map_map, List.map_map] at hfirst
    exact hfirst
  have hspared : (Branch.rooted u.parents start).preorder.tail.filter
      (fun i => ∀ c ∈ calls, c.answer = .skip → ¬u.Inside c.cursor i) =
        calls.map (·.cursor) ++ rest.map (·.2) := by
    rw [hcursors, ← List.map_append, ← hcut, ← map_snd_edgesInside, List.filter_map]
    refine congrArg _ (List.filter_congr fun e _ => ?_)
    simp only [Function.comp_apply, decide_eq_decide]
    refine forall₃_congr fun c _ _ => ?_
    rw [h.inside_iff, not_and, not_not]
  refine ⟨halong.drives, ⟨_, _, h.listsInside start, hspared, ?_⟩, halong.goesOn,
    fun c hc => ?_, ?_⟩
  · exact hrest.imp_left fun hnil => by rw [hnil]; rfl
  · obtain ⟨e, he, hcursor, hparent⟩ := halong.mem_edges hc
    have hhangs := hangs_of_mem_edgesInside he
    refine ⟨e.1, ?_, ?_⟩
    · rw [hcursor]
      exact (hangs_parents.mp hhangs).1
    · rw [hparent, hcursor]
      rfl
  · have hnodup := (Branch.nodup_preorder_rooted u.parents start).sublist (List.tail_sublist _)
    have hsub := (List.filter_sublist (l := (Branch.rooted u.parents start).preorder.tail)
      (p := fun i => ∀ c ∈ calls, c.answer = .skip → ¬u.Inside c.cursor i))
    rw [hspared] at hsub
    exact hnodup.sublist ((List.sublist_append_left _ _).trans hsub)

/-- A function with a parameter and a body that reports the unit's own cursor as its parent, a use
    of the parameter inside, and two variables behind it. -/
def functionUnit : TranslationUnit :=
  let cursor (kind : CursorKind) (spelling : String) (reportedParent : Option Nat) : Cursor :=
    { kind, spelling, position := .none, reportedParent }
  (((((TranslationUnit.empty ⟨"/t/main.c"⟩).push 0 (cursor .functionDecl "f" none)).push 1
    (cursor .parmDecl "p" none)).push 1 (cursor .compoundStmt "" (some 0))).push 3
      (cursor .declRefExpr "p" none)).push 0 (cursor .varDecl "g" none) |>.push 0
        (cursor .varDecl "h" none)

theorem built_functionUnit : functionUnit.Built :=
  (.push (.push (.push (.push (.push (.push (.empty _) (by decide) _) (by decide) _) (by decide) _)
    (by decide) _) (by decide) _) (by decide) _)

/-- Skips the third cursor that it sees, and stops at the fourth. -/
def thirdAndFourth (seen _cursor _parent : Nat) : Nat × Verdict :=
  (seen + 1, if seen = 2 then .skip else if seen = 3 then .stop else .descend)

theorem visit_calls_functionUnit :
    functionUnit.Built ∧
      (functionUnit.calls 0 thirdAndFourth 0).map (fun c => (c.cursor, c.parent)) =
        [(1, 0), (2, 1), (3, 0), (5, 0)] ∧
      Drives thirdAndFourth 0 (functionUnit.calls 0 thirdAndFourth 0)
        (functionUnit.visit 0 thirdAndFourth 0) ∧
      ((functionUnit.calls 0 thirdAndFourth 0).map (·.cursor)).Nodup := by
  obtain ⟨hdrives, -, -, -, hnodup⟩ := visit_calls built_functionUnit 0 thirdAndFourth 0
  exact ⟨built_functionUnit, by decide +kernel, hdrives, hnodup⟩

end TranslationUnit

end SymbolAtlas
