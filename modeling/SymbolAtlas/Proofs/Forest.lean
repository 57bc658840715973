import Mathlib.Data.List.Nodup
import Mathlib.Data.List.TakeWhile
import SymbolAtlas.Branch

/-!
# Forests and lineages

What `Branch.table` makes of parent links, and how the items above and below an item relate.

* `Branch.directlyBelow` — the items directly below an item; `Branch.rooted_eq` unfolds a rooted
  branch into the rooted branches of these, so facts about branches are proved by `Branch.climb`,
  from the leaves up.
* `Branch.lineage` — an item and everything above it, the item itself first.

Principal results: `mem_preorder_rooted` — a rooted branch holds exactly the items whose lineage
passes through its root; `nodup_preorder_rooted` — it holds each of them once.
-/

set_option autoImplicit false

namespace SymbolAtlas.Branch

variable {parents : Array (Option Nat)}

/-- Item `i` hangs directly below item `p`. -/
def hangs (parents : Array (Option Nat)) (p i : Nat) : Bool :=
  parents[i]?.join == some p && decide (p < i)

/-- The items directly below an item, ascending. -/
def directlyBelow (parents : Array (Option Nat)) (p : Nat) : List Nat :=
  (List.range parents.size).filter (hangs parents p)

/-- An item and the items above it, the nearest first. -/
def lineage (parents : Array (Option Nat)) (i : Nat) : List Nat :=
  i :: match parents[i]?.join with
    | some p => if p < i then lineage parents p else []
    | none => []
termination_by i

/-! ## Links -/

theorem hangs_iff {p i : Nat} : hangs parents p i = true ↔ parents[i]?.join = some p ∧ p < i := by
  simp [hangs]

theorem hangs_lt {p i : Nat} (h : hangs parents p i = true) : p < i := (hangs_iff.mp h).2

theorem hangs_lt_size {p i : Nat} (h : hangs parents p i = true) : i < parents.size := by
  refine Classical.byContradiction fun hi => ?_
  have hnone : parents[i]? = none := Array.getElem?_eq_none (Nat.le_of_not_lt hi)
  simp [hangs, hnone] at h

theorem mem_directlyBelow {p i : Nat} : i ∈ directlyBelow parents p ↔ hangs parents p i = true := by
  rw [directlyBelow, List.mem_filter, List.mem_range]
  exact ⟨fun h => h.2, fun h => ⟨hangs_lt_size h, h⟩⟩

theorem directlyBelow_pairwise (parents : Array (Option Nat)) (p : Nat) :
    (directlyBelow parents p).Pairwise (· < ·) :=
  List.Pairwise.sublist List.filter_sublist List.pairwise_lt_range

/-- Proves a fact about an item from the same fact about the items directly below it. -/
theorem climb (parents : Array (Option Nat)) {motive : Nat → Prop}
    (step : ∀ i, (∀ c, hangs parents i c = true → motive c) → motive i) (i : Nat) : motive i := by
  -- the distance to the end of the arena falls from an item to those below it
  obtain ⟨d, hd⟩ : ∃ d, d = parents.size - i := ⟨_, rfl⟩
  induction d using Nat.strongRecOn generalizing i with
  | _ d ih =>
    refine step i fun c hc => ih (parents.size - c) ?_ c rfl
    have h₁ := hangs_lt hc
    have h₂ := hangs_lt_size hc
    omega

/-! ## The table -/

theorem size_attach (i : Nat) (t : Array (List Branch)) :
    (attach parents i t).size = t.size := by
  unfold attach
  split
  · split <;> simp
  · rfl

theorem getD_attach {i : Nat} {t : Array (List Branch)} (hi : i < t.size) (p : Nat) :
    (attach parents i t).getD p [] =
      (if hangs parents p i then [.node i (t.getD i [])] else []) ++ t.getD p [] := by
  unfold attach hangs
  cases hp : parents[i]?.join with
  | none => simp
  | some q =>
    by_cases hlt : q < i
    · by_cases hq : q = p
      · subst hq
        have hsize : q < t.size := by omega
        simp [hlt, hsize, Array.getElem_modify]
      · by_cases hsize : p < t.size
        · simp [hlt, hq, hsize, Array.getElem_modify]
        · simp [hlt, hq, hsize]
    · have hne : ¬(q = p ∧ p < i) := by omega
      simp [hlt, hne]

/-- Hanging the first `n` items, the last of them first, puts in front of every entry the branches
    of the items among them that belong there. -/
theorem getD_foldr_attach (parents : Array (Option Nat)) (n : Nat) :
    ∀ (t : Array (List Branch)), n ≤ t.size → ∀ p,
    ((List.range n).foldr (attach parents) t).getD p [] =
      ((List.range n).filter (hangs parents p)).map
          (fun j => .node j (((List.range n).foldr (attach parents) t).getD j []))
        ++ t.getD p [] := by
  induction n with
  | zero => intro t _ p; simp
  | succ n ih =>
    intro t hn p
    have hn' : n < t.size := by omega
    have hfold : (List.range (n + 1)).foldr (attach parents) t =
        (List.range n).foldr (attach parents) (attach parents n t) := by
      rw [List.range_succ, List.foldr_append]; rfl
    have ih' := ih (attach parents n t) (by rw [size_attach]; omega)
    -- item n has no earlier item below it, so its own entry is already complete
    have hself : ((List.range n).foldr (attach parents) (attach parents n t)).getD n [] =
        t.getD n [] := by
      have hnone : (List.range n).filter (hangs parents n) = [] := by
        rw [List.filter_eq_nil_iff]
        intro j hj hjn
        have h₁ := hangs_lt hjn
        have h₂ := List.mem_range.mp hj
        omega
      have hnn : hangs parents n n = false := by simp [hangs]
      rw [ih' n, hnone, getD_attach hn', hnn]
      simp
    rw [hfold, ih' p, getD_attach hn', List.range_succ, List.filter_append, List.map_append,
      List.append_assoc]
    congr 1
    cases hp : hangs parents p n with
    | true => rw [if_pos rfl, List.filter_cons_of_pos hp, List.map_cons, hself]; rfl
    | false => simp [hp]

theorem table_getD (p : Nat) :
    (table parents).getD p [] = (directlyBelow parents p).map (rooted parents) := by
  have h := getD_foldr_attach parents parents.size
    (Array.replicate parents.size []) (by simp) p
  have hnil : (Array.replicate parents.size ([] : List Branch)).getD p [] = [] := by
    rw [Array.getD_eq_getD_getElem?, Array.getElem?_replicate]
    split <;> rfl
  rw [hnil, List.append_nil] at h
  exact h

/-- A rooted branch holds the rooted branches of the items directly below its root. -/
theorem rooted_eq (i : Nat) :
    rooted parents i = .node i ((directlyBelow parents i).map (rooted parents)) := by
  rw [rooted, table_getD]

/-! ## Lineages -/

theorem lineage_of_hangs {p i : Nat} (h : hangs parents p i = true) :
    lineage parents i = i :: lineage parents p := by
  obtain ⟨hp, hlt⟩ := hangs_iff.mp h
  rw [lineage, hp]
  simp [hlt]

theorem lineage_of_top {i : Nat} (h : ∀ p, hangs parents p i = false) :
    lineage parents i = [i] := by
  rw [lineage]
  cases hp : parents[i]?.join with
  | none => rfl
  | some p =>
    have hlt : ¬p < i := by
      intro hlt
      have hf := h p
      rw [hangs_iff.mpr ⟨hp, hlt⟩] at hf
      cases hf
    simp [hlt]

theorem lineage_of_size_le {i : Nat} (h : parents.size ≤ i) : lineage parents i = [i] := by
  refine lineage_of_top fun p => Bool.eq_false_iff.mpr fun hp => ?_
  have hlt := hangs_lt_size hp
  omega

/-- An item hangs below another one, or nothing is above it. -/
theorem hangs_or_top (parents : Array (Option Nat)) (i : Nat) :
    (∃ p, hangs parents p i = true) ∨ ∀ p, hangs parents p i = false := by
  by_cases h : ∃ p, hangs parents p i = true
  · exact Or.inl h
  · exact Or.inr fun p => Bool.eq_false_iff.mpr fun hp => h ⟨p, hp⟩

theorem self_mem_lineage (i : Nat) : i ∈ lineage parents i := by
  rw [lineage]; exact List.mem_cons_self

theorem mem_lineage_of_hangs {p i a : Nat} (h : hangs parents p i = true) :
    a ∈ lineage parents i ↔ a = i ∨ a ∈ lineage parents p := by
  rw [lineage_of_hangs h, List.mem_cons]

theorem le_of_mem_lineage {a i : Nat} (h : a ∈ lineage parents i) : a ≤ i := by
  induction i using Nat.strongRecOn with
  | _ i ih =>
    rcases hangs_or_top parents i with ⟨p, hp⟩ | htop
    · rcases (mem_lineage_of_hangs hp).mp h with rfl | h
      · exact Nat.le_refl _
      · have h₁ := ih p (hangs_lt hp) h
        have h₂ := hangs_lt hp
        omega
    · rw [lineage_of_top htop, List.mem_singleton] at h
      omega

/-- The lineage of an item ends with that of every item on it. -/
theorem lineage_suffix {a i : Nat} (h : a ∈ lineage parents i) :
    lineage parents a <:+ lineage parents i := by
  induction i using Nat.strongRecOn with
  | _ i ih =>
    rcases hangs_or_top parents i with ⟨p, hp⟩ | htop
    · rcases (mem_lineage_of_hangs hp).mp h with rfl | h
      · exact List.suffix_refl _
      · rw [lineage_of_hangs hp]
        exact (ih p (hangs_lt hp) h).trans (List.suffix_cons _ _)
    · rw [lineage_of_top htop, List.mem_singleton] at h
      subst h
      exact List.suffix_refl _

theorem mem_lineage_trans {a b c : Nat} (hab : a ∈ lineage parents b)
    (hbc : b ∈ lineage parents c) : a ∈ lineage parents c :=
  (lineage_suffix hbc).subset hab

/-- What is strictly above an item is above the item that it hangs below. -/
theorem mem_lineage_parent {p i a : Nat} (hp : hangs parents p i = true)
    (ha : a ∈ lineage parents i) (hne : a ≠ i) : a ∈ lineage parents p :=
  ((mem_lineage_of_hangs hp).mp ha).resolve_left hne

/-- Of two items above a third, one is above the other. -/
theorem mem_lineage_total {a b i : Nat} (ha : a ∈ lineage parents i)
    (hb : b ∈ lineage parents i) : a ∈ lineage parents b ∨ b ∈ lineage parents a := by
  rcases List.suffix_or_suffix_of_suffix (lineage_suffix ha) (lineage_suffix hb) with h | h
  · exact Or.inl (h.subset (self_mem_lineage a))
  · exact Or.inr (h.subset (self_mem_lineage b))

/-- A tail of a lineage is the lineage of its first item. -/
theorem eq_lineage_of_suffix {a i : Nat} {rest : List Nat}
    (h : a :: rest <:+ lineage parents i) : a :: rest = lineage parents a := by
  induction i using Nat.strongRecOn with
  | _ i ih =>
    rcases hangs_or_top parents i with ⟨p, hp⟩ | htop
    · rw [lineage_of_hangs hp] at h
      rcases List.suffix_cons_iff.mp h with h | h
      · obtain ⟨rfl, rfl⟩ := List.cons.inj h
        rw [lineage_of_hangs hp]
      · exact ih p (hangs_lt hp) h
    · rw [lineage_of_top htop] at h
      rcases List.suffix_cons_iff.mp h with h | h
      · obtain ⟨rfl, rfl⟩ := List.cons.inj h
        rw [lineage_of_top htop]
      · exact absurd (List.suffix_nil.mp h) (List.cons_ne_nil _ _)

/-- Dropping from a lineage what fails a test leaves the lineage of the first item that passes. -/
theorem dropWhile_lineage (parents : Array (Option Nat)) (test : Nat → Bool) (i : Nat) :
    (lineage parents i).dropWhile (fun a => !test a) =
      match (lineage parents i).find? test with
      | some a => lineage parents a
      | none => [] := by
  rw [List.find?_eq_head?_dropWhile_not]
  cases hd : (lineage parents i).dropWhile fun a => !test a with
  | nil => rfl
  | cons a rest => exact eq_lineage_of_suffix (hd ▸ List.dropWhile_suffix _)

/-- What passes a test on a lineage is at or above the first item that does. -/
theorem mem_lineage_of_find? {test : Nat → Bool} {i top n : Nat}
    (h : (lineage parents i).find? test = some top) (hn : n ∈ lineage parents i)
    (ht : test n = true) : n ∈ lineage parents top := by
  have hdrop := dropWhile_lineage parents test i
  rw [h] at hdrop
  have hsplit := List.takeWhile_append_dropWhile (p := fun a => !test a) (l := lineage parents i)
  rw [← hsplit, List.mem_append] at hn
  rcases hn with hn | hn
  · have hf := List.mem_takeWhile_imp hn
    rw [ht] at hf
    cases hf
  · rw [hdrop] at hn
    exact hn

/-- An item is at or above another one when it is that one or has a step directly below it there. -/
theorem mem_lineage_iff_step {a x : Nat} :
    a ∈ lineage parents x ↔ x = a ∨ ∃ c, hangs parents a c = true ∧ c ∈ lineage parents x := by
  constructor
  · intro h
    induction x using Nat.strongRecOn with
    | _ x ih =>
      rcases hangs_or_top parents x with ⟨p, hp⟩ | htop
      · rcases (mem_lineage_of_hangs hp).mp h with rfl | h
        · exact Or.inl rfl
        · rcases ih p (hangs_lt hp) h with rfl | ⟨c, hc, hcp⟩
          · exact Or.inr ⟨x, hp, self_mem_lineage x⟩
          · exact Or.inr ⟨c, hc, (mem_lineage_of_hangs hp).mpr (Or.inr hcp)⟩
      · rw [lineage_of_top htop, List.mem_singleton] at h
        exact Or.inl h.symm
  · rintro (rfl | ⟨c, hc, hcx⟩)
    · exact self_mem_lineage _
    · have hac : a ∈ lineage parents c :=
        (mem_lineage_of_hangs hc).mpr (Or.inr (self_mem_lineage a))
      exact mem_lineage_trans hac hcx

/-! ## More items at the end -/

theorem hangs_congr {parents' : Array (Option Nat)} {i : Nat} (h : parents'[i]? = parents[i]?)
    (p : Nat) : hangs parents' p i = hangs parents p i := by
  rw [hangs, h, hangs]

theorem lineage_congr {parents' : Array (Option Nat)} {i : Nat}
    (h : ∀ j ≤ i, parents'[j]? = parents[j]?) : lineage parents' i = lineage parents i := by
  induction i using Nat.strongRecOn with
  | _ i ih =>
    rcases hangs_or_top parents i with ⟨p, hp⟩ | htop
    · have hp' := hp
      rw [← hangs_congr (h i (Nat.le_refl i))] at hp'
      have hlt := hangs_lt hp
      rw [lineage_of_hangs hp, lineage_of_hangs hp', ih p hlt fun j hj => h j (by omega)]
    · have htop' : ∀ p, hangs parents' p i = false := fun p => by
        rw [hangs_congr (h i (Nat.le_refl i))]; exact htop p
      rw [lineage_of_top htop, lineage_of_top htop']

theorem getElem?_push_of_lt {x : Option Nat} {i : Nat} (hi : i < parents.size) :
    (parents.push x)[i]? = parents[i]? := by
  rw [Array.getElem?_push, if_neg (Nat.ne_of_lt hi)]

theorem hangs_push_of_lt {x : Option Nat} {p i : Nat} (hi : i < parents.size) :
    hangs (parents.push x) p i = hangs parents p i :=
  hangs_congr (getElem?_push_of_lt hi) p

theorem hangs_push_size {q p : Nat} (hq : q < parents.size) :
    hangs (parents.push (some q)) p parents.size = true ↔ p = q := by
  rw [hangs_iff, Array.getElem?_push_size, Option.join_some, Option.some.injEq]
  exact ⟨fun h => h.1.symm, fun h => ⟨h.symm, h ▸ hq⟩⟩

theorem lineage_push_of_lt {x : Option Nat} {i : Nat} (hi : i < parents.size) :
    lineage (parents.push x) i = lineage parents i :=
  lineage_congr fun j hj => getElem?_push_of_lt (by omega)

theorem lineage_push_size {q : Nat} (hq : q < parents.size) :
    lineage (parents.push (some q)) parents.size = parents.size :: lineage parents q := by
  rw [lineage_of_hangs ((hangs_push_size hq).mpr rfl), lineage_push_of_lt hq]

/-! ## Pre-order -/

theorem preorderAll_eq_flatMap (bs : List Branch) : preorderAll bs = bs.flatMap preorder := by
  induction bs with
  | nil => rfl
  | cons b bs ih => rw [preorderAll, ih, List.flatMap_cons]

theorem preorder_rooted (i : Nat) :
    (rooted parents i).preorder =
      i :: (directlyBelow parents i).flatMap fun c => (rooted parents c).preorder := by
  rw [rooted_eq, preorder, preorderAll_eq_flatMap, List.flatMap_map]

/-- A rooted branch holds exactly the items whose lineage passes through its root. -/
theorem mem_preorder_rooted (i x : Nat) :
    x ∈ (rooted parents i).preorder ↔ i ∈ lineage parents x := by
  induction i using climb parents with
  | step i ih =>
    rw [preorder_rooted, List.mem_cons, List.mem_flatMap, mem_lineage_iff_step]
    constructor
    · rintro (rfl | ⟨c, hc, hx⟩)
      · exact Or.inl rfl
      · exact Or.inr ⟨c, mem_directlyBelow.mp hc, (ih c (mem_directlyBelow.mp hc)).mp hx⟩
    · rintro (rfl | ⟨c, hc, hx⟩)
      · exact Or.inl rfl
      · exact Or.inr ⟨c, mem_directlyBelow.mpr hc, (ih c hc).mpr hx⟩

/-- Two items below the same one have nothing below them in common. -/
theorem siblings_disjoint {p a b x : Nat} (ha : hangs parents p a = true)
    (hb : hangs parents p b = true) (hax : a ∈ lineage parents x)
    (hbx : b ∈ lineage parents x) : a = b := by
  have apart : ∀ {a b : Nat}, hangs parents p a = true → hangs parents p b = true →
      a ∈ lineage parents b → a = b := by
    intro a b ha hb hab
    refine Classical.byContradiction fun hne => ?_
    have h₁ := le_of_mem_lineage (mem_lineage_parent hb hab hne)
    have h₂ := hangs_lt ha
    omega
  rcases mem_lineage_total hax hbx with h | h
  · exact apart ha hb h
  · exact (apart hb ha h).symm

/-- A rooted branch holds no item twice. -/
theorem nodup_preorder_rooted (parents : Array (Option Nat)) (i : Nat) :
    (rooted parents i).preorder.Nodup := by
  induction i using climb parents with
  | step i ih =>
    rw [preorder_rooted, List.nodup_cons, List.nodup_flatMap]
    refine ⟨?_, fun c hc => ih c (mem_directlyBelow.mp hc), ?_⟩
    · intro h
      obtain ⟨c, hc, hi⟩ := List.mem_flatMap.mp h
      have h₁ := le_of_mem_lineage ((mem_preorder_rooted c i).mp hi)
      have h₂ := hangs_lt (mem_directlyBelow.mp hc)
      omega
    · refine List.Pairwise.imp_of_mem ?_ (directlyBelow_pairwise parents i)
      intro a b ha hb hlt x hxa hxb
      have := siblings_disjoint (mem_directlyBelow.mp ha) (mem_directlyBelow.mp hb)
        ((mem_preorder_rooted a x).mp hxa) ((mem_preorder_rooted b x).mp hxb)
      omega

/-! ## Items numbered in pre-order -/

/-- Every item but the first hangs below some item of its predecessor's lineage. -/
def Sequential (parents : Array (Option Nat)) : Prop :=
  ∀ i, i + 1 < parents.size → ∃ p ∈ lineage parents i, hangs parents p (i + 1) = true

theorem Sequential.zero_mem_lineage (hs : Sequential parents) {i : Nat} (hi : i < parents.size) :
    0 ∈ lineage parents i := by
  induction i using Nat.strongRecOn with
  | _ i ih =>
    cases i with
    | zero => exact self_mem_lineage 0
    | succ i =>
      obtain ⟨p, hp, hpi⟩ := hs i hi
      have hlt := le_of_mem_lineage hp
      rw [mem_lineage_of_hangs hpi]
      exact Or.inr (ih p (by omega) (by omega))

/-- What is numbered between an item and something below it is below the item as well. -/
theorem Sequential.mem_lineage_between (hs : Sequential parents) {a b x : Nat}
    (hx : x < parents.size) (hab : a ≤ b) (hbx : b ≤ x) (ha : a ∈ lineage parents x) :
    a ∈ lineage parents b := by
  induction x with
  | zero =>
    obtain rfl : b = 0 := by omega
    exact ha
  | succ x ih =>
    by_cases hb : b = x + 1
    · subst hb; exact ha
    · obtain ⟨p, hp, hpx⟩ := hs x hx
      have hap : a ∈ lineage parents p := mem_lineage_parent hpx ha (by omega)
      exact ih (by omega) (by omega) (mem_lineage_trans hap hp)

/-- What is at or below an item stands in front of the later items beside it. -/
theorem Sequential.lt_of_beside (hs : Sequential parents) {p a b x : Nat}
    (ha : hangs parents p a = true) (hb : hangs parents p b = true) (hlt : a < b)
    (hx : a ∈ lineage parents x) : x < b := by
  -- were x not in front of b, then b would lie below its sibling a
  refine Classical.byContradiction fun hxb => ?_
  have hxs : x < parents.size := by
    refine Classical.byContradiction fun hxs => ?_
    rw [lineage_of_size_le (Nat.le_of_not_lt hxs), List.mem_singleton] at hx
    exact hxs (hx ▸ hangs_lt_size ha)
  have hab := hs.mem_lineage_between hxs (Nat.le_of_lt hlt) (by omega) hx
  have := siblings_disjoint ha hb hab (self_mem_lineage b)
  omega

theorem Sequential.preorder_pairwise (hs : Sequential parents) (i : Nat) :
    (rooted parents i).preorder.Pairwise (· < ·) := by
  induction i using climb parents with
  | step i ih =>
    rw [preorder_rooted, List.pairwise_cons, List.flatMap, List.pairwise_flatten]
    refine ⟨?_, ?_, ?_⟩
    · intro x hx
      obtain ⟨c, hc, hxc⟩ := List.mem_flatMap.mp hx
      have h₁ := hangs_lt (mem_directlyBelow.mp hc)
      have h₂ := le_of_mem_lineage ((mem_preorder_rooted c x).mp hxc)
      omega
    · intro l hl
      obtain ⟨c, hc, rfl⟩ := List.mem_map.mp hl
      exact ih c (mem_directlyBelow.mp hc)
    · rw [List.pairwise_map]
      refine List.Pairwise.imp_of_mem ?_ (directlyBelow_pairwise parents i)
      intro a b ha hb hlt x hx y hy
      have hax := (mem_preorder_rooted a x).mp hx
      have hle := le_of_mem_lineage ((mem_preorder_rooted b y).mp hy)
      have hxb := hs.lt_of_beside (mem_directlyBelow.mp ha) (mem_directlyBelow.mp hb) hlt hax
      omega

/-- The pre-order of items numbered in pre-order is their numbers in turn. -/
theorem Sequential.preorder_eq_range (hs : Sequential parents) (hpos : 0 < parents.size) :
    (rooted parents 0).preorder = List.range parents.size := by
  refine List.Perm.eq_of_pairwise ?_ (hs.preorder_pairwise 0) List.pairwise_lt_range ?_
  · intro a b _ _ hab hba
    omega
  · rw [List.perm_ext_iff_of_nodup (nodup_preorder_rooted parents 0) List.nodup_range]
    intro x
    rw [mem_preorder_rooted, List.mem_range]
    constructor
    · intro h
      refine Classical.byContradiction fun hx => ?_
      rw [lineage_of_size_le (Nat.le_of_not_lt hx), List.mem_singleton] at h
      exact hx (h ▸ hpos)
    · exact hs.zero_mem_lineage

end SymbolAtlas.Branch
