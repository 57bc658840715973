import SymbolAtlas.Proofs.LoweringSteps

/-!
# Scopes within scopes

A step of a lowering stands in a scope.  The scopes that it opens lie inside that one, and the uses
that it leaves to be bound wait in that scope or in one of those: names inside a statement are found
through the scope that the statement stands in.  The one way around it is the scope of a record or a
namespace, which is entered again when a member is defined outside, or the namespace is reopened.

* `Scopes.Encloses` — a scope lies around another, over scopes that were opened late.
* `Lowering.Leads` — one state comes after another, by the changes that lowerings are made of.
* `Lowering.Nests` — what is made between two states lies inside a scope.
* `Descent.Nesting` — whatever a descent lowers, lies inside the scope it stands in.

Principal results: `Scopes.lookup_of_encloses` — what hides a name is declared on the way out;
`Descent.Nesting.itemStep`, `.typeStep`, `.exprStep` — what a node makes lies inside its scope,
if that holds below it; `Lowering.nesting_below` — so it holds of all nodes.
-/

set_option autoImplicit false

namespace SymbolAtlas

namespace Scopes

variable {s : Scopes} {i j base outer : Nat} {name other : String} {id cursor : Nat}

@[simp] theorem size_bind (s : Scopes) (i : Nat) (name : String) (cursor : Nat) :
    (s.bind i name cursor).size = s.size :=
  Array.size_modify

@[simp] theorem size_openIn (s : Scopes) (parent : Nat) (record : Option String) :
    (s.openIn parent record).size = s.size + 1 :=
  Array.size_push _

@[simp] theorem parent_bind (s : Scopes) (i : Nat) (name : String) (cursor j : Nat) :
    ((s.bind i name cursor).scope j).parent = (s.scope j).parent := by
  simp only [scope, bind, Array.getD_eq_getD_getElem?, Array.getElem?_modify]
  split
  · cases s.table[j]? with
    | none => rfl
    | some => rfl
  · rfl

theorem scope_openIn (s : Scopes) (parent : Nat) (record : Option String) (j : Nat) :
    (s.openIn parent record).scope j =
      if j = s.size then { parent := some parent, record } else s.scope j := by
  simp only [scope, openIn, size, Array.getD_eq_getD_getElem?, Array.getElem?_push]
  split
  · rfl
  · rfl

/-- A scope that was just opened knows no name. -/
theorem named?_openIn (s : Scopes) (parent : Nat) (record : Option String) (j : Nat)
    (name : String) : (s.openIn parent record).named? j name = s.named? j name := by
  rw [named?, named?, scope_openIn]
  split
  · rename_i hnew
    rw [hnew, scope, size, Array.getD_eq_getD_getElem?, Array.getElem?_eq_none (Nat.le_refl _)]
    rfl
  · rfl

theorem lt_of_named? (h : s.named? i name = some id) : i < s.size := by
  refine Nat.lt_of_not_le fun hle => ?_
  rw [named?, scope, Array.getD_eq_getD_getElem?, Array.getElem?_eq_none hle] at h
  cases h

/-- A name in another scope stays. -/
theorem named?_bind_of_apart (s : Scopes) (h : j ≠ i) (name : String) (cursor : Nat) :
    (s.bind i name cursor).named? j other = s.named? j other := by
  simp only [named?, scope, bind, Array.getD_eq_getD_getElem?, Array.getElem?_modify,
    if_neg (Ne.symm h)]

theorem lookup_of_named? (h : s.named? i name = some id) : s.lookup i name = some id := by
  rw [lookup, h]

/-- Going outwards from a scope, over scopes with this number or a later one only, leads to
    `outer`. -/
inductive Encloses (s : Scopes) (base outer : Nat) : Nat → Prop where
  | self : Encloses s base outer outer
  | inside {i p : Nat} (hlate : base ≤ i) (hparent : (s.scope i).parent = some p) (hlt : p < i)
      (h : Encloses s base outer p) : Encloses s base outer i

/-- From the inside, a name means what it means in the scope around, unless it is bound on the
    way out. -/
theorem lookup_of_encloses (h : s.Encloses base outer i) (name : String) :
    (∃ b, base ≤ b ∧ s.Encloses base b i ∧ (s.named? b name).isSome = true) ∨
      s.lookup i name = s.lookup outer name := by
  induction h with
  | self => exact .inr rfl
  | @inside i p hlate hparent hlt _ ih =>
    cases hnamed : s.named? i name with
    | some cursor => exact .inl ⟨i, hlate, .self, by rw [hnamed]; rfl⟩
    | none =>
      refine ih.imp (fun ⟨b, hb, hencloses, hbound⟩ =>
        ⟨b, hb, .inside hlate hparent hlt hencloses, hbound⟩) fun hsame => ?_
      rw [lookup, hnamed, hparent]
      exact (if_pos hlt).trans hsame

/-- Where late scopes lie in one scope, in late scopes or in others of a kind, going outwards leads
    to that scope or to one of that kind. -/
theorem encloses_of_parents {size : Nat} {special : Nat → Prop}
    (hparents : ∀ i, base ≤ i → i < size → ∃ p < i, (s.scope i).parent = some p ∧
      (p = outer ∨ base ≤ p ∨ special p))
    (hi : i < size) (hstart : i = outer ∨ base ≤ i ∨ special i) :
    s.Encloses base outer i ∨
      ∃ m, special m ∧ m < base ∧ m ≠ outer ∧ s.Encloses base m i := by
  induction i using Nat.strongRecOn with
  | ind i ih =>
    rcases Nat.lt_or_ge i base with hearly | hlate
    · by_cases houter : i = outer
      · exact .inl (houter ▸ .self)
      · have hspecial := (hstart.resolve_left houter).resolve_left (Nat.not_le_of_lt hearly)
        exact .inr ⟨i, hspecial, hearly, houter, .self⟩
    · obtain ⟨p, hlt, hparent, hp⟩ := hparents i hlate hi
      exact (ih p hlt (Nat.lt_trans hlt hi) hp).imp (.inside hlate hparent hlt)
        fun ⟨m, hm, hearly, hne, hencloses⟩ =>
          ⟨m, hm, hearly, hne, .inside hlate hparent hlt hencloses⟩

end Scopes

namespace Lowering

/-! ## One state after another -/

/-- The one state comes after the other: it has all that the changes of lowerings keep. -/
def Leads (s t : Lowering) : Prop := ∀ I, Steady I → I s → I t

/-- What was made is there, scopes lie where they lay, and uses wait in their places. -/
structure Extends (s t : Lowering) : Prop where
  unit : s.unit.Grows t.unit
  scopes : s.scopes.size ≤ t.scopes.size
  parents : ∀ i < s.scopes.size, (t.scopes.scope i).parent = (s.scopes.scope i).parent
  members : ∀ m ∈ s.memberScopes, m ∈ t.memberScopes
  sites : ∀ k < s.sites.size, t.sites[k]? = s.sites[k]?

variable {s t u : Lowering} {h h' : Nat}

namespace Extends

theorem refl (s : Lowering) : s.Extends s :=
  ⟨.refl _, Nat.le_refl _, fun _ _ => rfl, fun _ hm => hm, fun _ _ => rfl⟩

theorem sites_size (hst : s.Extends t) : s.sites.size ≤ t.sites.size := by
  refine Nat.le_of_not_lt fun hlt => ?_
  have hsite := hst.sites t.sites.size hlt
  rw [Array.getElem?_eq_none (Nat.le_refl _), Array.getElem?_eq_getElem hlt] at hsite
  cases hsite

theorem trans (hst : s.Extends t) (htu : t.Extends u) : s.Extends u where
  unit := hst.unit.trans htu.unit
  scopes := Nat.le_trans hst.scopes htu.scopes
  parents i hi :=
    (htu.parents i (Nat.lt_of_lt_of_le hi hst.scopes)).trans (hst.parents i hi)
  members m hm := htu.members m (hst.members m hm)
  sites k hk := (htu.sites k (Nat.lt_of_lt_of_le hk hst.sites_size)).trans (hst.sites k hk)

/-- Only the unit changes, and what is not looked at. -/
theorem ofUnit (hunit : s.unit.Grows t.unit) (hscopes : t.scopes = s.scopes)
    (hmembers : t.memberScopes = s.memberScopes) (hsites : t.sites = s.sites) : s.Extends t where
  unit := hunit
  scopes := Nat.le_of_eq (congrArg Scopes.size hscopes.symm)
  parents i _ := by rw [hscopes]
  members m hm := hmembers ▸ hm
  sites k _ := by rw [hsites]

end Extends

/-- Declaring a name changes nothing but what the name means in that scope. -/
theorem declare_run (scope : Nat) (name : String) (cursor : Nat) (s : Lowering) :
    ((declare scope name cursor).run s).2 = s ∨
      ((declare scope name cursor).run s).2 =
        { s with scopes := s.scopes.bind scope name cursor } := by
  have hbind : ∀ free : Bool,
      (if free then { s with scopes := s.scopes.bind scope name cursor } else s) = s ∨
        (if free then { s with scopes := s.scopes.bind scope name cursor } else s) =
          { s with scopes := s.scopes.bind scope name cursor } :=
    fun free => by cases free <;> simp
  show (if name.isEmpty then s else _) = s ∨ (if name.isEmpty then s else _) = _
  split
  · exact .inl rfl
  · exact hbind _

theorem steady_extends (s : Lowering) : Steady (s.Extends ·) where
  push _ _ _ _ _ _ _ ht := ht.trans (.ofUnit (.push _ _ _) rfl rfl rfl)
  openScope parent record t ht := ht.trans {
    unit := .refl _
    scopes := by
      rw [show ((openScope parent record).run t).2.scopes = t.scopes.openIn parent record from rfl,
        Scopes.size_openIn]
      exact Nat.le_succ _
    parents := fun i hi => by
      rw [show ((openScope parent record).run t).2.scopes = t.scopes.openIn parent record from rfl,
        Scopes.scope_openIn, if_neg (Nat.ne_of_lt hi)]
    members := fun _ hm => hm
    sites := fun _ _ => rfl }
  setMembers _ _ _ ht := ht.trans
    ⟨.refl _, Nat.le_refl _, fun _ _ => rfl, fun _ hm => List.mem_cons_of_mem _ hm, fun _ _ => rfl⟩
  declare scope name cursor t ht := by
    refine ht.trans ?_
    rcases declare_run scope name cursor t with hrun | hrun
    · rw [hrun]
      exact .refl t
    · rw [hrun]
      exact ⟨.refl _, Nat.le_of_eq (Scopes.size_bind ..).symm, fun _ _ => Scopes.parent_bind ..,
        fun _ hm => hm, fun _ _ => rfl⟩
  addSite _ _ _ _ t ht := ht.trans
    ⟨.refl _, Nat.le_refl _, fun _ _ => rfl, fun _ hm => hm,
      fun k hk => Array.getElem?_push_lt .. |>.trans (Array.getElem?_eq_getElem hk).symm⟩
  addForward _ _ _ _ ht := ht.trans (.ofUnit (.refl _) rfl rfl rfl)
  setType _ hint _ ht := by
    cases hint with
    | none => exact ht
    | some hint => exact ht.trans (.ofUnit (.refl _) rfl rfl rfl)
  expandIfMacro here name token t ht := by
    refine ht.trans ?_
    rw [run_expandIfMacro]
    split
    · exact .ofUnit (.refl _) rfl rfl rfl
    · exact .refl t
  flushExpansions _ ht := ht.trans (.ofUnit (.addExpansions _ _) rfl rfl rfl)
  enter header depth t ht := by
    refine ht.trans ?_
    cases hmet : t.included.contains header with
    | true =>
      rw [Headers.enter_of_mem hmet depth]
      exact .refl t
    | false =>
      show t.Extends (if t.included.contains header then (false, t) else _).2
      rw [if_neg (by simp [hmet])]
      exact .ofUnit (.addInclusion _ _ _) rfl rfl rfl
  own _ _ _ ht := ht.trans (.ofUnit (.own _ _ _) rfl rfl rfl)
  setMacros _ _ ht := ht.trans (.ofUnit (.refl _) rfl rfl rfl)

namespace Leads

theorem refl (s : Lowering) : s.Leads s := fun _ _ hs => hs

theorem trans (hst : s.Leads t) (htu : t.Leads u) : s.Leads u := fun I hI hs =>
  htu I hI (hst I hI hs)

theorem extends_ (hst : s.Leads t) : s.Extends t := hst _ (steady_extends s) (.refl s)

end Leads

/-! ## What is made inside a scope -/

/-- The scope is there, and so are the scopes of members. -/
structure Open (s : Lowering) (h : Nat) : Prop where
  lt : h < s.scopes.size
  members : ∀ m ∈ s.memberScopes, m.2 < s.scopes.size

/-- The scope is the one with number `h`, or a late one, or it holds the members of a record or a
    namespace. -/
def Under (t : Lowering) (h base p : Nat) : Prop :=
  p = h ∨ base ≤ p ∨ ∃ m ∈ t.memberScopes, m.2 = p

/-- What is made from the one state to the other lies inside the scope with number `h`: the scopes
    that are opened, and the uses that are left to be bound. -/
structure Nests (h : Nat) (s t : Lowering) : Prop where
  leads : s.Leads t
  opened : ∀ i, s.scopes.size ≤ i → i < t.scopes.size → ∃ p < i,
    (t.scopes.scope i).parent = some p ∧ t.Under h s.scopes.size p
  left : ∀ k site, s.sites.size ≤ k → t.sites[k]? = some site →
    t.Under h s.scopes.size site.scope ∧ site.scope < t.scopes.size
  members : ∀ m ∈ t.memberScopes, m.2 < t.scopes.size

theorem Under.mono {base base' p : Nat} (hp : t.Under h base p) (hbase : base' ≤ base)
    (hmembers : ∀ m ∈ t.memberScopes, m ∈ u.memberScopes) : u.Under h base' p :=
  hp.imp_right fun hp => hp.imp (Nat.le_trans hbase) fun ⟨m, hm, heq⟩ => ⟨m, hmembers m hm, heq⟩

/-- What lies in a scope that lies in another scope lies in that one. -/
theorem Under.inner {base base' p : Nat} (hp : t.Under h' base' p) (hin : t.Under h base h')
    (hbase : base ≤ base') : t.Under h base p := by
  rcases hp with rfl | hlate | hmember
  · exact hin
  · exact .inr (.inl (Nat.le_trans hbase hlate))
  · exact .inr (.inr hmember)

namespace Nests

theorem open_ (hst : Nests h s t) {p : Nat} (hp : p < t.scopes.size) : t.Open p :=
  ⟨hp, hst.members⟩

/-- The scopes and the uses are those that were there. -/
theorem still (hs : s.Open h) (hleads : s.Leads t) (hscopes : t.scopes.size = s.scopes.size)
    (hmembers : t.memberScopes = s.memberScopes) (hsites : t.sites = s.sites) : Nests h s t where
  leads := hleads
  opened i hlate hi := absurd (hscopes ▸ hi) (Nat.not_lt.mpr hlate)
  left k site hk hsite := by
    rw [hsites] at hsite
    exact absurd (Array.getElem?_eq_some_iff.mp hsite).1 (Nat.not_lt.mpr hk)
  members m hm := by
    rw [hscopes]
    exact hs.members m (hmembers ▸ hm)

theorem refl (hs : s.Open h) : Nests h s s := .still hs (.refl s) rfl rfl rfl

/-- One stretch after another; the second one may stand further inside. -/
theorem trans (hst : Nests h s t) (hin : t.Under h s.scopes.size h') (htu : Nests h' t u) :
    Nests h s u := by
  have hs := hst.leads.extends_
  have ht := htu.leads.extends_
  have hback : ∀ {p}, u.Under h' t.scopes.size p → u.Under h s.scopes.size p := fun hp =>
    hp.inner (hin.mono (Nat.le_refl _) ht.members) hs.scopes
  refine ⟨hst.leads.trans htu.leads, fun i hlate hi => ?_, fun k site hk hsite => ?_, htu.members⟩
  · rcases Nat.lt_or_ge i t.scopes.size with hfirst | hsecond
    · obtain ⟨p, hlt, hparent, hp⟩ := hst.opened i hlate hfirst
      exact ⟨p, hlt, (ht.parents i hfirst).trans hparent, hp.mono (Nat.le_refl _) ht.members⟩
    · obtain ⟨p, hlt, hparent, hp⟩ := htu.opened i hsecond hi
      exact ⟨p, hlt, hparent, hback hp⟩
  · rcases Nat.lt_or_ge k t.sites.size with hfirst | hsecond
    · rw [ht.sites k hfirst] at hsite
      obtain ⟨hp, hlt⟩ := hst.left k site hk hsite
      exact ⟨hp.mono (Nat.le_refl _) ht.members, Nat.lt_of_lt_of_le hlt ht.scopes⟩
    · obtain ⟨hp, hlt⟩ := htu.left k site hsecond hsite
      exact ⟨hback hp, hlt⟩

/-- Every scope and every use that is made lies inside the scope, or inside one of members that was
    there before. -/
theorem encloses (hst : Nests h s t) (htu : t.Leads u) {i : Nat} (hi : i < t.scopes.size)
    (hstart : t.Under h s.scopes.size i) :
    u.scopes.Encloses s.scopes.size h i ∨
      ∃ m ∈ u.memberScopes, m.2 < s.scopes.size ∧ m.2 ≠ h ∧
        u.scopes.Encloses s.scopes.size m.2 i := by
  have hext := htu.extends_
  have hparents : ∀ i, s.scopes.size ≤ i → i < t.scopes.size → ∃ p < i,
      (u.scopes.scope i).parent = some p ∧ (p = h ∨ s.scopes.size ≤ p ∨
        ∃ m ∈ t.memberScopes, m.2 = p) := fun i hlate hi => by
    obtain ⟨p, hlt, hparent, hp⟩ := hst.opened i hlate hi
    exact ⟨p, hlt, (hext.parents i hi).trans hparent, hp⟩
  refine (Scopes.encloses_of_parents hparents hi hstart).imp_right ?_
  rintro ⟨_, ⟨m, hm, rfl⟩, hearly, hne, hencloses⟩
  exact ⟨m, hext.members m hm, hearly, hne, hencloses⟩

end Nests

end Lowering

/-! ## Steps inside a scope -/

namespace Lower

variable {α β : Type} {h : Nat}

/-- What the step makes lies inside the scope with number `h`. -/
def NestedIn (h : Nat) (m : Lower α) : Prop := ∀ s, s.Open h → Lowering.Nests h s (m.run s).2

namespace NestedIn

theorem pure (a : α) : NestedIn h (Pure.pure a : Lower α) := fun _ hs => .refl hs

theorem bind {m : Lower α} {f : α → Lower β} (hm : NestedIn h m) (hf : ∀ a, NestedIn h (f a)) :
    NestedIn h (m >>= f) := fun s hs =>
  have hfirst := hm s hs
  hfirst.trans (.inl rfl) (hf _ _ (hfirst.open_
    (Nat.lt_of_lt_of_le hs.lt hfirst.leads.extends_.scopes)))

/-- A step may go on in a scope of members that it finds. -/
theorem readThen {f : Lowering → Lower β}
    (hf : ∀ s, s.Open h → ∃ p, (p = h ∨ ∃ m ∈ s.memberScopes, m.2 = p) ∧ NestedIn p (f s)) :
    NestedIn h (get >>= f) := fun s hs => by
  obtain ⟨p, hp, hnested⟩ := hf s hs
  have hlt : p < s.scopes.size := by
    rcases hp with rfl | ⟨m, hm, rfl⟩
    · exact hs.lt
    · exact hs.members m hm
  exact (Lowering.Nests.refl hs).trans (hp.imp_right .inr) (hnested s ⟨hlt, hs.members⟩)

theorem read {f : Lowering → Lower β} (hf : ∀ s, NestedIn h (f s)) : NestedIn h (get >>= f) :=
  readThen fun s _ => ⟨h, .inl rfl, hf s⟩

theorem discard {m : Lower α} (hm : NestedIn h m) : NestedIn h (discard m) := hm

theorem forM {f : α → Lower PUnit} {l : List α} (hf : ∀ a ∈ l, NestedIn h (f a)) :
    NestedIn h (l.forM f) := by
  induction l with
  | nil => exact .pure _
  | cons a l ih =>
    exact (hf a List.mem_cons_self).bind fun _ => ih fun b hb => hf b (List.mem_cons_of_mem a hb)

theorem foldlM {f : β → α → Lower β} {l : List α} (b : β) (hf : ∀ b, ∀ a ∈ l, NestedIn h (f b a)) :
    NestedIn h (l.foldlM f b) := by
  induction l generalizing b with
  | nil => exact .pure _
  | cons a l ih =>
    exact (hf b a List.mem_cons_self).bind fun c =>
      ih c fun b x hx => hf b x (List.mem_cons_of_mem a hx)

theorem ite {c : Prop} [Decidable c] {m m' : Lower α} (hm : NestedIn h m) (hm' : NestedIn h m') :
    NestedIn h (if c then m else m') := by
  split
  · exact hm
  · exact hm'

/-- A change that opens no scope and leaves no use. -/
theorem still {m : Lower α} (hkeeps : ∀ I, Steady I → Keeps I m)
    (hscopes : ∀ s, (m.run s).2.scopes.size = s.scopes.size)
    (hmembers : ∀ s, (m.run s).2.memberScopes = s.memberScopes)
    (hsites : ∀ s, (m.run s).2.sites = s.sites) : NestedIn h m := fun s hs =>
  .still hs (fun I hI => hkeeps I hI s) (hscopes s) (hmembers s) (hsites s)

/-! ### The changes -/

theorem push (here : Here) (kind : CursorKind) (name : String) (token : SyntaxNode)
    (isDefinition : Bool) (displayName : Option String) :
    NestedIn h (Lowering.push here kind name token isDefinition displayName) :=
  .still (fun _ hI => hI.push _ _ _ _ _ _) (fun _ => rfl) (fun _ => rfl) fun _ => rfl

theorem declare (scope : Nat) (name : String) (cursor : Nat) :
    NestedIn h (Lowering.declare scope name cursor) := by
  have hrun := Lowering.declare_run scope name cursor
  refine .still (fun _ hI => hI.declare _ _ _) (fun s => ?_) (fun s => ?_) fun s => ?_
  · rcases hrun s with hsame | hbound
    · rw [hsame]
    · rw [hbound]
      exact Scopes.size_bind ..
  · rcases hrun s with hsame | hbound
    · rw [hsame]
    · rw [hbound]
  · rcases hrun s with hsame | hbound
    · rw [hsame]
    · rw [hbound]

theorem addForward (cursor : Nat) (name : String) (scope : Nat) :
    NestedIn h (Lowering.addForward cursor name scope) :=
  .still (fun _ hI => hI.addForward _ _ _) (fun _ => rfl) (fun _ => rfl) fun _ => rfl

theorem setType (cursor : Nat) (hint : Option TypeHint) :
    NestedIn h (Lowering.setType cursor hint) := by
  have hkeeps : ∀ I, Steady I → Keeps I (Lowering.setType cursor hint) :=
    fun _ hI => hI.setType _ _
  cases hint with
  | none => exact .pure _
  | some hint => exact .still hkeeps (fun _ => rfl) (fun _ => rfl) fun _ => rfl

theorem expandIfMacro (here : Here) (name : String) (token : SyntaxNode) :
    NestedIn h (Lowering.expandIfMacro here name token) := by
  refine .still (fun _ hI => hI.expandIfMacro _ _ _) (fun s => ?_) (fun s => ?_) fun s => ?_
  all_goals
    rw [Lowering.run_expandIfMacro]
    split
    · rfl
    · rfl

theorem flushExpansions : NestedIn h Lowering.flushExpansions :=
  .still (fun _ hI => hI.flushExpansions) (fun _ => rfl) (fun _ => rfl) fun _ => rfl

theorem enter (header : Path) (depth : Nat) : NestedIn h (Headers.enter header depth) := by
  have hrun : ∀ s : Lowering, ((Headers.enter header depth).run s).2 =
      if s.included.contains header then s else _ := fun s => apply_ite Prod.snd _ _ _
  refine .still (fun _ hI => hI.enter _ _) (fun s => ?_) (fun s => ?_) fun s => ?_
  all_goals
    rw [hrun]
    split
    · rfl
    · rfl

theorem own (id : Nat) (owner : Option Nat) :
    NestedIn h (modify fun s => { s with unit := s.unit.modify id fun f =>
      { f with semanticParent := owner <|> f.semanticParent } } : Lower Unit) :=
  .still (fun _ hI => hI.own id owner) (fun _ => rfl) (fun _ => rfl) fun _ => rfl

theorem setMacros (macros : Lowering → List (String × Nat)) :
    NestedIn h (modify fun s => { s with macros := macros s } : Lower Unit) :=
  .still (fun _ hI s => hI.setMacros (macros s) s) (fun _ => rfl) (fun _ => rfl) fun _ => rfl

/-- A use waits in the scope where it stands. -/
theorem addSite (cursor : Nat) (name : String) (binding : Binding) :
    NestedIn h (Lowering.addSite cursor name h binding) := fun s hs => {
  leads := fun _ hI => hI.addSite _ _ _ _ s
  opened := fun _ hlate hi => absurd hi (Nat.not_lt.mpr hlate)
  left := fun k site hk hsite => by
    change (s.sites.push { cursor, name, scope := h, binding })[k]? = some site at hsite
    rw [Array.getElem?_push] at hsite
    split at hsite
    · cases hsite
      exact ⟨.inl rfl, hs.lt⟩
    · rw [Array.getElem?_eq_none hk] at hsite
      cases hsite
  members := hs.members }

theorem setMembers (cursor : Nat) : NestedIn h (Lowering.setMembers cursor h) := fun s hs => {
  leads := fun _ hI => hI.setMembers _ _ s
  opened := fun _ hlate hi => absurd hi (Nat.not_lt.mpr hlate)
  left := fun _ _ hk hsite =>
    absurd (Array.getElem?_eq_some_iff.mp hsite).1 (Nat.not_lt.mpr hk)
  members := fun m hm => by
    rcases List.mem_cons.mp hm with rfl | hm
    · exact hs.lt
    · exact hs.members m hm }

/-- A scope is opened, and what follows lies inside it. -/
theorem openThen {record : Option String} {f : Nat → Lower β}
    (hf : ∀ scope, NestedIn scope (f scope)) :
    NestedIn h (Lowering.openScope h record >>= f) := fun s hs => by
  let opened := ((Lowering.openScope h record).run s).2
  have hsize : opened.scopes.size = s.scopes.size + 1 := Scopes.size_openIn ..
  have hopened : Lowering.Nests h s opened := {
    leads := fun _ hI => hI.openScope _ _ s
    opened := fun i hlate hi => by
      obtain rfl : i = s.scopes.size :=
        Nat.le_antisymm (Nat.le_of_lt_succ (Nat.lt_of_lt_of_eq hi hsize)) hlate
      refine ⟨h, hs.lt, ?_, .inl rfl⟩
      show ((s.scopes.openIn h record).scope s.scopes.size).parent = some h
      rw [Scopes.scope_openIn, if_pos rfl]
    left := fun _ _ hk hsite =>
      absurd (Array.getElem?_eq_some_iff.mp hsite).1 (Nat.not_lt.mpr hk)
    members := fun m hm => by
      rw [hsize]
      exact Nat.lt_succ_of_lt (hs.members m hm) }
  have hlast : s.scopes.size < opened.scopes.size := by
    rw [hsize]
    exact Nat.lt_succ_self _
  exact hopened.trans (.inr (.inl (Nat.le_refl _)))
    (hf s.scopes.size opened (hopened.open_ hlast))

end NestedIn

end Lower

/-! ## Node by node -/

open Lower (NestedIn)

/-- Whatever the descent lowers, lies inside the scope it stands in. -/
structure Descent.Nesting (d : Descent) : Prop where
  file : ∀ here : Here, NestedIn here.scope (d.file here)
  item : ∀ n (here : Here), NestedIn here.scope (d.item n here)
  type : ∀ n (here : Here), NestedIn here.scope (d.type n here)
  expr : ∀ n (here : Here), NestedIn here.scope (d.expr n here)

namespace Descent

variable {d : Descent} {h : Nat}

theorem nesting_idle {file : Here → Lower Unit}
    (hfile : ∀ here : Here, NestedIn here.scope (file here)) :
    ({ idle with file } : Descent).Nesting where
  file := hfile
  item _ _ := .pure _
  type _ _ := .pure _
  expr _ _ := .pure _

theorem nestedIn_declareNamed (here : Here) (kind : CursorKind) (token : SyntaxNode)
    (isDefinition : Bool) : NestedIn h (declareNamed here kind token isDefinition) :=
  (NestedIn.push _ _ _ _ _ _).bind fun _ => (NestedIn.declare _ _ _).bind fun _ => .pure _

theorem nestedIn_typeReference (token : SyntaxNode) (here : Here) :
    NestedIn here.scope (typeReference token here) :=
  (NestedIn.expandIfMacro _ _ _).bind fun _ => .ite (.pure _)
    ((NestedIn.push _ _ _ _ _ _).bind fun _ => .addSite _ _ _)

theorem nestedIn_nameUse (n : SyntaxNode) (here : Here) :
    NestedIn here.scope (nameUse n here) :=
  (NestedIn.expandIfMacro _ _ _).bind fun _ => .ite (.pure _)
    ((NestedIn.push _ _ _ _ _ _).bind fun _ => (NestedIn.addSite _ _ _).bind fun _ => .pure _)

theorem nestedIn_macroDefinition (n : SyntaxNode) (here : Here) :
    NestedIn h (macroDefinition n here) := by
  unfold macroDefinition
  split
  · exact (NestedIn.push _ _ _ _ _ _).bind fun _ => .setMacros _
  · exact .pure _

theorem nestedIn_directive (n : SyntaxNode) (here : Here) : NestedIn h (directive n here) := by
  unfold directive
  simp only
  split
  · exact .setMacros _
  · exact .pure _

namespace Nesting

/-! ### Names -/

theorem templateArguments (hd : d.Nesting) (arguments : SyntaxNode) (here : Here) :
    NestedIn here.scope (d.templateArguments arguments here) :=
  .forM fun a _ => .ite (hd.type a here) (hd.expr a here).discard

theorem argumentsOf (hd : d.Nesting) (n : SyntaxNode) (here : Here) :
    NestedIn here.scope (d.argumentsOf n here) := by
  unfold Descent.argumentsOf
  split
  · exact hd.templateArguments _ here
  · exact .pure _

theorem templateReference (hd : d.Nesting) (n : SyntaxNode) (here : Here) :
    NestedIn here.scope (d.templateReference n here) := by
  unfold Descent.templateReference
  split
  · exact (NestedIn.push _ _ _ _ _ _).bind fun _ => (NestedIn.addSite _ _ _).bind fun _ =>
      hd.argumentsOf n here
  · exact hd.argumentsOf n here

theorem qualifiers (hd : d.Nesting) (here : Here) (path : List String)
    (scopes : List SyntaxNode) : NestedIn here.scope (d.qualifiers here path scopes) := by
  induction scopes generalizing path with
  | nil => exact .pure _
  | cons scope rest ih =>
    exact (NestedIn.push _ _ _ _ _ _).bind fun _ => (NestedIn.addSite _ _ _).bind fun _ =>
      (hd.argumentsOf scope here).bind fun _ => ih _

theorem qualifiedReference (hd : d.Nesting) (n : SyntaxNode) (here : Here) (kind : CursorKind) :
    NestedIn here.scope (d.qualifiedReference n here kind) :=
  (hd.qualifiers here [] _).bind fun _ => .ite (.pure _)
    ((NestedIn.push _ _ _ _ _ _).bind fun _ => (NestedIn.addSite _ _ _).bind fun _ =>
      (hd.argumentsOf _ here).bind fun _ => .pure _)

/-! ### Declarations -/

theorem items (hd : d.Nesting) (n : SyntaxNode) (here : Here) :
    NestedIn here.scope (d.items n here) :=
  .forM fun c _ => (hd.item c here).bind fun _ => .ite .flushExpansions (.pure _)

theorem block (hd : d.Nesting) (n : SyntaxNode) (here : Here) :
    NestedIn here.scope (d.block n here) :=
  (NestedIn.push _ _ _ _ _ _).bind fun id => .openThen fun scope => .forM fun c _ =>
    (hd.expr c (here.within id scope)).discard

theorem typeOf (hd : d.Nesting) (type : Option SyntaxNode) (here : Here) :
    NestedIn here.scope (d.typeOf type here) := by
  unfold Descent.typeOf
  split
  · exact hd.type _ here
  · exact .pure _

theorem valueOf (hd : d.Nesting) (value : Option SyntaxNode) (here : Here) :
    NestedIn here.scope (d.valueOf value here) := by
  unfold Descent.valueOf
  split
  · exact (hd.expr _ here).discard
  · exact .pure _

theorem templateParameter (hd : d.Nesting) (p : SyntaxNode) (here : Here) :
    NestedIn here.scope (d.templateParameter p here) := by
  unfold Descent.templateParameter
  split
  · split
    · exact (nestedIn_declareNamed _ _ _ _).discard
    · exact .pure _
  · split
    · exact (nestedIn_declareNamed _ _ _ _).discard
    · exact .pure _
  · split
    · exact (nestedIn_declareNamed _ _ _ _).bind fun id => hd.typeOf _ (here.under id)
    · exact .pure _
  · split
    · split
      · exact (nestedIn_declareNamed _ _ _ _).bind fun id => hd.typeOf _ (here.under id)
      · exact .pure _
    · exact .pure _

theorem templateParameters (hd : d.Nesting) (list : Option SyntaxNode) (here : Here) :
    NestedIn here.scope (d.templateParameters list here) := by
  unfold Descent.templateParameters
  split
  · exact .forM fun p _ => hd.templateParameter p here
  · exact .pure _

theorem record (hd : d.Nesting) (n : SyntaxNode) (here : Here) (template : Option SyntaxNode)
    (standalone : Bool) : NestedIn here.scope (d.record n here template standalone) := by
  unfold Descent.record
  simp only
  split
  · refine (NestedIn.push _ _ _ _ _ _).bind fun id => (NestedIn.declare _ _ _).bind fun _ =>
      .openThen fun scope => (NestedIn.setMembers id).bind fun _ => ?_
    refine (hd.templateParameters template (here.within id scope)).bind fun _ =>
      NestedIn.bind ?_ fun _ => (hd.items _ (here.within id scope)).bind fun _ => .pure _
    exact .forM fun clause _ => .forM fun base _ => hd.type base (here.within id scope)
  · split
    · exact (nestedIn_declareNamed _ _ _ _).bind fun _ => (NestedIn.addForward _ _ _).bind
        fun _ => .pure _
    · exact (nestedIn_typeReference _ here).bind fun _ => .pure _
  · exact .pure _

theorem enumerator (hd : d.Nesting) (n : SyntaxNode) (here : Here) :
    NestedIn here.scope (d.enumerator n here) := by
  unfold Descent.enumerator
  split
  · exact (nestedIn_declareNamed _ _ _ _).bind fun id => hd.valueOf _ (here.under id)
  · exact .pure _

theorem enumeration (hd : d.Nesting) (n : SyntaxNode) (here : Here) :
    NestedIn here.scope (d.enumeration n here) := by
  unfold Descent.enumeration
  simp only
  split
  · exact (NestedIn.push _ _ _ _ _ _).bind fun id => (NestedIn.declare _ _ _).bind fun _ =>
      (NestedIn.forM fun e _ => hd.enumerator e (here.under id)).bind fun _ => .pure _
  · split
    · exact (nestedIn_typeReference _ here).bind fun _ => .pure _
    · exact .pure _

theorem definedType (hd : d.Nesting) (type : SyntaxNode) (here : Here)
    (template : Option SyntaxNode) (standalone : Bool) :
    NestedIn here.scope (d.definedType type here template standalone) :=
  .ite (hd.record type here template standalone) (.ite (hd.enumeration type here) (.pure _))

theorem parameter (hd : d.Nesting) (p : SyntaxNode) (here : Here) :
    NestedIn here.scope (d.parameter p here) := by
  unfold Descent.parameter
  simp only
  split
  · exact hd.typeOf _ here
  · exact (nestedIn_declareNamed _ _ _ _).bind fun id => (NestedIn.setType _ _).bind fun _ =>
      (hd.typeOf _ (here.under id)).bind fun _ => hd.valueOf _ (here.under id)

theorem parameters (hd : d.Nesting) (list : Option SyntaxNode) (here : Here) :
    NestedIn here.scope (d.parameters list here) := by
  unfold Descent.parameters
  split
  · exact .forM fun p _ => hd.parameter p here
  · exact .pure _

theorem initialiserPart (hd : d.Nesting) (n : SyntaxNode) (here : Here) :
    NestedIn here.scope (d.initialiserPart n here) := by
  unfold Descent.initialiserPart
  split
  · exact (NestedIn.push _ _ _ _ _ _).bind fun _ => .addSite _ _ _
  · exact hd.type n here
  · exact hd.type n here
  · exact hd.type n here
  · exact (hd.expr n here).discard

theorem initialisers (hd : d.Nesting) (list : Option SyntaxNode) (here : Here) :
    NestedIn here.scope (d.initialisers list here) := by
  unfold Descent.initialisers
  split
  · exact .forM fun i _ => .forM fun part _ => hd.initialiserPart part here
  · exact .pure _

/-- A function lies in the scope around it, or in the scope of members that its name leads to. -/
theorem callable (hd : d.Nesting) (c : Callable) (here : Here) :
    NestedIn here.scope (d.callable c here) := by
  unfold Descent.callable
  refine .readThen fun s _ => ?_
  simp only
  generalize houter : (Option.bind _ fun o => s.memberScopes.lookup o).getD here.scope = outer
  refine ⟨outer, ?_, ?_⟩
  · rw [← houter]
    cases hscope : Option.bind _ fun o => s.memberScopes.lookup o with
    | none => exact .inl rfl
    | some scope =>
      obtain ⟨o, -, hlookup⟩ := Option.bind_eq_some_iff.mp hscope
      obtain ⟨_, _, hmembers, -⟩ := List.lookup_eq_some_iff.mp hlookup
      exact .inr ⟨(o, scope), hmembers ▸ List.mem_append_right _ List.mem_cons_self, rfl⟩
  · refine (NestedIn.push _ _ _ _ _ _).bind fun id => (NestedIn.own _ _).bind fun _ =>
      (NestedIn.declare _ _ _).bind fun _ => .openThen fun scope => ?_
    let inside := here.within id scope
    refine (hd.templateParameters _ inside).bind fun _ => (hd.typeOf _ inside).bind fun _ =>
      (hd.qualifiers inside [] _).discard.bind fun _ => (hd.parameters _ inside).bind fun _ =>
        (hd.initialisers _ inside).bind fun _ => ?_
    split
    · exact hd.block _ inside
    · exact .pure _

theorem functionDefinition (hd : d.Nesting) (n : SyntaxNode) (here : Here)
    (template : Option SyntaxNode) :
    NestedIn here.scope (d.functionDefinition n here template) := by
  unfold Descent.functionDefinition
  split
  · exact hd.callable _ here
  · exact .pure _

theorem declarator (hd : d.Nesting) (shared : DeclaredAs) (here : Here) (last : Option Nat)
    (n : SyntaxNode) : NestedIn here.scope (d.declarator shared here last n) := by
  unfold Descent.declarator
  split
  · exact .pure _
  · split
    · exact (hd.callable _ here).bind fun _ => .pure _
    · exact (nestedIn_declareNamed _ _ _ _).bind fun id => (NestedIn.setType _ _).bind fun _ =>
        (hd.typeOf _ (here.under id)).bind fun _ =>
          (NestedIn.forM fun size _ => (hd.expr size (here.under id)).discard).bind fun _ =>
            (hd.valueOf _ (here.under id)).bind fun _ => .pure _

/-- The declarators of a declaration in turn, then the default of the last one. -/
theorem declarators (hd : d.Nesting) (shared : Lowering → DeclaredAs) (list : List SyntaxNode)
    (value : Option SyntaxNode) (here : Here) :
    NestedIn here.scope (do
      let s ← get
      let last ← list.foldlM (d.declarator (shared s) here) none
      match last with
      | some id => d.valueOf value (here.under id)
      | none => pure ()) := by
  refine .read fun s => (NestedIn.foldlM none fun last c _ =>
    hd.declarator (shared s) here last c).bind fun last => ?_
  cases last with
  | some id => exact hd.valueOf value (here.under id)
  | none => exact .pure _

theorem declaration (hd : d.Nesting) (n : SyntaxNode) (here : Here)
    (template : Option SyntaxNode) : NestedIn here.scope (d.declaration n here template) := by
  unfold Descent.declaration
  simp only
  split
  · split
    · exact (hd.definedType _ here template _).bind fun _ => hd.declarators _ _ _ here
    · exact (NestedIn.pure _).bind fun _ => hd.declarators _ _ _ here
  · exact (NestedIn.pure _).bind fun _ => hd.declarators _ _ _ here

/-- The names of a type definition in turn. -/
theorem aliases (hd : d.Nesting) (type : Option SyntaxNode) (defined : Option Nat)
    (hint : Option TypeHint) (list : List SyntaxNode) (here : Here) :
    NestedIn here.scope (list.forM fun c => do
      match Declarator.ofNode? c with
      | some shape =>
        let id ← declareNamed here .typedefDecl shape.name
        Lowering.setType id hint
        if defined.isNone then d.typeOf type (here.under id)
      | none => pure ()) := by
  refine .forM fun c _ => ?_
  split
  · exact (nestedIn_declareNamed _ _ _ _).bind fun id => (NestedIn.setType _ _).bind fun _ =>
      .ite (hd.typeOf type (here.under id)) (.pure _)
  · exact .pure _

theorem typedefinition (hd : d.Nesting) (n : SyntaxNode) (here : Here) :
    NestedIn here.scope (d.typedefinition n here) := by
  unfold Descent.typedefinition
  simp only
  split
  · split
    · exact (hd.definedType _ here none false).bind fun _ => hd.aliases _ _ _ _ here
    · exact (NestedIn.pure _).bind fun _ => hd.aliases _ _ _ _ here
  · exact (NestedIn.pure _).bind fun _ => hd.aliases _ _ _ _ here

theorem typeAlias (hd : d.Nesting) (n : SyntaxNode) (here : Here) :
    NestedIn here.scope (d.typeAlias n here) := by
  unfold Descent.typeAlias
  split
  · refine (nestedIn_declareNamed _ _ _ _).bind fun id => ?_
    split
    · exact (NestedIn.setType _ _).bind fun _ => hd.type _ (here.under id)
    · exact .pure _
  · exact .pure _

theorem template (hd : d.Nesting) (n : SyntaxNode) (here : Here) :
    NestedIn here.scope (d.template n here) := by
  unfold Descent.template
  simp only
  split
  · exact .pure _
  · split
    · exact (hd.record _ here _ true).discard
    · split
      · exact hd.functionDefinition _ here _
      · exact hd.declaration _ here _
      · exact hd.declaration _ here _
      · exact hd.item _ here

/-! ### Types, statements and expressions -/

theorem typeStep (hd : d.Nesting) (n : SyntaxNode) (here : Here) :
    NestedIn here.scope (d.typeStep n here) := by
  unfold Descent.typeStep
  cases TypeForm.ofNode n with
  | name => exact nestedIn_typeReference n here
  | qualified => exact (hd.qualifiedReference n here _).discard
  | templated => exact hd.templateReference n here
  | record => exact (hd.record n here none false).discard
  | enumeration => exact (hd.enumeration n here).discard
  | descriptor => exact hd.typeOf _ here
  | nameless => exact .pure _
  | compound => exact .forM fun c _ => hd.type c here

theorem exprOf (hd : d.Nesting) (n : Option SyntaxNode) (here : Here) :
    NestedIn here.scope (d.exprOf n here) := by
  unfold Descent.exprOf
  split
  · exact hd.expr _ here
  · exact .pure _

theorem memberUse (hd : d.Nesting) (n : SyntaxNode) (here : Here) :
    NestedIn here.scope (d.memberUse n here) := by
  unfold Descent.memberUse
  split
  · exact .pure _
  · exact (hd.exprOf _ here).bind fun _ => (NestedIn.push _ _ _ _ _ _).bind fun _ =>
      (NestedIn.addSite _ _ _).bind fun _ => .pure _

theorem call (hd : d.Nesting) (n : SyntaxNode) (here : Here) :
    NestedIn here.scope (d.call n here) := by
  unfold Descent.call
  split
  · exact .pure _
  · exact (NestedIn.push _ _ _ _ _ _).bind fun id =>
      (hd.expr _ (here.under id)).discard.bind fun _ => (hd.exprOf _ (here.under id)).discard

theorem rangeLoop (hd : d.Nesting) (n : SyntaxNode) (here : Here) :
    NestedIn here.scope (d.rangeLoop n here) := by
  have hrest : NestedIn here.scope (do
      discard (d.exprOf (n.child? .right) here)
      discard (d.exprOf (n.child? .body) here)) :=
    (hd.exprOf _ here).discard.bind fun _ => (hd.exprOf _ here).discard
  unfold Descent.rangeLoop
  simp only
  split
  · exact (nestedIn_declareNamed _ _ _ _).bind fun id => (NestedIn.setType _ _).bind fun _ =>
      (hd.typeOf _ (here.under id)).bind fun _ => hrest
  · exact hrest

theorem exprStep (hd : d.Nesting) (n : SyntaxNode) (here : Here) :
    NestedIn here.scope (d.exprStep n here) := by
  unfold Descent.exprStep
  cases ExprForm.ofNode n with
  | name => exact nestedIn_nameUse n here
  | qualified => exact hd.qualifiedReference n here _
  | member => exact hd.memberUse n here
  | call => exact (hd.call n here).bind fun _ => .pure _
  | templated =>
    exact (hd.exprOf _ here).bind fun _ => (hd.argumentsOf n here).bind fun _ => .pure _
  | parenthesized => exact .foldlM none fun _ c _ => hd.expr c here
  | element =>
    exact (hd.exprOf _ here).bind fun _ =>
      (NestedIn.forM fun i _ => (hd.expr i here).discard).bind fun _ =>
        (hd.exprOf _ here).discard.bind fun _ => .pure _
  | rangeLoop => exact (hd.rangeLoop n here).bind fun _ => .pure _
  | closure =>
    simp only
    split
    · exact (hd.block _ here).bind fun _ => .pure _
    · exact .pure _
  | block => exact (hd.block n here).bind fun _ => .pure _
  | declaration => exact (hd.declaration n here none).bind fun _ => .pure _
  | type => exact (hd.typeStep n here).bind fun _ => .pure _
  | leaf => exact .pure _
  | compound =>
    exact (NestedIn.forM fun c _ => (hd.expr c here).discard).bind fun _ => .pure _

/-! ### Items -/

theorem inclusion (hd : d.Nesting) (headers : Headers) (n : SyntaxNode) (here : Here) :
    NestedIn here.scope (d.inclusion headers n here) := by
  unfold Descent.inclusion
  split
  · exact .pure _
  · refine (NestedIn.push _ _ _ _ _ _).discard.bind fun _ => ?_
    split
    · exact .pure _
    · refine (NestedIn.enter _ _).bind fun _ => .ite ?_ (.pure _)
      split
      · rename_i source _
        exact hd.file { here with source, depth := here.depth + 1 }
      · exact .pure _

/-- A namespace whose scope is known. -/
theorem spaceIn (hd : d.Nesting) (here : Here) (name : String) (body : Option SyntaxNode)
    (id scope : Nat) :
    NestedIn scope (do
      Lowering.setMembers id scope
      Lowering.declare here.scope name id
      match body with
      | some body => d.items body (here.within id scope)
      | none => pure ()) := by
  refine (NestedIn.setMembers id).bind fun _ => (NestedIn.declare _ _ _).bind fun _ => ?_
  split
  · exact hd.items _ (here.within id scope)
  · exact .pure _

/-- A namespace lies in the scope around it, or in its own scope if it is reopened. -/
theorem space (hd : d.Nesting) (n : SyntaxNode) (here : Here) :
    NestedIn here.scope (d.space n here) := by
  unfold Descent.space
  simp only
  refine (NestedIn.push _ _ _ _ _ _).bind fun id => .readThen fun s _ => ?_
  split
  · rename_i scope hreopened
    obtain ⟨o, -, hlookup⟩ := Option.bind_eq_some_iff.mp hreopened
    obtain ⟨_, _, hmembers, -⟩ := List.lookup_eq_some_iff.mp hlookup
    exact ⟨scope,
      .inr ⟨(o, scope), hmembers ▸ List.mem_append_right _ List.mem_cons_self, rfl⟩,
      hd.spaceIn here _ _ id scope⟩
  · exact ⟨here.scope, .inl rfl, .openThen fun scope => hd.spaceIn here _ _ id scope⟩

theorem itemStep (hd : d.Nesting) (headers : Headers) (n : SyntaxNode) (here : Here) :
    NestedIn here.scope (d.itemStep headers n here) := by
  unfold Descent.itemStep
  cases ItemForm.ofNode n with
  | inclusion => exact hd.inclusion headers n here
  | macroDefinition => exact nestedIn_macroDefinition n here
  | directive => exact nestedIn_directive n here
  | group => exact hd.items n here
  | linkage =>
    simp only
    split
    · exact .ite (hd.items _ here) (hd.item _ here)
    · exact .pure _
  | space => exact hd.space n here
  | record => exact (hd.record n here none true).discard
  | enumeration => exact (hd.enumeration n here).discard
  | function => exact hd.functionDefinition n here none
  | declaration => exact hd.declaration n here none
  | typedefinition => exact hd.typedefinition n here
  | typeAlias => exact hd.typeAlias n here
  | template => exact hd.template n here
  | other => exact .pure _

end Nesting

/-- A descent lowers inside scopes at all levels, if it lowers whole files so. -/
theorem nesting_below (headers : Headers) {file : Here → Lower Unit}
    (hfile : ∀ here : Here, NestedIn here.scope (file here)) (level : Nat) :
    (below headers file level).Nesting := by
  induction level with
  | zero => exact nesting_idle hfile
  | succ level ih =>
    exact ⟨hfile, ih.itemStep headers, ih.typeStep, ih.exprStep⟩

end Descent

/-- **What a file makes lies inside the scope that it is lowered in**, however deeply headers
    nest. -/
theorem Lowering.nestedIn_file (headers : Headers) (nesting : Nat) (here : Here) :
    NestedIn here.scope (file headers nesting here) := by
  induction nesting generalizing here with
  | zero => exact .pure _
  | succ nesting ih => exact (Descent.nesting_below headers ih _).items _ here

/-- **What a node makes lies inside the scope that it stands in.** -/
theorem Lowering.nesting_below (headers : Headers) (nesting level : Nat) :
    (Descent.below headers (file headers nesting) level).Nesting :=
  Descent.nesting_below headers (nestedIn_file headers nesting) level

end SymbolAtlas
