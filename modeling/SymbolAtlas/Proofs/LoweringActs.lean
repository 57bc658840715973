import SymbolAtlas.Proofs.ScopeNesting

/-!
# The acts of a lowering

Cursors and scopes are known by numbers, and numbers are held in many places: in links between
cursors, in scopes, in the uses that wait to be bound.  A lowering changes its state by acts, each
with the numbers that it is handed.  An act in range, whose numbers are all there, leads from a
state in order to a state in order: one whose scopes lie in earlier scopes, and which holds no
number of a cursor or a scope that is not there.

* `Lowering.Within`, `Lowering.InOrder` — where numbers are held, and a state in order.
* `Lowering.Act`, `Act.apply`, `Act.InRange` — an act, what it does, and when its numbers are there.
* `Lowering.Passes` — acts in range, one after another, from a state to another one.

Principal results: `InOrder.apply`, `Passes.inOrder` — acts in range keep a state in order;
`Passes.later` — what is made stays.
-/

set_option autoImplicit false

namespace SymbolAtlas

/-! ## Numbers that are there -/

/-- The links of the cursor lead to cursors with smaller numbers than the bound. -/
structure Cursor.LinksBelow (c : Cursor) (bound : Nat) : Prop where
  parent : ∀ i ∈ c.parent, i < bound
  reportedParent : ∀ i ∈ c.reportedParent, i < bound
  semanticParent : ∀ i ∈ c.semanticParent, i < bound
  referenced : ∀ i ∈ c.referenced, i < bound
  definition : ∀ i ∈ c.definition, i < bound

/-- The hint names a scope or a cursor that is there, among so many of them. -/
def TypeHint.Within (cursors scopes : Nat) : TypeHint → Prop
  | .named _ scope => scope < scopes
  | .cursor id => id < cursors

/-- The numbers that the use holds are there. -/
structure UseSite.Within (site : UseSite) (cursors scopes : Nat) : Prop where
  cursor : site.cursor < cursors
  scope : site.scope < scopes
  base : ∀ base, site.binding = .member (some base) → base < cursors

/-- The scopes form a tree under the global one, each inside an earlier one. -/
structure Scopes.Rooted (s : Scopes) : Prop where
  global : Scopes.global < s.size
  top : (s.scope Scopes.global).parent = none
  parents : ∀ i < s.size, i ≠ Scopes.global → ∃ p < i, (s.scope i).parent = some p

namespace Lowering

variable {s t r : Lowering} {cursors scopes : Nat}

/-- The state holds no number of a cursor or a scope but those below two bounds. -/
structure Within (s : Lowering) (cursors scopes : Nat) : Prop where
  links : ∀ i, (s.unit.cursor i).LinksBelow cursors
  names : ∀ i, ∀ b ∈ (s.scopes.scope i).names, b.2 < cursors
  memberScopes : ∀ m ∈ s.memberScopes, m.1 < cursors ∧ m.2 < scopes
  macros : ∀ m ∈ s.macros, m.2 < cursors
  expansions : ∀ e ∈ s.expansions, e.definition < cursors
  sites : ∀ site ∈ s.sites, site.Within cursors scopes
  forwards : ∀ f ∈ s.forwards, f.cursor < cursors ∧ f.scope < scopes
  types : ∀ t ∈ s.types, t.1 < cursors ∧ t.2.Within cursors scopes

/-- The scopes lie in earlier scopes, and the numbers that the state holds are there. -/
structure InOrder (s : Lowering) : Prop where
  root : 0 < s.unit.size
  scopes : s.scopes.Rooted
  within : s.Within s.unit.size s.scopes.size

end Lowering

/-! More may be there. -/

theorem Cursor.LinksBelow.mono {c : Cursor} {bound bound' : Nat} (h : c.LinksBelow bound)
    (hle : bound ≤ bound') : c.LinksBelow bound' where
  parent i hi := Nat.lt_of_lt_of_le (h.parent i hi) hle
  reportedParent i hi := Nat.lt_of_lt_of_le (h.reportedParent i hi) hle
  semanticParent i hi := Nat.lt_of_lt_of_le (h.semanticParent i hi) hle
  referenced i hi := Nat.lt_of_lt_of_le (h.referenced i hi) hle
  definition i hi := Nat.lt_of_lt_of_le (h.definition i hi) hle

theorem Cursor.linksBelow_default (bound : Nat) : (default : Cursor).LinksBelow bound :=
  ⟨nofun, nofun, nofun, nofun, nofun⟩

section Mono

variable {cursors cursors' scopes scopes' : Nat}

theorem TypeHint.Within.mono {hint : TypeHint} (h : hint.Within cursors scopes)
    (hc : cursors ≤ cursors') (hs : scopes ≤ scopes') : hint.Within cursors' scopes' := by
  cases hint with
  | named _ scope => exact Nat.lt_of_lt_of_le h hs
  | cursor id => exact Nat.lt_of_lt_of_le h hc

theorem UseSite.Within.mono {site : UseSite} (h : site.Within cursors scopes)
    (hc : cursors ≤ cursors') (hs : scopes ≤ scopes') : site.Within cursors' scopes' where
  cursor := Nat.lt_of_lt_of_le h.cursor hc
  scope := Nat.lt_of_lt_of_le h.scope hs
  base base hbase := Nat.lt_of_lt_of_le (h.base base hbase) hc

theorem Lowering.Within.mono {s : Lowering} (h : s.Within cursors scopes)
    (hc : cursors ≤ cursors') (hs : scopes ≤ scopes') : s.Within cursors' scopes' where
  links i := (h.links i).mono hc
  names i b hb := Nat.lt_of_lt_of_le (h.names i b hb) hc
  memberScopes m hm := (h.memberScopes m hm).imp (Nat.lt_of_lt_of_le · hc) (Nat.lt_of_lt_of_le · hs)
  macros m hm := Nat.lt_of_lt_of_le (h.macros m hm) hc
  expansions e he := Nat.lt_of_lt_of_le (h.expansions e he) hc
  sites site hsite := (h.sites site hsite).mono hc hs
  forwards f hf := (h.forwards f hf).imp (Nat.lt_of_lt_of_le · hc) (Nat.lt_of_lt_of_le · hs)
  types t ht := (h.types t ht).imp (Nat.lt_of_lt_of_le · hc) (·.mono hc hs)

end Mono

/-! ## Acts -/

namespace Lowering

/-- What a lowering does to its state at a time. -/
inductive Act where
  | push (parent : Nat) (c : Cursor)
  | own (cursor : Nat) (owner : Option Nat)
  | openScope (parent : Nat) (record : Option String)
  | setMembers (cursor scope : Nat)
  | declare (scope : Nat) (name : String) (cursor : Nat)
  | addSite (site : UseSite)
  | addForward (f : Forward)
  | setType (cursor : Nat) (hint : TypeHint)
  | expand (e : Expansion)
  | flush
  | define (name : String) (cursor : Nat)
  | undefine (name : String)
  | meet (header : Path) (depth : Nat)

namespace Act

/-- The state behind an act. -/
def apply (s : Lowering) : Act → Lowering
  | push parent c => { s with unit := s.unit.push parent c }
  | own cursor owner =>
    { s with unit := s.unit.modify cursor fun f =>
        { f with semanticParent := owner <|> f.semanticParent } }
  | openScope parent record => { s with scopes := s.scopes.openIn parent record }
  | setMembers cursor scope => { s with memberScopes := (cursor, scope) :: s.memberScopes }
  | declare scope name cursor => ((Lowering.declare scope name cursor).run s).2
  | addSite site => { s with sites := s.sites.push site }
  | addForward f => { s with forwards := s.forwards.push f }
  | setType cursor hint => { s with types := (cursor, hint) :: s.types }
  | expand e => { s with expansions := s.expansions.push e }
  | flush => { s with unit := s.expansions.foldl addExpansion s.unit, expansions := #[] }
  | define name cursor => { s with macros := (name, cursor) :: s.macros }
  | undefine name => { s with macros := s.macros.filter fun m => m.1 != name }
  | meet header depth =>
    { s with included := header :: s.included, unit := s.unit.addInclusion header depth }

/-- The numbers that an act is handed are there, and a name is declared by a cursor that declares
    something of this name. -/
def InRange (s : Lowering) : Act → Prop
  | push parent c => parent < s.unit.size ∧ c.LinksBelow s.unit.size
  | own cursor owner => cursor < s.unit.size ∧ ∀ o ∈ owner, o < s.unit.size
  | openScope parent _ => parent < s.scopes.size
  | setMembers cursor scope => cursor < s.unit.size ∧ scope < s.scopes.size
  | declare scope name cursor =>
    scope < s.scopes.size ∧ cursor < s.unit.size ∧ (s.unit.kind cursor).isDeclaration = true ∧
      s.unit.spelling cursor = name
  | addSite site => site.Within s.unit.size s.scopes.size
  | addForward f => f.cursor < s.unit.size ∧ f.scope < s.scopes.size
  | setType cursor hint => cursor < s.unit.size ∧ hint.Within s.unit.size s.scopes.size
  | expand e => e.definition < s.unit.size
  | define _ cursor => cursor < s.unit.size
  | flush | undefine _ | meet _ _ => True

end Act

end Lowering

/-! ## What an act keeps -/

theorem Scopes.names_bind {s : Scopes} {i j : Nat} {name : String} {cursor : Nat}
    {b : String × Nat} (h : b ∈ ((s.bind i name cursor).scope j).names) :
    b ∈ (s.scope j).names ∨ b.2 = cursor := by
  simp only [scope, bind, Array.getD_eq_getD_getElem?, Array.getElem?_modify] at h ⊢
  by_cases hij : i = j
  · rw [if_pos hij] at h
    cases hj : s.table[j]? with
    | none =>
      rw [hj] at h
      cases h
    | some scope =>
      rw [hj] at h
      exact (List.mem_cons.mp h).elim (fun hb => .inr (congrArg Prod.snd hb)) .inl
  · rw [if_neg hij] at h
    exact .inl h

theorem Scopes.Rooted.openIn {s : Scopes} (h : s.Rooted) {parent : Nat} (hparent : parent < s.size)
    (record : Option String) : (s.openIn parent record).Rooted where
  global := by
    rw [size_openIn]
    exact Nat.lt_succ_of_lt h.global
  top := by
    rw [scope_openIn, if_neg (Nat.ne_of_lt h.global)]
    exact h.top
  parents i hi hne := by
    rw [size_openIn] at hi
    rw [scope_openIn]
    split
    · rename_i hlast
      exact ⟨parent, hlast ▸ hparent, rfl⟩
    · rename_i hlast
      exact h.parents i (Nat.lt_of_le_of_ne (Nat.le_of_lt_succ hi) hlast) hne

theorem Scopes.Rooted.bind {s : Scopes} (h : s.Rooted) (i : Nat) (name : String) (cursor : Nat) :
    (s.bind i name cursor).Rooted where
  global := by
    rw [size_bind]
    exact h.global
  top := by
    rw [parent_bind]
    exact h.top
  parents j hj hne := by
    rw [size_bind] at hj
    rw [parent_bind]
    exact h.parents j hj hne

namespace TranslationUnit

/-- The numbers of the cursors that declare something, in the order in which they were made. -/
def declarations (u : TranslationUnit) : List Nat :=
  (List.range u.size).filter fun i => (u.kind i).isDeclaration

theorem declarations_push (u : TranslationUnit) (p : Nat) (c : Cursor) :
    (u.push p c).declarations =
      u.declarations ++ if c.kind.isDeclaration then [u.size] else [] := by
  have hold : (List.range u.size).filter (fun i => ((u.push p c).kind i).isDeclaration) =
      u.declarations := List.filter_congr fun i hi => by
    rw [kind, cursor_push_of_lt u p c (List.mem_range.mp hi)]
    rfl
  have hnew : (u.push p c).kind u.size = c.kind := by rw [kind, cursor_push]
  rw [declarations, size_push, List.range_succ, List.filter_append, hold]
  cases hkind : c.kind.isDeclaration <;> simp [hnew, hkind]

theorem declarations_congr {u v : TranslationUnit} (hsize : v.size = u.size)
    (hkind : ∀ i < u.size, v.kind i = u.kind i) : v.declarations = u.declarations := by
  rw [declarations, hsize]
  exact List.filter_congr fun i hi => by rw [hkind i (List.mem_range.mp hi)]

theorem declarations_addExpansions (u : TranslationUnit) (expansions : Array Expansion) :
    (expansions.foldl Lowering.addExpansion u).declarations = u.declarations :=
  Array.foldl_induction (fun _ (v : TranslationUnit) => v.declarations = u.declarations) rfl
      fun _ v hv => by
    rw [Lowering.addExpansion, declarations_push, hv]
    exact List.append_nil _

end TranslationUnit

namespace Lowering

variable {s t r : Lowering}

/-- One state comes after another: cursors and scopes are added. -/
structure Later (s t : Lowering) : Prop where
  unit : s.unit.Grows t.unit
  scopes : s.scopes.size ≤ t.scopes.size

namespace Later

theorem refl (s : Lowering) : s.Later s := ⟨.refl _, Nat.le_refl _⟩

theorem trans (h : s.Later t) (h' : t.Later r) : s.Later r :=
  ⟨h.unit.trans h'.unit, Nat.le_trans h.scopes h'.scopes⟩

theorem cursor_lt (h : s.Later t) {i : Nat} (hi : i < s.unit.size) : i < t.unit.size :=
  Nat.lt_of_lt_of_le hi h.unit.size

theorem scope_lt (h : s.Later t) {i : Nat} (hi : i < s.scopes.size) : i < t.scopes.size :=
  Nat.lt_of_lt_of_le hi h.scopes

end Later

theorem Act.later (s : Lowering) (a : Act) : s.Later (a.apply s) := by
  cases a with
  | push parent c => exact ⟨.push _ _ _, Nat.le_refl _⟩
  | own cursor owner => exact ⟨.own _ _ _, Nat.le_refl _⟩
  | openScope parent record =>
    refine ⟨.refl _, ?_⟩
    rw [Act.apply, Scopes.size_openIn]
    exact Nat.le_succ _
  | declare scope name cursor =>
    rw [Act.apply]
    rcases declare_run scope name cursor s with hrun | hrun
    · rw [hrun]
      exact .refl s
    · rw [hrun]
      exact ⟨.refl _, Nat.le_of_eq (Scopes.size_bind ..).symm⟩
  | flush => exact ⟨.addExpansions _ _, Nat.le_refl _⟩
  | meet header depth => exact ⟨.addInclusion _ _ _, Nat.le_refl _⟩
  | setMembers | addSite | addForward | setType | expand | define | undefine =>
    exact ⟨.refl _, Nat.le_refl _⟩

/-- Links stay below the number of cursors as expansions are added. -/
theorem links_addExpansions {u : TranslationUnit} {bound : Nat} (expansions : Array Expansion)
    (hroot : 0 < bound) (hlinks : ∀ i, (u.cursor i).LinksBelow bound)
    (hdefinitions : ∀ e ∈ expansions, e.definition < bound) (i : Nat) :
    ((expansions.foldl addExpansion u).cursor i).LinksBelow bound := by
  refine Array.foldl_induction (fun _ (v : TranslationUnit) => ∀ i, (v.cursor i).LinksBelow bound)
    hlinks (fun k v hv i => ?_) i
  rw [addExpansion, TranslationUnit.cursor_push_eq]
  split
  · exact { Cursor.linksBelow_default bound with
      parent := by
        rintro _ ⟨⟩
        exact hroot
      referenced := by
        rintro _ ⟨⟩
        exact hdefinitions _ (Array.getElem_mem k.isLt) }
  · exact hv i

/-- **An act in range leads from a state in order to a state in order.** -/
theorem InOrder.apply (h : s.InOrder) {a : Act} (ha : a.InRange s) : (a.apply s).InOrder := by
  have hlater := a.later s
  have hroot := hlater.cursor_lt h.root
  have hw := h.within.mono hlater.unit.size hlater.scopes
  cases a with
  | push parent c =>
    refine ⟨hroot, h.scopes, { hw with links := fun i => ?_ }⟩
    rw [Act.apply, TranslationUnit.cursor_push_eq]
    split
    · exact { ha.2.mono hlater.unit.size with
        parent := by
          rintro _ ⟨⟩
          exact hlater.cursor_lt ha.1 }
    · exact hw.links i
  | own cursor owner =>
    refine ⟨hroot, h.scopes, { hw with links := fun i => ?_ }⟩
    rw [Act.apply, TranslationUnit.cursor_modify_eq]
    split
    · refine { hw.links i with semanticParent := fun o ho => ?_ }
      cases owner with
      | none => exact (hw.links i).semanticParent o ho
      | some owner => exact hlater.cursor_lt (ha.2 o ho)
    · exact hw.links i
  | openScope parent record =>
    refine ⟨hroot, h.scopes.openIn ha record, { hw with names := fun i b hb => ?_ }⟩
    rw [Act.apply, Scopes.scope_openIn] at hb
    split at hb
    · cases hb
    · exact hw.names i b hb
  | setMembers cursor scope =>
    exact ⟨hroot, h.scopes, { hw with
      memberScopes := fun m hm => (List.mem_cons.mp hm).elim
        (fun heq => heq ▸ ha) (hw.memberScopes m) }⟩
  | declare scope name cursor =>
    rw [Act.apply] at hw hlater ⊢
    rcases declare_run scope name cursor s with hrun | hrun
    · rw [hrun]
      exact h
    · rw [hrun] at hw hlater ⊢
      exact ⟨h.root, h.scopes.bind .., { hw with
        names := fun i b hb => (Scopes.names_bind hb).elim (hw.names i b)
          fun heq => heq ▸ ha.2.1 }⟩
  | addSite site =>
    exact ⟨hroot, h.scopes, { hw with
      sites := fun x hx => (Array.mem_push.mp hx).elim (hw.sites x) fun heq => heq ▸ ha }⟩
  | addForward f =>
    exact ⟨hroot, h.scopes, { hw with
      forwards := fun x hx => (Array.mem_push.mp hx).elim (hw.forwards x) fun heq => heq ▸ ha }⟩
  | setType cursor hint =>
    exact ⟨hroot, h.scopes, { hw with
      types := fun x hx => (List.mem_cons.mp hx).elim (fun heq => heq ▸ ha) (hw.types x) }⟩
  | expand e =>
    exact ⟨hroot, h.scopes, { hw with
      expansions := fun x hx => (Array.mem_push.mp hx).elim (hw.expansions x)
        fun heq => heq ▸ ha }⟩
  | flush =>
    exact ⟨hroot, h.scopes, { hw with
      links := links_addExpansions s.expansions hroot hw.links hw.expansions
      expansions := nofun }⟩
  | define name cursor =>
    exact ⟨hroot, h.scopes, { hw with
      macros := fun x hx => (List.mem_cons.mp hx).elim (fun heq => heq ▸ ha) (hw.macros x) }⟩
  | undefine name =>
    exact ⟨hroot, h.scopes, { hw with
      macros := fun x hx => hw.macros x (List.mem_filter.mp hx).1 }⟩
  | meet header depth => exact ⟨hroot, h.scopes, { hw with }⟩

theorem inOrder_init (mainFile canonical : Path) : (init mainFile canonical).InOrder where
  root := Nat.zero_lt_one
  scopes := ⟨Nat.zero_lt_one, rfl, fun i hi hne => absurd (Nat.lt_one_iff.mp hi) hne⟩
  within := {
    links := fun i => by
      cases i with
      | zero => exact ⟨nofun, nofun, nofun, nofun, nofun⟩
      | succ i => exact Cursor.linksBelow_default _
    names := fun i b hb => by
      cases i with
      | zero => cases hb
      | succ i => cases hb
    memberScopes := nofun
    macros := nofun
    expansions := nofun
    sites := nofun
    forwards := nofun
    types := nofun }

/-! ## Acts one after another -/

/-- The acts lead from the one state to the other, each of them in range where it is done. -/
inductive Passes : Lowering → List Act → Lowering → Prop where
  | nil (s : Lowering) : Passes s [] s
  | cons {s t : Lowering} {a : Act} {acts : List Act} (h : a.InRange s)
      (hrest : Passes (a.apply s) acts t) : Passes s (a :: acts) t

/-- The state behind the acts. -/
def after (s : Lowering) (acts : List Act) : Lowering := acts.foldl Act.apply s

namespace Passes

variable {acts acts' : List Act}

theorem single {a : Act} (h : a.InRange s) : Passes s [a] (a.apply s) := .cons h (.nil _)

theorem trans (h : Passes s acts t) (h' : Passes t acts' r) : Passes s (acts ++ acts') r := by
  induction h with
  | nil => exact h'
  | cons ha _ ih => exact .cons ha (ih h')

theorem later (h : Passes s acts t) : s.Later t := by
  induction h with
  | nil s => exact .refl s
  | @cons s _ a _ _ _ ih => exact (a.later s).trans ih

/-- **Acts in range lead from a state in order to a state in order.** -/
theorem inOrder (h : Passes s acts t) (hs : s.InOrder) : t.InOrder := by
  induction h with
  | nil => exact hs
  | cons ha _ ih => exact ih (hs.apply ha)

/-- The acts done so far lead to the state behind them. -/
theorem take (h : Passes s acts t) (n : Nat) : Passes s (acts.take n) (s.after (acts.take n)) := by
  induction h generalizing n with
  | nil s =>
    rw [List.take_nil]
    exact .nil s
  | cons ha _ ih =>
    cases n with
    | zero => exact .nil _
    | succ n => exact .cons ha (ih n)

end Passes

/-! ### The names that are declared -/

/-- The cursors that the acts declare, in turn. -/
def declared (acts : List Act) : List Nat :=
  acts.filterMap fun
    | .declare _ _ cursor => some cursor
    | _ => none

theorem declared_append (acts acts' : List Act) :
    declared (acts ++ acts') = declared acts ++ declared acts' :=
  List.filterMap_append

/-- The cursors that declare something are declared in turn: those of `due` were made before and
    wait for it, and those of `owed` are left waiting. -/
def Accounts (s : Lowering) (due : List Nat) (acts : List Act) (t : Lowering) (owed : List Nat) :
    Prop :=
  ∀ before, s.unit.declarations = before ++ due →
    t.unit.declarations = before ++ declared acts ++ owed

theorem Accounts.trans {acts acts' : List Act} {due owed owed' : List Nat}
    (h : Accounts s due acts t owed) (h' : Accounts t owed acts' r owed') :
    Accounts s due (acts ++ acts') r owed' := fun before hbefore => by
  rw [h' _ (h before hbefore), declared_append, List.append_assoc before]

/-- Acts that declare no name, and make no cursor that declares one. -/
theorem Accounts.still {acts : List Act} {due : List Nat} (hacts : declared acts = [])
    (h : t.unit.declarations = s.unit.declarations) : Accounts s due acts t due :=
  fun before hbefore => by rw [h, hbefore, hacts, List.append_nil]

end Lowering

end SymbolAtlas
