import SymbolAtlas.Proofs.LoweringWalk

/-!
# The uses in lowered units

While a lowering goes on, names lead to cursors that declare them, uses are left to be bound, and
records without a body wait for their definition.  What is left in the end is bound: a use then
refers to a declaration of its name, or turns out to be nothing that is exposed.

* `Lowering.Sound` — what a lowering keeps about names, macros, uses and waiting records.
* `TranslationUnit.Rebinds` — what binding may change of a unit.
* `TranslationUnit.Rests` — what a cursor refers to once all is bound.

Principal results: `Sound.step` — every step of a lowering keeps `Sound`; `sound_collect`;
`TranslationUnit.fullyBound_ofSource` — every cursor of a lowered unit is bound.
-/

set_option autoImplicit false

namespace SymbolAtlas

/-! ## Scopes -/

namespace Scopes

variable {s : Scopes} {i j : Nat} {name other : String} {id cursor : Nat}

theorem named?_of_bind (h : (s.bind i name cursor).named? j other = some id) :
    (other = name ∧ id = cursor) ∨ s.named? j other = some id := by
  unfold named? scope bind at h
  rw [Array.getD_eq_getD_getElem?, Array.getElem?_modify] at h
  unfold named? scope
  rw [Array.getD_eq_getD_getElem?]
  split at h
  · cases hscope : s.table[j]? with
    | none =>
      rw [hscope] at h
      cases h
    | some scope =>
      rw [hscope] at h
      change List.lookup other ((name, cursor) :: scope.names) = some id at h
      rw [List.lookup_cons] at h
      split at h
      · rename_i heq
        cases h
        exact .inl ⟨by simpa using heq, rfl⟩
      · exact .inr h
  · exact .inr h

theorem named?_of_openIn {parent : Nat} {record : Option String}
    (h : (s.openIn parent record).named? j other = some id) : s.named? j other = some id := by
  unfold named? scope openIn at h
  rw [Array.getD_eq_getD_getElem?, Array.getElem?_push] at h
  split at h
  · cases h
  · unfold named? scope
    rw [Array.getD_eq_getD_getElem?]
    exact h

/-- What is found from the inside out is named in some scope. -/
theorem named?_of_lookup (h : s.lookup i name = some id) : ∃ j, s.named? j name = some id := by
  fun_induction lookup s i name with
  | case1 i cursor hnamed =>
    cases h
    exact ⟨i, hnamed⟩
  | case2 i _ p _ _ ih => exact ih h
  | case3 => cases h
  | case4 => cases h

theorem named?_of_anyMember? (h : s.anyMember? name = some id) :
    ∃ j, s.named? j name = some id := by
  obtain ⟨scope, hmem, hscope⟩ := List.exists_of_findSome?_eq_some h
  obtain ⟨j, hj⟩ := List.mem_iff_getElem?.mp hmem
  split at hscope
  · refine ⟨j, ?_⟩
    rw [Array.getElem?_toList] at hj
    rw [named?, Scopes.scope, Array.getD_eq_getD_getElem?, hj]
    exact hscope
  · cases hscope

end Scopes

/-- What a use names is named in some scope. -/
theorem Lowering.named?_of_target? {s : Lowering} {site : UseSite} {id : Nat}
    (h : s.target? site = some id) : ∃ j, s.scopes.named? j site.name = some id := by
  unfold target? at h
  split at h
  · exact Scopes.named?_of_lookup h
  · obtain ⟨scope, -, hscope⟩ := Option.bind_eq_some_iff.mp h
    exact ⟨scope, hscope⟩
  · unfold member? at h
    rw [Option.orElse_eq_orElse, Option.orElse_eq_or, Option.or_eq_some_iff] at h
    rcases h with htyped | ⟨-, hany⟩
    · obtain ⟨value, -, hvalue⟩ := Option.bind_eq_some_iff.mp htyped
      obtain ⟨scope, -, hscope⟩ := Option.bind_eq_some_iff.mp hvalue
      exact ⟨scope, hscope⟩
    · exact Scopes.named?_of_anyMember? hany

namespace TranslationUnit

/-- The cursor with a number is there and declares a name. -/
def Declares (u : TranslationUnit) (id : Nat) (name : String) : Prop :=
  ∃ kind isDefinition, u.Has id kind name isDefinition ∧ kind.isDeclaration = true

theorem Grows.declares {u v : TranslationUnit} (h : u.Grows v) {id : Nat} {name : String} :
    u.Declares id name → v.Declares id name
  | ⟨kind, isDefinition, hhas, hkind⟩ => ⟨kind, isDefinition, h.has hhas, hkind⟩

end TranslationUnit

/-- The cursor of a use of a macro. -/
def Expansion.cursor (e : Expansion) : Cursor where
  kind := .macroExpansion
  spelling := e.name
  position := e.position
  referenced := some e.definition

namespace Lowering

/-! ## What a lowering keeps -/

/-- What a cursor is that a lowering has made, as long as uses are not bound. -/
inductive Made (s : Lowering) (i : Nat) (c : Cursor) : Prop where
  | own (hkind : c.kind.isOwn = true) (hbody : c.kind.isRecord = true → c.isDefinition = true)
      (href : c.referenced = none)
  | use (hkind : c.kind.isReference = true) (hnotMacro : c.kind ≠ .macroExpansion)
      (href : c.referenced = none) (hwaits : ∃ site ∈ s.sites, site.cursor = i)
  | forward (hkind : c.kind.isRecord = true) (hbody : c.isDefinition = false)
      (href : c.referenced = none) (hwaits : ∃ f ∈ s.forwards, f.cursor = i)
  | expansion {definition : Nat} (hkind : c.kind = .macroExpansion) (hparent : c.parent = some 0)
      (hlt : definition < i) (href : c.referenced = some definition)
      (hdefinition : s.unit.Has definition .macroDefinition c.spelling true)
  | inclusion (hkind : c.kind = .inclusionDirective) (href : c.referenced = none)

/-- A cursor that a lowering has made, and the one it stands in. -/
structure Fits (s : Lowering) (i : Nat) (c : Cursor) : Prop where
  parent : ∃ p < i, c.parent = some p ∧ s.unit.Receives p
  reported : c.reportedParent = none
  definition : c.definition = none
  made : s.Made i c

/-- What a lowering keeps: cursors stand in others that are no uses, names and macros lead to what
    declares them, and what waits is there, once. -/
structure Sound (s : Lowering) : Prop where
  root : ∃ name, s.unit.Has 0 .translationUnit name false
  cursors : ∀ i, 0 < i → i < s.unit.size → s.Fits i (s.unit.cursor i)
  names : ∀ j name id, s.scopes.named? j name = some id → s.unit.Declares id name
  macros : ∀ m ∈ s.macros, s.unit.Has m.2 .macroDefinition m.1 true
  expansions : ∀ e ∈ s.expansions, s.unit.Has e.definition .macroDefinition e.name true
  sites : ∀ site ∈ s.sites, ∃ kind, s.unit.Has site.cursor kind site.name false ∧
    kind.isReference = true ∧ kind ≠ .macroExpansion
  sitesApart : s.sites.toList.Pairwise fun a b => a.cursor ≠ b.cursor
  forwards : ∀ f ∈ s.forwards, ∃ kind, s.unit.Has f.cursor kind f.name false ∧
    kind.isRecord = true
  forwardsApart : s.forwards.toList.Pairwise fun a b => a.cursor ≠ b.cursor

variable {headers : Headers} {file : OpenFile} {s t : Lowering}

theorem Made.referenced {i : Nat} {c : Cursor} (h : s.Made i c)
    (hnotMacro : c.kind ≠ .macroExpansion) : c.referenced = none := by
  cases h with
  | own _ _ href => exact href
  | use _ _ href => exact href
  | forward _ _ href => exact href
  | expansion hkind => exact absurd hkind hnotMacro
  | inclusion _ href => exact href

theorem Fits.grows {i : Nat} {c : Cursor} (hg : s.Grows t) (h : s.Fits i c)
    (owner : Option Nat) : t.Fits i { c with semanticParent := owner } where
  parent := by
    obtain ⟨p, hlt, hparent, hreceives⟩ := h.parent
    exact ⟨p, hlt, hparent, hg.unit.receives hreceives⟩
  reported := h.reported
  definition := h.definition
  made := by
    cases h.made with
    | own hkind hbody href => exact .own hkind hbody href
    | use hkind hnotMacro href hwaits =>
      obtain ⟨site, hsite, hcursor⟩ := hwaits
      exact .use hkind hnotMacro href ⟨site, hg.sites site hsite, hcursor⟩
    | forward hkind hbody href hwaits =>
      obtain ⟨f, hf, hcursor⟩ := hwaits
      exact .forward hkind hbody href ⟨f, hg.forwards f hf, hcursor⟩
    | expansion hkind hparent hlt href hdefinition =>
      exact .expansion hkind hparent hlt href (hg.unit.has hdefinition)
    | inclusion hkind href => exact .inclusion hkind href

/-- The cursors that were there fit on, so only the new ones have to be looked at. -/
theorem fits_of_grows (hg : s.Grows t)
    (hs : ∀ i, 0 < i → i < s.unit.size → s.Fits i (s.unit.cursor i))
    (hnew : ∀ i, s.unit.size ≤ i → i < t.unit.size → t.Fits i (t.unit.cursor i)) (i : Nat)
    (hpos : 0 < i) (hi : i < t.unit.size) : t.Fits i (t.unit.cursor i) := by
  rcases Nat.lt_or_ge i s.unit.size with hold | hge
  · obtain ⟨owner, howner⟩ := hg.unit.cursor i hold
    rw [howner]
    exact (hs i hpos hold).grows hg owner
  · exact hnew i hge hi

/-- A new cursor at the end of the unit. -/
theorem fits_of_push {parent : Nat} {c : Cursor}
    (hcursors : t.unit.cursors = (s.unit.push parent c).cursors)
    (hfits : t.Fits s.unit.size { c with parent := some parent }) (i : Nat)
    (hge : s.unit.size ≤ i) (hi : i < t.unit.size) : t.Fits i (t.unit.cursor i) := by
  obtain ⟨rfl, hcursor⟩ := TranslationUnit.cursor_of_push hcursors hge hi
  rw [hcursor]
  exact hfits

/-- The uses of macros get their cursors at the level of the unit. -/
theorem cursor_addExpansions (u : TranslationUnit) (expansions : Array Expansion) {i : Nat}
    (hge : u.size ≤ i) (hi : i < (expansions.foldl addExpansion u).size) :
    ∃ e ∈ expansions,
      (expansions.foldl addExpansion u).cursor i = { e.cursor with parent := some 0 } := by
  refine Array.foldl_induction
    (fun _ (v : TranslationUnit) => ∀ i, u.size ≤ i → i < v.size →
      ∃ e ∈ expansions, v.cursor i = { e.cursor with parent := some 0 })
    (fun i hge hi => absurd hi (Nat.not_lt.mpr hge)) ?_ i hge hi
  intro k v ih i hge hi
  rw [addExpansion, TranslationUnit.cursor_push_eq]
  split
  · exact ⟨_, Array.getElem_mem _, rfl⟩
  · rename_i hne
    rw [addExpansion, TranslationUnit.size_push] at hi
    exact ih i hge (Nat.lt_of_le_of_ne (Nat.le_of_lt_succ hi) hne)

namespace Sound

theorem receives_root (hs : s.Sound) : s.unit.Receives 0 := by
  obtain ⟨_, hroot⟩ := hs.root
  exact hroot.receives Category.noConfusion

/-- Only the cursor of the unit does not stand in another. -/
theorem fits (hs : s.Sound) {i : Nat} (hi : i < s.unit.size)
    (hkind : s.unit.kind i ≠ .translationUnit) : s.Fits i (s.unit.cursor i) := by
  obtain ⟨_, hroot⟩ := hs.root
  refine hs.cursors i (Nat.pos_of_ne_zero fun h => hkind ?_) hi
  rw [h]
  exact hroot.kind

theorem cursors_change (h : Change file s t) (hs : s.Sound) (i : Nat) (hpos : 0 < i)
    (hi : i < t.unit.size) : t.Fits i (t.unit.cursor i) := by
  have hg := h.grows
  refine fits_of_grows hg hs.cursors ?_ i hpos hi
  cases h with
  | push token isDefinition displayName hparent hkind hbody hname =>
    exact fits_of_push rfl
      ⟨⟨_, hparent.lt, rfl, hg.unit.receives hparent⟩, rfl, rfl, .own hkind hbody rfl⟩
  | use token scope binding hparent hkind hnotMacro =>
    exact fits_of_push rfl
      ⟨⟨_, hparent.lt, rfl, hg.unit.receives hparent⟩, rfl, rfl,
        .use hkind hnotMacro rfl ⟨_, Array.mem_push_self, rfl⟩⟩
  | forward token scope hparent hkind =>
    exact fits_of_push rfl
      ⟨⟨_, hparent.lt, rfl, hg.unit.receives hparent⟩, rfl, rfl,
        .forward hkind rfl rfl ⟨_, Array.mem_push_self, rfl⟩⟩
  | flush =>
    intro i hge hi
    obtain ⟨e, he, hcursor⟩ := cursor_addExpansions s.unit s.expansions hge hi
    have hdefinition := hs.expansions e he
    have hroot := hs.receives_root
    simp only [hcursor]
    exact ⟨⟨0, Nat.lt_of_lt_of_le hroot.lt hge, rfl, hg.unit.receives hroot⟩, rfl, rfl,
      .expansion rfl rfl (Nat.lt_of_lt_of_le hdefinition.lt hge) rfl (hg.unit.has hdefinition)⟩
  | own =>
    intro i hge hi
    refine absurd hi (Nat.not_lt.mpr (Nat.le_trans (Nat.le_of_eq ?_) hge))
    exact TranslationUnit.size_modify ..
  | bind | define | undefine | expand | openScope | note =>
    exact fun i hge hi => absurd hi (Nat.not_lt.mpr hge)

theorem names_change (h : Change file s t) (hs : s.Sound) (j : Nat) (name : String) (id : Nat)
    (hnamed : t.scopes.named? j name = some id) : t.unit.Declares id name := by
  have hg := h.grows
  cases h with
  | bind scope hid hkind =>
    rcases Scopes.named?_of_bind hnamed with ⟨rfl, rfl⟩ | hold
    · exact ⟨_, _, hid, hkind⟩
    · exact hs.names j name id hold
  | openScope => exact hs.names j name id (Scopes.named?_of_openIn hnamed)
  | push | use | forward | own | define | undefine | expand | flush | note =>
    exact hg.unit.declares (hs.names j name id hnamed)

theorem macros_change (h : Change file s t) (hs : s.Sound) (m : String × Nat)
    (hm : m ∈ t.macros) : t.unit.Has m.2 .macroDefinition m.1 true := by
  have hg := h.grows
  cases h with
  | define hid =>
    rcases List.mem_cons.mp hm with rfl | hold
    · exact hid
    · exact hs.macros m hold
  | undefine => exact hs.macros m ((List.mem_filter.mp hm).1)
  | push | use | forward | own | bind | expand | flush | openScope | note =>
    exact hg.unit.has (hs.macros m hm)

theorem expansions_change (h : Change file s t) (hs : s.Sound) (e : Expansion)
    (he : e ∈ t.expansions) : t.unit.Has e.definition .macroDefinition e.name true := by
  have hg := h.grows
  cases h with
  | expand token hdefined =>
    rcases Array.mem_push.mp he with hold | rfl
    · exact hs.expansions e hold
    · obtain ⟨_, _, hmacros, -⟩ := List.lookup_eq_some_iff.mp hdefined
      exact hs.macros _ (hmacros ▸ List.mem_append_right _ List.mem_cons_self)
  | flush => cases Array.not_mem_empty e he
  | push | use | forward | own | bind | define | undefine | openScope | note =>
    exact hg.unit.has (hs.expansions e he)

theorem sites_change (h : Change file s t) (hs : s.Sound) (site : UseSite)
    (hsite : site ∈ t.sites) :
    ∃ kind, t.unit.Has site.cursor kind site.name false ∧ kind.isReference = true ∧
      kind ≠ .macroExpansion := by
  have hg := h.grows
  have hold : site ∈ s.sites → ∃ kind, t.unit.Has site.cursor kind site.name false ∧
      kind.isReference = true ∧ kind ≠ .macroExpansion := fun hsite => by
    obtain ⟨kind, hhas, hkind⟩ := hs.sites site hsite
    exact ⟨kind, hg.unit.has hhas, hkind⟩
  cases h with
  | use token scope binding hparent hkind hnotMacro =>
    rcases Array.mem_push.mp hsite with hsite | rfl
    · exact hold hsite
    · exact ⟨_, TranslationUnit.has_push _ _ _, hkind, hnotMacro⟩
  | push | forward | own | bind | define | undefine | expand | flush | openScope | note =>
    exact hold hsite

theorem sitesApart_change (h : Change file s t) (hs : s.Sound) :
    t.sites.toList.Pairwise fun a b => a.cursor ≠ b.cursor := by
  cases h with
  | use =>
    rw [Array.toList_push, List.pairwise_append]
    refine ⟨hs.sitesApart, List.pairwise_singleton _ _, fun a ha b hb => ?_⟩
    obtain ⟨_, hhas, -⟩ := hs.sites a (Array.mem_toList_iff.mp ha)
    rw [List.mem_singleton.mp hb]
    exact Nat.ne_of_lt hhas.lt
  | push | forward | own | bind | define | undefine | expand | flush | openScope | note =>
    exact hs.sitesApart

theorem forwards_change (h : Change file s t) (hs : s.Sound) (f : Forward) (hf : f ∈ t.forwards) :
    ∃ kind, t.unit.Has f.cursor kind f.name false ∧ kind.isRecord = true := by
  have hg := h.grows
  have hold : f ∈ s.forwards → ∃ kind, t.unit.Has f.cursor kind f.name false ∧
      kind.isRecord = true := fun hf => by
    obtain ⟨kind, hhas, hkind⟩ := hs.forwards f hf
    exact ⟨kind, hg.unit.has hhas, hkind⟩
  cases h with
  | forward token scope hparent hkind =>
    rcases Array.mem_push.mp hf with hf | rfl
    · exact hold hf
    · exact ⟨_, TranslationUnit.has_push _ _ _, hkind⟩
  | push | use | own | bind | define | undefine | expand | flush | openScope | note =>
    exact hold hf

theorem forwardsApart_change (h : Change file s t) (hs : s.Sound) :
    t.forwards.toList.Pairwise fun a b => a.cursor ≠ b.cursor := by
  cases h with
  | forward =>
    rw [Array.toList_push, List.pairwise_append]
    refine ⟨hs.forwardsApart, List.pairwise_singleton _ _, fun a ha b hb => ?_⟩
    obtain ⟨_, hhas, -⟩ := hs.forwards a (Array.mem_toList_iff.mp ha)
    rw [List.mem_singleton.mp hb]
    exact Nat.ne_of_lt hhas.lt
  | push | use | own | bind | define | undefine | expand | flush | openScope | note =>
    exact hs.forwardsApart

theorem change (h : Change file s t) (hs : s.Sound) : t.Sound where
  root := by
    obtain ⟨name, hroot⟩ := hs.root
    exact ⟨name, h.grows.unit.has hroot⟩
  cursors := hs.cursors_change h
  names := hs.names_change h
  macros := hs.macros_change h
  expansions := hs.expansions_change h
  sites := hs.sites_change h
  sitesApart := hs.sitesApart_change h
  forwards := hs.forwards_change h
  forwardsApart := hs.forwardsApart_change h

/-- A directive adds its own cursor, and leaves all else as it is. -/
theorem meet {parent : Nat} {e : Directive} (hparent : s.unit.Receives parent) (hs : s.Sound) :
    (meet headers s parent e).Sound := by
  have hg := meet_grows headers s parent e
  obtain ⟨included, inclusions, heq⟩ := meet_eq headers s parent e
  rw [heq] at hg ⊢
  have hnew := fits_of_push (s := s)
    (t := { s with included, unit := { s.unit.push parent e.cursor with inclusions } }) rfl
    ⟨⟨parent, hparent.lt, rfl, hg.unit.receives hparent⟩, rfl, rfl, .inclusion rfl rfl⟩
  exact {
    root := by
      obtain ⟨name, hroot⟩ := hs.root
      exact ⟨name, hg.unit.has hroot⟩
    cursors := fits_of_grows hg hs.cursors hnew
    names := fun j name id hnamed => hg.unit.declares (hs.names j name id hnamed)
    macros := fun m hm => hg.unit.has (hs.macros m hm)
    expansions := fun e he => hg.unit.has (hs.expansions e he)
    sites := fun site hsite => by
      obtain ⟨kind, hhas, hkind⟩ := hs.sites site hsite
      exact ⟨kind, hg.unit.has hhas, hkind⟩
    sitesApart := hs.sitesApart
    forwards := fun f hf => by
      obtain ⟨kind, hhas, hkind⟩ := hs.forwards f hf
      exact ⟨kind, hg.unit.has hhas, hkind⟩
    forwardsApart := hs.forwardsApart }

/-- **Every step of a lowering keeps what is known of its uses.** -/
theorem step {c d : Config} {met : List Met} (h : Step headers c met d) (hs : c.2.Sound) :
    d.2.Sound := by
  cases h with
  | change h => exact hs.change h
  | directive e hparent => exact hs.meet hparent
  | leave => exact hs

end Sound

/-- Nothing waits in the unit of an empty file. -/
theorem sound_start (headers : Headers) (main : Source) : (start headers main).Sound where
  root := ⟨_, Nat.zero_lt_one, rfl, rfl, rfl⟩
  cursors i hpos hi := absurd hi (Nat.not_lt.mpr hpos)
  names j name id hnamed := by
    have hnone : (start headers main).scopes.named? j name = none := by
      cases j with
      | zero => rfl
      | succ j => rfl
    rw [hnone] at hnamed
    cases hnamed
  macros m hm := nomatch hm
  expansions e he := absurd he (Array.not_mem_empty e)
  sites site hsite := absurd hsite (Array.not_mem_empty site)
  sitesApart := .nil
  forwards f hf := absurd hf (Array.not_mem_empty f)
  forwardsApart := .nil

/-- What a lowering keeps holds of all that it has collected. -/
theorem sound_collect (headers : Headers) (main : Source) : (collect headers main).Sound := by
  obtain ⟨log, hruns⟩ := (reaches_collect headers main).2 []
  exact hruns.keeps (I := fun _ c => c.2.Sound) (fun _ _ _ _ hstep hs => hs.step hstep)
    (sound_start headers main)

end Lowering

/-! ## Binding -/

/-- A use may turn out to name a type, or nothing that is exposed.  Other cursors stay what they
    are. -/
inductive CursorKind.Binds (k : CursorKind) : CursorKind → Prop where
  | same : Binds k k
  | type (h : k.isReference = true) : Binds k .typeRef
  | unexposed (h : k.isReference = true) : Binds k .unexposed

namespace CursorKind.Binds

variable {k k' k'' : CursorKind}

theorem trans (h : k.Binds k') (h' : k'.Binds k'') : k.Binds k'' := by
  cases h with
  | same => exact h'
  | type hk =>
    cases h' with
    | same => exact .type hk
    | type => exact .type hk
    | unexposed => exact .unexposed hk
  | unexposed hk =>
    cases h' with
    | same => exact .unexposed hk
    | type h => cases h
    | unexposed h => cases h

theorem eq_of_not_reference (h : k.Binds k') (hk : k.isReference = false) : k' = k := by
  cases h with
  | same => rfl
  | type h => cases hk.symm.trans h
  | unexposed h => cases hk.symm.trans h

/-- What turns out to be neither was that before. -/
theorem eq_of_exposed (h : k.Binds k') (hreference : k'.isReference = false)
    (hexposed : k' ≠ .unexposed) : k' = k := by
  cases h with
  | same => rfl
  | type => cases hreference
  | unexposed => exact absurd rfl hexposed

end CursorKind.Binds

namespace TranslationUnit

variable {u v w : TranslationUnit}

/-- Binding tells what cursors name and are defined by, and may change the kinds of uses. -/
structure Rebinds (u v : TranslationUnit) : Prop where
  size : v.size = u.size
  inclusions : v.inclusions = u.inclusions
  cursor : ∀ i, ∃ kind referenced definition,
    v.cursor i = { u.cursor i with kind, referenced, definition } ∧ (u.cursor i).kind.Binds kind

namespace Rebinds

theorem refl (u : TranslationUnit) : u.Rebinds u := ⟨rfl, rfl, fun _ => ⟨_, _, _, rfl, .same⟩⟩

theorem trans (h : u.Rebinds v) (h' : v.Rebinds w) : u.Rebinds w where
  size := h'.size.trans h.size
  inclusions := h'.inclusions.trans h.inclusions
  cursor i := by
    obtain ⟨kind, _, _, hv, hkind⟩ := h.cursor i
    obtain ⟨kind', referenced, definition, hw, hkind'⟩ := h'.cursor i
    rw [hv] at hkind'
    exact ⟨kind', referenced, definition, by rw [hw, hv], hkind.trans hkind'⟩

theorem modify (u : TranslationUnit) (j : Nat) (f : Cursor → Cursor)
    (hf : ∃ kind referenced definition,
      f (u.cursor j) = { u.cursor j with kind, referenced, definition } ∧
        (u.cursor j).kind.Binds kind) :
    u.Rebinds (u.modify j f) where
  size := size_modify u j f
  inclusions := rfl
  cursor i := by
    rw [cursor_modify_eq]
    split
    · rename_i h
      rw [← h.1]
      exact hf
    · exact ⟨_, _, _, rfl, .same⟩

variable {i : Nat}

theorem binds (h : u.Rebinds v) (i : Nat) : (u.kind i).Binds (v.kind i) := by
  obtain ⟨_, _, _, hcursor, hkind⟩ := h.cursor i
  rw [TranslationUnit.kind, TranslationUnit.kind, hcursor]
  exact hkind

theorem kind (h : u.Rebinds v) (hi : (u.kind i).isReference = false) : v.kind i = u.kind i :=
  (h.binds i).eq_of_not_reference hi

theorem position (h : u.Rebinds v) (i : Nat) : v.position i = u.position i := by
  obtain ⟨_, _, _, hcursor, -⟩ := h.cursor i
  rw [TranslationUnit.position, hcursor]
  rfl

theorem spelling (h : u.Rebinds v) (i : Nat) : v.spelling i = u.spelling i := by
  obtain ⟨_, _, _, hcursor, -⟩ := h.cursor i
  rw [TranslationUnit.spelling, hcursor]
  rfl

theorem isDefinition (h : u.Rebinds v) (i : Nat) : v.isDefinition i = u.isDefinition i := by
  obtain ⟨_, _, _, hcursor, -⟩ := h.cursor i
  rw [TranslationUnit.isDefinition, hcursor]
  rfl

theorem has {kind : CursorKind} {name : String} {isDefinition : Bool} (h : u.Rebinds v)
    (hu : u.Has i kind name isDefinition) (hkind : kind.isReference = false) :
    v.Has i kind name isDefinition where
  lt := h.size ▸ hu.lt
  kind := (h.kind (hu.kind ▸ hkind)).trans hu.kind
  name := (h.spelling i).trans hu.name
  isDefinition := (h.isDefinition i).trans hu.isDefinition

theorem declares {name : String} (h : u.Rebinds v) :
    u.Declares i name → v.Declares i name
  | ⟨kind, isDefinition, hhas, hkind⟩ =>
    ⟨kind, isDefinition, h.has hhas (CursorKind.isReference_of_isDeclaration hkind), hkind⟩

theorem receives (h : u.Rebinds v) (hu : u.Receives i) : v.Receives i where
  lt := h.size ▸ hu.lt
  category := by
    have hkind : (u.kind i).isReference = false := by
      refine Bool.eq_false_iff.mpr fun hk => hu.category ?_
      exact Category.ofCursor_of_isReference hk _
    rw [category, h.kind hkind, h.isDefinition]
    exact hu.category

end Rebinds

/-- A use that was bound: it names a declaration of its name, or turned out to be nothing that is
    exposed. -/
inductive Settled (u : TranslationUnit) (c : Cursor) : Prop where
  | exposed {target : Nat} (hkind : c.kind.isReference = true)
      (hnotMacro : c.kind ≠ .macroExpansion) (href : c.referenced = some target)
      (htarget : u.Declares target c.spelling)
      (hspace : c.kind = .namespaceRef → (u.kind target).isRecord = false)
  | unexposed (hkind : c.kind = .unexposed) (href : c.referenced = none)

/-- A record without a body that was linked to its definition, if there is one.  Other records than
    classes and structs name their definition or themselves. -/
structure Linked (u : TranslationUnit) (c : Cursor) : Prop where
  kind : c.kind.isRecord = true
  body : c.isDefinition = false
  definition : ∀ d, c.definition = some d →
    ∃ kind, u.Has d kind c.spelling true ∧ kind.isRecord = true
  referenced : c.referenced = none ∧ c.kind.isForwardable = true ∨
    ∃ d, c.referenced = some d ∧ u.Declares d c.spelling

theorem Declares.kind {id : Nat} {name : String} (h : u.Declares id name) :
    (u.kind id).isReference = false := by
  obtain ⟨_, _, hhas, hdeclaration⟩ := h
  rw [hhas.kind]
  exact CursorKind.isReference_of_isDeclaration hdeclaration

theorem Settled.rebinds {c : Cursor} (h : u.Rebinds v) (hc : u.Settled c) : v.Settled c := by
  cases hc with
  | exposed hkind hnotMacro href htarget hspace =>
    refine .exposed hkind hnotMacro href (h.declares htarget) fun hc => ?_
    rw [h.kind htarget.kind]
    exact hspace hc
  | unexposed hkind href => exact .unexposed hkind href

theorem Linked.rebinds {c : Cursor} (h : u.Rebinds v) (hc : u.Linked c) : v.Linked c where
  kind := hc.kind
  body := hc.body
  definition d hd := by
    obtain ⟨kind, hhas, hrecord⟩ := hc.definition d hd
    exact ⟨kind, h.has hhas (CursorKind.isReference_of_isRecord hrecord), hrecord⟩
  referenced := hc.referenced.imp_right fun ⟨d, hd, hdeclares⟩ => ⟨d, hd, h.declares hdeclares⟩

end TranslationUnit

namespace Lowering

/-- Nothing but the cursors of the unit changes, and they are bound. -/
structure Binds (s t : Lowering) : Prop where
  unit : s.unit.Rebinds t.unit
  scopes : t.scopes = s.scopes
  forwards : t.forwards = s.forwards

theorem Binds.refl (s : Lowering) : s.Binds s := ⟨.refl _, rfl, rfl⟩

theorem Binds.trans {s t r : Lowering} (h : s.Binds t) (h' : t.Binds r) : s.Binds r :=
  ⟨h.unit.trans h'.unit, h'.scopes.trans h.scopes, h'.forwards.trans h.forwards⟩

/-- Names lead to what declares them. -/
def NamesDeclare (s : Lowering) : Prop :=
  ∀ j name id, s.scopes.named? j name = some id → s.unit.Declares id name

theorem NamesDeclare.binds {s t : Lowering} (h : s.Binds t) (hs : s.NamesDeclare) :
    t.NamesDeclare := fun j name id hnamed =>
  h.unit.declares (hs j name id (h.scopes ▸ hnamed))

/-- The cursor with a number is settled, and no other changes. -/
structure Settles (Q : TranslationUnit → Cursor → Prop) (i : Nat) (s t : Lowering) : Prop where
  binds : s.Binds t
  settled : Q t.unit (t.unit.cursor i)
  others : ∀ j, j ≠ i → t.unit.cursor j = s.unit.cursor j

/-- The cursor with a number is there and waits. -/
structure Waits (P : Cursor → Prop) (i : Nat) (s : Lowering) : Prop where
  lt : i < s.unit.size
  waits : P (s.unit.cursor i)

/-- What is settled one by one is settled in the end, when each waits once. -/
theorem foldl_settles {α : Type} {settle : Lowering → α → Lowering} {place : α → Nat}
    {P : α → Cursor → Prop} {Q : TranslationUnit → Cursor → Prop}
    (hsettle : ∀ {s a}, s.NamesDeclare → s.Waits (P a) (place a) →
      Settles Q (place a) s (settle s a))
    (hQ : ∀ {u v c}, u.Rebinds v → Q u c → Q v c) (as : List α) {s : Lowering}
    (hnames : s.NamesDeclare) (hwaits : ∀ a ∈ as, s.Waits (P a) (place a))
    (hapart : as.Pairwise fun a b => place a ≠ place b) :
    s.Binds (as.foldl settle s) ∧
      (∀ a ∈ as, Q (as.foldl settle s).unit ((as.foldl settle s).unit.cursor (place a))) ∧
      ∀ i, (∀ a ∈ as, i ≠ place a) → (as.foldl settle s).unit.cursor i = s.unit.cursor i := by
  induction as generalizing s with
  | nil => exact ⟨.refl s, List.forall_mem_nil _, fun _ _ => rfl⟩
  | cons a rest ih =>
    obtain ⟨hapartHead, hapartRest⟩ := List.pairwise_cons.mp hapart
    have hfirst := hsettle hnames (hwaits a List.mem_cons_self)
    have hwaitsRest : ∀ b ∈ rest, (settle s a).Waits (P b) (place b) := fun b hb => by
      have hb' := hwaits b (List.mem_cons_of_mem _ hb)
      refine ⟨hfirst.binds.unit.size ▸ hb'.lt, ?_⟩
      rw [hfirst.others _ (hapartHead b hb).symm]
      exact hb'.waits
    obtain ⟨hrest, hall, hothers⟩ := ih (hnames.binds hfirst.binds) hwaitsRest hapartRest
    rw [List.foldl_cons]
    refine ⟨hfirst.binds.trans hrest, fun b hb => ?_, fun i hi => ?_⟩
    · rcases List.mem_cons.mp hb with rfl | hb
      · rw [hothers _ hapartHead]
        exact hQ hrest.unit hfirst.settled
      · exact hall b hb
    · rw [hothers i fun b hb => hi b (List.mem_cons_of_mem _ hb)]
      exact hfirst.others i (hi a List.mem_cons_self)

variable {s : Lowering}

/-- Changing one cursor settles it. -/
theorem settles_modify {Q : TranslationUnit → Cursor → Prop} {i : Nat} {f : Cursor → Cursor}
    (hlt : i < s.unit.size)
    (hf : ∃ kind referenced definition,
      f (s.unit.cursor i) = { s.unit.cursor i with kind, referenced, definition } ∧
        (s.unit.cursor i).kind.Binds kind)
    (hQ : s.unit.Rebinds (s.unit.modify i f) → Q (s.unit.modify i f) (f (s.unit.cursor i))) :
    Settles Q i s { s with unit := s.unit.modify i f } where
  binds := ⟨.modify _ _ _ hf, rfl, rfl⟩
  settled := by
    rw [TranslationUnit.cursor_modify_eq, if_pos ⟨rfl, hlt⟩]
    exact hQ (.modify _ _ _ hf)
  others j hj := by
    rw [TranslationUnit.cursor_modify_eq, if_neg fun h => hj h.1.symm]

/-- A use that waits for its declaration. -/
structure Use (site : UseSite) (c : Cursor) : Prop where
  name : c.spelling = site.name
  kind : c.kind.isReference = true
  macro_ : c.kind ≠ .macroExpansion
  referenced : c.referenced = none

/-- A use is bound. -/
theorem bindSite_settles {site : UseSite} (hnames : s.NamesDeclare)
    (hwaits : s.Waits (Use site) site.cursor) :
    Settles TranslationUnit.Settled site.cursor s (s.bindSite site) := by
  have huse := hwaits.waits
  unfold bindSite
  cases htarget : s.target? site with
  | none =>
    exact settles_modify hwaits.lt ⟨_, _, _, rfl, .unexposed huse.kind⟩ fun _ =>
      .unexposed rfl huse.referenced
  | some target =>
    obtain ⟨j, hnamed⟩ := named?_of_target? htarget
    have hdeclares : s.unit.Declares target (s.unit.cursor site.cursor).spelling :=
      huse.name ▸ hnames j _ _ hnamed
    refine settles_modify hwaits.lt ⟨_, _, _, rfl, ?_⟩ fun hrebinds => ?_
    · dsimp only
      split
      · exact .type huse.kind
      · exact .same
    by_cases hspace : (s.unit.cursor site.cursor).kind = .namespaceRef ∧
        (s.unit.kind target).isRecord = true
    · simp only [if_pos hspace]
      exact .exposed rfl CursorKind.noConfusion rfl (hrebinds.declares hdeclares)
        CursorKind.noConfusion
    · simp only [if_neg hspace]
      refine .exposed huse.kind huse.macro_ rfl (hrebinds.declares hdeclares) fun hkind => ?_
      rw [hrebinds.kind hdeclares.kind]
      exact Bool.eq_false_iff.mpr fun hrecord => hspace ⟨hkind, hrecord⟩

/-- A record without a body that waits for its definition. -/
structure Bodiless (f : Forward) (c : Cursor) : Prop where
  name : c.spelling = f.name
  kind : c.kind.isRecord = true
  body : c.isDefinition = false
  referenced : c.referenced = none
  definition : c.definition = none

/-- The definition that a record without a body is linked to is a record of its name. -/
theorem has_of_filter (hnames : s.NamesDeclare) {scope d : Nat} {name : String}
    (h : (s.scopes.lookup scope name).filter
      (fun d => (s.unit.kind d).isRecord && s.unit.isDefinition d) = some d) :
    ∃ kind, s.unit.Has d kind name true ∧ kind.isRecord = true := by
  obtain ⟨hlookup, hd⟩ := Option.filter_eq_some_iff.mp h
  obtain ⟨hrecord, hdefinition⟩ := Bool.and_eq_true_iff.mp hd
  obtain ⟨j, hnamed⟩ := Scopes.named?_of_lookup hlookup
  obtain ⟨kind, _, hhas, -⟩ := hnames j name d hnamed
  exact ⟨kind, ⟨hhas.lt, hhas.kind, hhas.name, hdefinition⟩, hhas.kind ▸ hrecord⟩

/-- A record without a body is linked. -/
theorem linkForward_settles {f : Forward} (hnames : s.NamesDeclare)
    (hwaits : s.Waits (Bodiless f) f.cursor) :
    Settles TranslationUnit.Linked f.cursor s (s.linkForward f) := by
  have hrecord := hwaits.waits
  have hself : s.unit.Declares f.cursor (s.unit.cursor f.cursor).spelling :=
    ⟨_, _, ⟨hwaits.lt, rfl, rfl, rfl⟩, CursorKind.isDeclaration_of_isRecord hrecord.kind⟩
  unfold linkForward
  extract_lets definition followed
  have hdefinition : ∀ d, definition = some d →
      ∃ kind, s.unit.Has d kind (s.unit.cursor f.cursor).spelling true ∧ kind.isRecord = true :=
    fun d hd => hrecord.name ▸ has_of_filter hnames hd
  refine settles_modify hwaits.lt ⟨_, _, _, rfl, .same⟩ fun hrebinds => .rebinds hrebinds ?_
  refine ⟨hrecord.kind, hrecord.body, fun d hd => hdefinition d ?_, ?_⟩
  · rw [← hd, hrecord.definition]
    cases definition with
    | none => rfl
    | some => rfl
  · have hforwardable : followed = (s.unit.kind f.cursor).isForwardable := by
      unfold followed
      cases s.unit.kind f.cursor <;> rfl
    cases hfollowed : followed with
    | true => exact .inl ⟨hrecord.referenced, hforwardable.symm.trans hfollowed⟩
    | false =>
      refine .inr ⟨definition.getD f.cursor, rfl, ?_⟩
      cases hd : definition with
      | none => exact hself
      | some d =>
        obtain ⟨kind, hhas, hkind⟩ := hdefinition d hd
        exact ⟨kind, true, hhas, CursorKind.isDeclaration_of_isRecord hkind⟩

/-- The uses that are left wait for their declarations. -/
theorem Sound.use_waits (hs : s.Sound) {site : UseSite} (hsite : site ∈ s.sites) :
    s.Waits (Use site) site.cursor := by
  obtain ⟨kind, hhas, hkind, hnotMacro⟩ := hs.sites site hsite
  rw [← hhas.kind] at hkind hnotMacro
  have hfits := hs.fits hhas.lt fun h => by
    rw [h] at hkind
    cases hkind
  exact ⟨hhas.lt, hhas.name, hkind, hnotMacro, hfits.made.referenced hnotMacro⟩

/-- The records that are left wait for their definitions. -/
theorem Sound.forward_waits (hs : s.Sound) {f : Forward} (hf : f ∈ s.forwards) :
    s.Waits (Bodiless f) f.cursor := by
  obtain ⟨kind, hhas, hkind⟩ := hs.forwards f hf
  rw [← hhas.kind] at hkind
  have hfits := hs.fits hhas.lt fun h => by
    rw [h] at hkind
    cases hkind
  have hnotMacro : s.unit.kind f.cursor ≠ .macroExpansion := fun h => by
    rw [h] at hkind
    cases hkind
  exact ⟨hhas.lt, hhas.name, hkind, hhas.isDefinition, hfits.made.referenced hnotMacro,
    hfits.definition⟩

/-- Uses and records are different cursors. -/
theorem Sound.use_ne_forward (hs : s.Sound) {site : UseSite} (hsite : site ∈ s.sites)
    {f : Forward} (hf : f ∈ s.forwards) : site.cursor ≠ f.cursor := fun heq => by
  have hreference := (hs.use_waits hsite).waits.kind
  rw [heq, CursorKind.isReference_of_isRecord (hs.forward_waits hf).waits.kind] at hreference
  cases hreference

/-- All uses are bound, and then all records without a body linked. -/
theorem Sound.bindAll (hs : s.Sound) :
    s.Binds s.bindAll ∧
      (∀ site ∈ s.sites, s.bindAll.unit.Settled (s.bindAll.unit.cursor site.cursor)) ∧
      (∀ f ∈ s.forwards, s.bindAll.unit.Linked (s.bindAll.unit.cursor f.cursor)) ∧
      ∀ i, (∀ site ∈ s.sites, i ≠ site.cursor) → (∀ f ∈ s.forwards, i ≠ f.cursor) →
        s.bindAll.unit.cursor i = s.unit.cursor i := by
  have huses : ∀ site ∈ s.sites.toList, s.Waits (Use site) site.cursor := fun site hmem =>
    hs.use_waits (Array.mem_toList_iff.mp hmem)
  have hrecords : ∀ f ∈ s.forwards.toList, s.Waits (Bodiless f) f.cursor := fun f hmem =>
    hs.forward_waits (Array.mem_toList_iff.mp hmem)
  -- uses and records are different cursors, so the one fold leaves alone what the other settles
  have hdifferent : ∀ site ∈ s.sites.toList, ∀ f ∈ s.forwards.toList,
      site.cursor ≠ f.cursor := fun site hsite f hf =>
    hs.use_ne_forward (Array.mem_toList_iff.mp hsite) (Array.mem_toList_iff.mp hf)
  obtain ⟨hbinds, hsites, hothers⟩ := foldl_settles (fun hn hw => bindSite_settles hn hw)
    (fun h hc => .rebinds h hc) s.sites.toList hs.names huses hs.sitesApart
  have hwaits : ∀ f ∈ s.forwards.toList,
      (s.sites.toList.foldl bindSite s).Waits (Bodiless f) f.cursor := fun f hf => by
    refine ⟨hbinds.unit.size ▸ (hrecords f hf).lt, ?_⟩
    rw [hothers _ fun site hsite => (hdifferent site hsite f hf).symm]
    exact (hrecords f hf).waits
  obtain ⟨hbinds', hforwards, hothers'⟩ := foldl_settles (fun hn hw => linkForward_settles hn hw)
    (fun h hc => .rebinds h hc) s.forwards.toList (NamesDeclare.binds hbinds hs.names) hwaits
    hs.forwardsApart
  have hall : s.bindAll =
      s.forwards.toList.foldl linkForward (s.sites.toList.foldl bindSite s) := by
    rw [Lowering.bindAll, Array.foldl_toList, Array.foldl_toList]
  rw [hall]
  refine ⟨hbinds.trans hbinds', fun site hsite => ?_, fun f hf => ?_, fun i hsite hf => ?_⟩
  · rw [← Array.mem_toList_iff] at hsite
    rw [hothers' _ fun f hf => hdifferent site hsite f hf]
    exact (hsites site hsite).rebinds hbinds'.unit
  · exact hforwards f (Array.mem_toList_iff.mpr hf)
  · rw [hothers' _ fun f hmem => hf f (Array.mem_toList_iff.mp hmem),
      hothers _ fun site hmem => hsite site (Array.mem_toList_iff.mp hmem)]

end Lowering

/-! ## Lowered units -/

namespace TranslationUnit

/-- What a cursor is when all uses are bound. -/
inductive Rests (u : TranslationUnit) (i : Nat) (c : Cursor) : Prop where
  | own (hkind : c.kind.isOwn = true) (hbody : c.kind.isRecord = true → c.isDefinition = true)
      (href : c.referenced = none)
  | use (hsettled : u.Settled c)
  | record (hlinked : u.Linked c)
  | expansion {definition : Nat} (hkind : c.kind = .macroExpansion) (hparent : c.parent = some 0)
      (hlt : definition < i) (href : c.referenced = some definition)
      (hhas : u.Has definition .macroDefinition c.spelling true)
  | inclusion (hkind : c.kind = .inclusionDirective) (href : c.referenced = none)

namespace Rests

variable {u : TranslationUnit} {i : Nat} {c : Cursor}

/-- A use names a declaration, or the definition of a macro. -/
theorem names (h : u.Rests i c) (hkind : c.kind.isReference = true) :
    ∃ target, c.referenced = some target ∧
      (u.Declares target c.spelling ∨ u.Has target .macroDefinition c.spelling true) ∧
      (c.kind = .namespaceRef → (u.kind target).isRecord = false) := by
  cases h with
  | own hown =>
    rw [CursorKind.isReference_of_isOwn hown] at hkind
    cases hkind
  | use hsettled =>
    cases hsettled with
    | exposed _ _ href htarget hspace => exact ⟨_, href, .inl htarget, hspace⟩
    | unexposed hunexposed =>
      rw [hunexposed] at hkind
      cases hkind
  | record hlinked =>
    rw [CursorKind.isReference_of_isRecord hlinked.kind] at hkind
    cases hkind
  | expansion hexpansion _ _ href hhas =>
    refine ⟨_, href, .inr hhas, fun h => ?_⟩
    rw [h] at hexpansion
    cases hexpansion
  | inclusion hinclusion =>
    rw [hinclusion] at hkind
    cases hkind

/-- Only uses, and records without a body, name anything. -/
theorem referenced_eq_none (h : u.Rests i c) (hkind : c.kind.isReference = false)
    (hrecord : c.kind.isRecord = false) : c.referenced = none := by
  cases h with
  | own _ _ href => exact href
  | use hsettled =>
    cases hsettled with
    | exposed hreference => cases hkind.symm.trans hreference
    | unexposed _ href => exact href
  | record hlinked => cases hrecord.symm.trans hlinked.kind
  | expansion hexpansion =>
    rw [hexpansion] at hkind
    cases hkind
  | inclusion _ href => exact href

theorem linked (h : u.Rests i c) (hkind : c.kind.isRecord = true) (hbody : c.isDefinition = false) :
    u.Linked c := by
  have hreference := CursorKind.isReference_of_isRecord hkind
  cases h with
  | own _ hdefined =>
    rw [hdefined hkind] at hbody
    cases hbody
  | use hsettled =>
    cases hsettled with
    | exposed huse =>
      rw [hreference] at huse
      cases huse
    | unexposed hunexposed =>
      rw [hunexposed] at hkind
      cases hkind
  | record hlinked => exact hlinked
  | expansion hexpansion =>
    rw [hexpansion] at hkind
    cases hkind
  | inclusion hinclusion =>
    rw [hinclusion] at hkind
    cases hkind

end Rests

end TranslationUnit

namespace Lowering

/-- What every cursor becomes when all uses are bound. -/
theorem Sound.rests {s : Lowering} (hs : s.Sound) {i : Nat} (h : s.Made i (s.unit.cursor i)) :
    s.bindAll.unit.Rests i (s.bindAll.unit.cursor i) := by
  obtain ⟨hbinds, hsites, hforwards, hothers⟩ := hs.bindAll
  have hnoUse : (s.unit.kind i).isReference = false ∨ s.unit.kind i = .macroExpansion →
      ∀ site ∈ s.sites, i ≠ site.cursor := fun hkind site hsite heq => by
    obtain ⟨kind, hhas, hreference, hnotMacro⟩ := hs.sites site hsite
    rw [← hhas.kind, ← heq] at hreference hnotMacro
    rcases hkind with hkind | hkind
    · rw [hkind] at hreference
      cases hreference
    · exact hnotMacro hkind
  have hnoRecord : ((s.unit.kind i).isRecord = true → s.unit.isDefinition i = true) →
      ∀ f ∈ s.forwards, i ≠ f.cursor := fun hbody f hf heq => by
    obtain ⟨kind, hhas, hrecord⟩ := hs.forwards f hf
    have hdefinition := hhas.isDefinition
    rw [← heq, hbody (heq ▸ hhas.kind ▸ hrecord)] at hdefinition
    cases hdefinition
  cases h with
  | own hkind hbody href =>
    rw [hothers i (hnoUse (.inl (CursorKind.isReference_of_isOwn hkind))) (hnoRecord hbody)]
    exact .own hkind hbody href
  | use _ _ _ hwaits =>
    obtain ⟨site, hsite, rfl⟩ := hwaits
    exact .use (hsites site hsite)
  | forward _ _ _ hwaits =>
    obtain ⟨f, hf, rfl⟩ := hwaits
    exact .record (hforwards f hf)
  | expansion hkind hparent hlt href hdefinition =>
    have hrecord : (s.unit.kind i).isRecord = true → s.unit.isDefinition i = true := fun h => by
      rw [TranslationUnit.kind, hkind] at h
      cases h
    rw [hothers i (hnoUse (.inr hkind)) (hnoRecord hrecord)]
    exact .expansion hkind hparent hlt href (hbinds.unit.has hdefinition rfl)
  | inclusion hkind href =>
    have hrecord : (s.unit.kind i).isRecord = true → s.unit.isDefinition i = true := fun h => by
      rw [TranslationUnit.kind, hkind] at h
      cases h
    rw [hothers i (hnoUse (.inl (by rw [TranslationUnit.kind, hkind]; rfl))) (hnoRecord hrecord)]
    exact .inclusion hkind href

end Lowering

namespace TranslationUnit

/-- A cursor of a unit that is bound, and the one it stands in. -/
structure Bound (u : TranslationUnit) (i : Nat) (c : Cursor) : Prop where
  parent : ∃ p < i, c.parent = some p ∧ u.Receives p
  reported : c.reportedParent = none
  rests : u.Rests i c

/-- All cursors but that of the unit itself are bound. -/
structure FullyBound (u : TranslationUnit) : Prop where
  root : ∃ name, u.Has 0 .translationUnit name false
  bound : ∀ i, 0 < i → i < u.size → u.Bound i (u.cursor i)

/-- Only the cursor of the unit is of its kind. -/
theorem FullyBound.bound_of_kind {u : TranslationUnit} (h : u.FullyBound) {i : Nat}
    (hi : i < u.size) (hkind : u.kind i ≠ .translationUnit) : u.Bound i (u.cursor i) := by
  obtain ⟨_, hroot⟩ := h.root
  refine h.bound i (Nat.pos_of_ne_zero fun hzero => hkind ?_) hi
  rw [hzero]
  exact hroot.kind

/-- Binding keeps what a lowering has collected, but for what cursors name. -/
theorem rebinds_ofSource (headers : Headers) (main : Source) :
    (Lowering.collect headers main).unit.Rebinds (ofSource headers main) :=
  (Lowering.sound_collect headers main).bindAll.1.unit

/-- **All that a lowered unit holds is bound.** -/
theorem fullyBound_ofSource (headers : Headers) (main : Source) :
    (ofSource headers main).FullyBound where
  root := by
    obtain ⟨name, hroot⟩ := (Lowering.sound_collect headers main).root
    exact ⟨name, (rebinds_ofSource headers main).has hroot rfl⟩
  bound i hpos hi := by
    have hs := Lowering.sound_collect headers main
    have hrebinds := rebinds_ofSource headers main
    have hfits := hs.cursors i hpos (hrebinds.size ▸ hi)
    obtain ⟨_, _, _, hcursor, -⟩ := hrebinds.cursor i
    refine ⟨?_, ?_, hs.rests hfits.made⟩
    · obtain ⟨p, hlt, hparent, hreceives⟩ := hfits.parent
      rw [hcursor]
      exact ⟨p, hlt, hparent, hrebinds.receives hreceives⟩
    · rw [hcursor]
      exact hfits.reported

end TranslationUnit

end SymbolAtlas
