import Mathlib.Data.List.Forall2
import SymbolAtlas.Proofs.LoweringWalk
import SymbolAtlas.Proofs.PathSpellings

/-!
# Units that spell their headers differently

Headers that come under different spellings of their paths leave their spelling in the positions of
cursors, and nowhere else: which headers are found and met, which cursors are made and what they
name is decided by components and canonical paths.

* `TranslationUnit.Respells` — two units are the same but for the spelling of files in positions.
* `Lowering.Respells` — so are two lowerings at work.

Principal result: `TranslationUnit.respells_ofSource` — headers that are the same but for the
spelling of their paths make units that are the same but for the spelling of files.
-/

set_option autoImplicit false

namespace SymbolAtlas

theorem Path.Respells.refl (p : Path) : p.Respells p := ⟨rfl, fun _ => rfl⟩

/-- The same line and column of a file that may be spelled otherwise. -/
structure Position.Respells (p q : Position) : Prop where
  file : Option.Rel Path.Respells p.file q.file
  line : p.line = q.line
  column : p.column = q.column

theorem Position.Respells.refl (p : Position) : p.Respells p := by
  refine ⟨?_, rfl, rfl⟩
  cases p.file with
  | none => exact .none
  | some f => exact .some (.refl f)

/-- The same cursor at a position that may be spelled otherwise. -/
structure Cursor.Respells (c d : Cursor) : Prop where
  position : c.position.Respells d.position
  same : d = { c with position := d.position }

theorem Cursor.Respells.refl (c : Cursor) : c.Respells c := ⟨.refl _, rfl⟩

/-- A change that leaves the position alone and does not look at it. -/
theorem Cursor.Respells.map {c d : Cursor} (h : c.Respells d) {f : Cursor → Cursor}
    (hf : ∀ c position, f { c with position } = { f c with position })
    (hposition : ∀ c, (f c).position = c.position) : (f c).Respells (f d) := by
  refine ⟨?_, ?_⟩
  · rw [hposition, hposition]
    exact h.position
  · rw [hposition]
    have := hf c d.position
    rw [← h.same] at this
    exact this

namespace TranslationUnit

/-- The same unit, where files in positions may be spelled otherwise. -/
structure Respells (u v : TranslationUnit) : Prop where
  mainFile : u.mainFile = v.mainFile
  inclusions : u.inclusions = v.inclusions
  size : u.size = v.size
  cursor : ∀ i, (u.cursor i).Respells (v.cursor i)

variable {u v : TranslationUnit}

theorem Respells.refl (u : TranslationUnit) : u.Respells u := ⟨rfl, rfl, rfl, fun _ => .refl _⟩

theorem Respells.kind (h : u.Respells v) (i : Nat) : v.kind i = u.kind i := by
  rw [TranslationUnit.kind, (h.cursor i).same]
  rfl

theorem Respells.spelling (h : u.Respells v) (i : Nat) : v.spelling i = u.spelling i := by
  rw [TranslationUnit.spelling, (h.cursor i).same]
  rfl

theorem Respells.referenced (h : u.Respells v) (i : Nat) : v.referenced i = u.referenced i := by
  rw [TranslationUnit.referenced, (h.cursor i).same]
  rfl

theorem Respells.isDefinition (h : u.Respells v) (i : Nat) :
    v.isDefinition i = u.isDefinition i := by
  rw [TranslationUnit.isDefinition, (h.cursor i).same]
  rfl

theorem Respells.push (h : u.Respells v) (p : Nat) {c d : Cursor} (hc : c.Respells d) :
    (u.push p c).Respells (v.push p d) where
  mainFile := h.mainFile
  inclusions := h.inclusions
  size := by
    show (u.cursors.push _).size = (v.cursors.push _).size
    rw [Array.size_push, Array.size_push]
    exact congrArg (· + 1) h.size
  cursor i := by
    rw [cursor_push_eq, cursor_push_eq, h.size]
    split
    · exact hc.map (f := fun c => { c with parent := some p }) (fun _ _ => rfl) (fun _ => rfl)
    · exact h.cursor i

theorem Respells.modify (h : u.Respells v) (j : Nat) {f : Cursor → Cursor}
    (hf : ∀ c position, f { c with position } = { f c with position })
    (hposition : ∀ c, (f c).position = c.position) : (u.modify j f).Respells (v.modify j f) where
  mainFile := h.mainFile
  inclusions := h.inclusions
  size := by
    show (u.cursors.modify j f).size = (v.cursors.modify j f).size
    rw [Array.size_modify, Array.size_modify]
    exact h.size
  cursor i := by
    rw [cursor_modify_eq, cursor_modify_eq, h.size]
    split
    · exact (h.cursor i).map hf hposition
    · exact h.cursor i

theorem Respells.addInclusion (h : u.Respells v) (path : Path) (depth : Nat) :
    (u.addInclusion path depth).Respells (v.addInclusion path depth) where
  mainFile := h.mainFile
  inclusions := by rw [TranslationUnit.addInclusion, TranslationUnit.addInclusion, h.inclusions]
  size := h.size
  cursor := h.cursor

end TranslationUnit

/-- The same expansion at a position that may be spelled otherwise. -/
structure Expansion.Respells (e e' : Expansion) : Prop where
  position : e.position.Respells e'.position
  name : e.name = e'.name
  definition : e.definition = e'.definition

namespace Lowering

/-- The same state, where files in positions may be spelled otherwise. -/
structure Respells (s t : Lowering) : Prop where
  unit : s.unit.Respells t.unit
  expansions : List.Forall₂ Expansion.Respells s.expansions.toList t.expansions.toList
  rest : t = { s with unit := t.unit, expansions := t.expansions }

variable {s t : Lowering}

namespace Respells

theorem scopes (h : s.Respells t) : t.scopes = s.scopes := by rw [h.rest]

theorem memberScopes (h : s.Respells t) : t.memberScopes = s.memberScopes := by rw [h.rest]

theorem macros (h : s.Respells t) : t.macros = s.macros := by rw [h.rest]

theorem included (h : s.Respells t) : t.included = s.included := by rw [h.rest]

theorem types (h : s.Respells t) : t.types = s.types := by rw [h.rest]

/-- The unit changes on both sides. -/
theorem withUnit (h : s.Respells t) {u v : TranslationUnit} (hu : u.Respells v) :
    Respells { s with unit := u } { t with unit := v } :=
  ⟨hu, h.expansions, congrArg (fun t : Lowering => { t with unit := v }) h.rest⟩

/-- Something else than the unit and the expansions changes, on both sides alike. -/
theorem change (h : s.Respells t) {f : Lowering → Lowering}
    (hunit : ∀ s, (f s).unit = s.unit) (hexpansions : ∀ s, (f s).expansions = s.expansions)
    (hf : ∀ s unit expansions, f { s with unit, expansions } = { f s with unit, expansions }) :
    (f s).Respells (f t) := by
  refine ⟨?_, ?_, ?_⟩
  · rw [hunit, hunit]
    exact h.unit
  · rw [hexpansions, hexpansions]
    exact h.expansions
  · rw [hunit, hexpansions]
    have := hf s t.unit t.expansions
    rwa [← h.rest] at this

end Respells

theorem position_respelled {here : Here} {q : Path} (hq : here.source.path.Respells q)
    (token : SyntaxNode) : (here.source.position token).Respells
      ((here.respelled q).source.position token) :=
  ⟨.some hq, rfl, rfl⟩

theorem addExpansion_respelled ⦃u v : TranslationUnit⦄ (h : u.Respells v) ⦃e e' : Expansion⦄
    (he : e.Respells e') : (addExpansion u e).Respells (addExpansion v e') := by
  unfold addExpansion
  rw [← he.name, ← he.definition]
  exact h.push 0 ⟨he.position, rfl⟩

/-- **What a lowering does is the same under another spelling.** -/
theorem paired_respells : Paired Lowering.Respells Path.Respells where
  push {here q} hq kind spelling token isDefinition displayName := fun s t h =>
    ⟨h.unit.size, h.withUnit (h.unit.push here.parent ⟨position_respelled hq token, rfl⟩)⟩
  openScope parent record := fun s t h => by
    refine ⟨congrArg Scopes.size h.scopes.symm, ?_⟩
    exact h.change (f := fun s => { s with scopes := s.scopes.openIn parent record })
      (fun _ => rfl) (fun _ => rfl) fun _ _ _ => rfl
  setMembers cursor scope := .modify fun s t h =>
    h.change (f := fun s => { s with memberScopes := (cursor, scope) :: s.memberScopes })
      (fun _ => rfl) (fun _ => rfl) fun _ _ _ => rfl
  declare scope name cursor := .modify fun s t h => by
    have htakes : ∀ old, takesOver t.unit old cursor = takesOver s.unit old cursor := fun old => by
      rw [takesOver, takesOver, h.unit.kind, h.unit.isDefinition, h.unit.isDefinition]
    have hbind := h.change (f := fun u => { u with scopes := s.scopes.bind scope name cursor })
      (fun _ => rfl) (fun _ => rfl) fun _ _ _ => rfl
    simp only [h.scopes, htakes]
    split
    · exact h
    · split
      · exact hbind
      · split
        · exact hbind
        · exact h
  addSite cursor name scope binding := .modify fun s t h =>
    h.change (f := fun s => { s with sites := s.sites.push { cursor, name, scope, binding } })
      (fun _ => rfl) (fun _ => rfl) fun _ _ _ => rfl
  addForward cursor name scope := .modify fun s t h =>
    h.change (f := fun s => { s with forwards := s.forwards.push { cursor, name, scope } })
      (fun _ => rfl) (fun _ => rfl) fun _ _ _ => rfl
  setType cursor hint := by
    cases hint with
    | none => exact .pure _
    | some hint =>
      exact .modify fun s t h =>
        h.change (f := fun s => { s with types := (cursor, hint) :: s.types })
          (fun _ => rfl) (fun _ => rfl) fun _ _ _ => rfl
  expandIfMacro {here q} hq name token := fun s t h => by
    have hlookup : t.macros.lookup name = s.macros.lookup name := by rw [h.macros]
    rw [run_expandIfMacro, run_expandIfMacro, hlookup]
    cases s.macros.lookup name with
    | none => exact ⟨rfl, h⟩
    | some definition =>
      refine ⟨rfl, h.unit, ?_, ?_⟩
      · show List.Forall₂ _ (s.expansions.push _).toList (t.expansions.push _).toList
        rw [Array.toList_push, Array.toList_push]
        exact List.rel_append h.expansions
          (.cons ⟨position_respelled hq token, rfl, rfl⟩ .nil)
      · exact congrArg (fun u : Lowering => { u with
          expansions := t.expansions.push
            { position := (here.respelled q).source.position token, name, definition } }) h.rest
  flushExpansions := .modify fun s t h => by
    refine ⟨?_, .nil, congrArg (fun u : Lowering => { u with
      unit := t.expansions.foldl addExpansion t.unit, expansions := #[] }) h.rest⟩
    show (s.expansions.foldl addExpansion s.unit).Respells (t.expansions.foldl addExpansion t.unit)
    rw [← Array.foldl_toList, ← Array.foldl_toList]
    exact List.rel_foldl addExpansion_respelled h.unit h.expansions
  enter header depth := fun s t h => by
    have hrun : ∀ s : Lowering, (Headers.enter header depth).run s =
        if s.included.contains header then (false, s)
        else (true, { s with
          included := header :: s.included
          unit := s.unit.addInclusion header depth }) := fun _ => rfl
    rw [hrun, hrun, h.included]
    split
    · exact ⟨rfl, h⟩
    · refine ⟨rfl, h.unit.addInclusion header depth, h.expansions, ?_⟩
      exact congrArg (fun u : Lowering => { u with
        included := header :: s.included, unit := t.unit.addInclusion header depth }) h.rest
  own id owner s t h :=
    h.withUnit (h.unit.modify id (fun _ _ => rfl) fun _ => rfl)
  setMacros macros s t h :=
    h.change (f := fun s => { s with macros }) (fun _ => rfl) (fun _ => rfl) fun _ _ _ => rfl
  scopes h := h.scopes
  memberScopes h := h.memberScopes
  macros h := h.macros
  kind h i := h.unit.kind i
  spelling h i := h.unit.spelling i

/-! ## Binding -/

namespace Respells

theorem owner? (h : s.Respells t) (scope : Nat) (path : List String) :
    t.owner? scope path = s.owner? scope path := by
  cases path with
  | nil => rfl
  | cons first rest => rw [Lowering.owner?, Lowering.owner?, h.scopes, h.memberScopes]

theorem qualifiedScope? (h : s.Respells t) (scope : Nat) (path : List String) :
    t.qualifiedScope? scope path = s.qualifiedScope? scope path := by
  rw [Lowering.qualifiedScope?, Lowering.qualifiedScope?, h.owner?, h.memberScopes]

theorem hintScope? (h : s.Respells t) (n : Nat) (hint : TypeHint) :
    t.hintScope? n hint = s.hintScope? n hint := by
  induction n generalizing hint with
  | zero => rfl
  | succ n ih =>
    have hrest : t.hintScope? n = s.hintScope? n := funext ih
    simp only [Lowering.hintScope?, h.scopes, h.memberScopes, h.types, h.unit.kind, hrest]

theorem member? (h : s.Respells t) (base : Option Nat) (name : String) :
    t.member? base name = s.member? base name := by
  have hreferenced : t.unit.referenced = s.unit.referenced := funext h.unit.referenced
  have hhint : t.hintScope? maxAliases = s.hintScope? maxAliases := funext (h.hintScope? _)
  simp only [Lowering.member?, Lowering.recordScope?, h.scopes, h.types, hreferenced, hhint]

/-- Uses are bound to the same declarations. -/
theorem target? (h : s.Respells t) (site : UseSite) : t.target? site = s.target? site := by
  unfold Lowering.target?
  cases site.binding with
  | lexical => simp only [h.scopes]
  | qualified path => simp only [h.qualifiedScope?, h.scopes]
  | member base => exact h.member? base site.name

theorem bindSite (h : s.Respells t) (site : UseSite) :
    (s.bindSite site).Respells (t.bindSite site) := by
  unfold Lowering.bindSite
  rw [h.target?]
  cases s.target? site with
  | none => exact h.withUnit (h.unit.modify _ (fun _ _ => rfl) fun _ => rfl)
  | some target =>
    simp only [h.unit.kind]
    exact h.withUnit (h.unit.modify _ (fun _ _ => rfl) fun _ => rfl)

theorem linkForward (h : s.Respells t) (f : Forward) :
    (s.linkForward f).Respells (t.linkForward f) := by
  have hlookup : t.scopes.lookup f.scope f.name = s.scopes.lookup f.scope f.name := by rw [h.scopes]
  unfold Lowering.linkForward
  simp only [hlookup, h.unit.kind, h.unit.isDefinition]
  exact h.withUnit (h.unit.modify _ (fun _ _ => rfl) fun _ => rfl)

theorem bindAll (h : s.Respells t) : s.bindAll.Respells t.bindAll := by
  have hsites : t.sites = s.sites := by rw [h.rest]
  have hforwards : t.forwards = s.forwards := by rw [h.rest]
  have hbound : (s.sites.foldl Lowering.bindSite s).Respells
      (t.sites.foldl Lowering.bindSite t) := by
    rw [hsites]
    exact Array.foldl_rel h fun site _ _ _ h => h.bindSite site
  unfold Lowering.bindAll
  rw [hforwards]
  exact Array.foldl_rel hbound fun f _ _ _ h => h.linkForward f

end Respells

end Lowering

/-- **Headers that are the same but for the spelling of their paths make units that are the same
    but for the spelling of files.** -/
theorem TranslationUnit.respells_ofSource {headers headers' : Headers}
    (h : Headers.Alike Path.Respells headers headers') (main : Source) :
    (ofSource headers main).Respells (ofSource headers' main) := by
  have hinit : Lowering.Respells (.init main.path (headers.files.canonicalPath main.path))
      (.init main.path (headers'.files.canonicalPath main.path)) := by
    rw [h.files]
    exact ⟨.refl _, .nil, rfl⟩
  exact (Lowering.paired_respells.collect h main (.refl main.path) hinit).bindAll.unit

end SymbolAtlas
