import SymbolAtlas.Proofs.LoweringChanges

/-!
# Lowerings side by side

Which changes a lowering makes, in what order and with what arguments, depends on the syntax trees
and the headers, and on what the state tells of names and kinds.  So two lowerings of the same trees
go the same way, as long as their states tell the same.  What a step of a lowering does is said of
two lowerings at once: they hand back the same, their states correspond behind the step, and the
first one has made nothing but changes of `Lowering.Step`.

* `Paired` — each of the changes leads from states that correspond to states that correspond, also
  where the two read files whose paths are spelled differently.
* `Steady` — each of the changes keeps a property; the case of two lowerings that are one.
* `Lowering.Fact` — what stays true as a lowering goes on, such as that a cursor was made.
* `Lockstep.Alike` — the two steps agree, wherever a fact is known.

Principal results: `Lockstep.push`, `.use`, `.declare` and the like — each change is made alike, and
leaves its fact behind.
-/

set_option autoImplicit false

namespace SymbolAtlas

namespace Lower

/-- From states that correspond the two steps hand back the same, and the states behind still
    correspond. -/
def Agree {α : Type} (R : Lowering → Lowering → Prop) (m m' : Lower α) : Prop :=
  ∀ s s', R s s' → (m.run s).1 = (m'.run s').1 ∧ R (m.run s).2 (m'.run s').2

variable {R : Lowering → Lowering → Prop} {α : Type}

theorem Agree.pure (a : α) : Agree R (Pure.pure a : Lower α) (Pure.pure a) := fun _ _ h => ⟨rfl, h⟩

theorem Agree.modify {f f' : Lowering → Lowering} (h : ∀ s s', R s s' → R (f s) (f' s')) :
    Agree R (modify f : Lower Unit) (modify f') := fun s s' hs => ⟨rfl, h s s' hs⟩

/-- The step keeps a property of the state, whatever it hands back. -/
def Keeps (I : Lowering → Prop) (m : Lower α) : Prop := ∀ s, I s → I (m.run s).2

variable {I : Lowering → Prop}

theorem Keeps.pure (a : α) : Keeps I (Pure.pure a : Lower α) := fun _ hs => hs

theorem Keeps.modify {f : Lowering → Lowering} (h : ∀ s, I s → I (f s)) :
    Keeps I (modify f : Lower Unit) := h

theorem Keeps.modifyGet {f : Lowering → α × Lowering} (h : ∀ s, I s → I (f s).2) :
    Keeps I (modifyGet f : Lower α) := h

/-- One state with the property, seen as two. -/
def Same (I : Lowering → Prop) (s s' : Lowering) : Prop := s' = s ∧ I s

/-- To keep a property is to agree with oneself. -/
theorem agree_same_iff {m : Lower α} : Agree (Same I) m m ↔ Keeps I m := by
  constructor
  · exact fun h s hs => (h s s ⟨rfl, hs⟩).2.2
  · intro h s s' hss'
    obtain ⟨heq, hs⟩ := hss'
    rw [heq]
    exact ⟨rfl, rfl, h s hs⟩

end Lower

/-- The same place in a file whose path is spelled otherwise. -/
def Here.respelled (here : Here) (path : Path) : Here :=
  { here with source := { here.source with path } }

namespace Here

variable (here : Here) (path : Path)

@[simp] theorem spelling_respelled : (here.respelled path).spelling = here.spelling := rfl

@[simp] theorem scope_respelled : (here.respelled path).scope = here.scope := rfl

@[simp] theorem hasStorage_respelled (n : SyntaxNode) (keyword : String) :
    (here.respelled path).source.hasStorage n keyword = here.source.hasStorage n keyword := rfl

@[simp] theorem typeHint?_respelled :
    Lowering.typeHint? (here.respelled path) = Lowering.typeHint? here := rfl

end Here

/-- A name leaves an expansion if it is a macro, and nothing else. -/
theorem Lowering.run_expandIfMacro (here : Here) (name : String) (token : SyntaxNode)
    (s : Lowering) :
    (expandIfMacro here name token).run s =
      match s.macros.lookup name with
      | some definition =>
        (true, { s with
          expansions := s.expansions.push
            { position := here.source.position token, name, definition } })
      | none => (false, s) := rfl

open Lower (Agree Keeps)

/-- The changes that the steps of a lowering are made of agree on states that correspond, and such
    states tell the same of names and kinds.  The paths of the files that are read are paired. -/
structure Paired (R : Lowering → Lowering → Prop) (P : Path → Path → Prop) : Prop where
  push : ∀ {here : Here} {q : Path}, P here.source.path q →
    ∀ kind spelling token isDefinition displayName,
      Agree R (Lowering.push here kind spelling token isDefinition displayName)
        (Lowering.push (here.respelled q) kind spelling token isDefinition displayName)
  openScope : ∀ parent record,
    Agree R (Lowering.openScope parent record) (Lowering.openScope parent record)
  setMembers : ∀ cursor scope,
    Agree R (Lowering.setMembers cursor scope) (Lowering.setMembers cursor scope)
  declare : ∀ scope name cursor,
    Agree R (Lowering.declare scope name cursor) (Lowering.declare scope name cursor)
  addSite : ∀ cursor name scope binding,
    Agree R (Lowering.addSite cursor name scope binding)
      (Lowering.addSite cursor name scope binding)
  addForward : ∀ cursor name scope,
    Agree R (Lowering.addForward cursor name scope) (Lowering.addForward cursor name scope)
  setType : ∀ cursor hint,
    Agree R (Lowering.setType cursor hint) (Lowering.setType cursor hint)
  expandIfMacro : ∀ {here : Here} {q : Path}, P here.source.path q → ∀ name token,
    Agree R (Lowering.expandIfMacro here name token)
      (Lowering.expandIfMacro (here.respelled q) name token)
  flushExpansions : Agree R Lowering.flushExpansions Lowering.flushExpansions
  enter : ∀ header depth, Agree R (Headers.enter header depth) (Headers.enter header depth)
  /-- A function gets its owner. -/
  own : ∀ id owner s s', R s s' →
    R { s with unit := s.unit.modify id fun f =>
        { f with semanticParent := owner <|> f.semanticParent } }
      { s' with unit := s'.unit.modify id fun f =>
        { f with semanticParent := owner <|> f.semanticParent } }
  /-- A macro is defined or undefined. -/
  setMacros : ∀ macros s s', R s s' → R { s with macros } { s' with macros }
  scopes : ∀ {s s'}, R s s' → s'.scopes = s.scopes
  memberScopes : ∀ {s s'}, R s s' → s'.memberScopes = s.memberScopes
  macros : ∀ {s s'}, R s s' → s'.macros = s.macros
  kind : ∀ {s s'}, R s s' → ∀ i, s'.unit.kind i = s.unit.kind i
  spelling : ∀ {s s'}, R s s' → ∀ i, s'.unit.spelling i = s.unit.spelling i

/-- The same headers are found, and read under paths that are paired. -/
structure Headers.Alike (P : Path → Path → Prop) (headers headers' : Headers) : Prop where
  files : headers'.files = headers.files
  find : ∀ name quoted {p q}, P p q → headers'.find? name quoted q = headers.find? name quoted p
  load : ∀ {name quoted origin header}, headers.find? name quoted origin = some header →
    (headers.load header = none ∧ headers'.load header = none) ∨
      ∃ source q, headers.load header = some source ∧
        headers'.load header = some { source with path := q } ∧ P source.path q

theorem Headers.Alike.refl (headers : Headers) : Headers.Alike Eq headers headers where
  files := rfl
  find _ _ _ _ h := by rw [h]
  load {_ _ _ header} _ := by
    cases headers.load header with
    | none => exact .inl ⟨rfl, rfl⟩
    | some source => exact .inr ⟨source, _, rfl, rfl, rfl⟩

/-! ## One lowering -/

/-- Every change that the steps of a lowering are made of keeps the property. -/
structure Steady (I : Lowering → Prop) : Prop where
  push : ∀ here kind spelling token isDefinition displayName,
    Keeps I (Lowering.push here kind spelling token isDefinition displayName)
  openScope : ∀ parent record, Keeps I (Lowering.openScope parent record)
  setMembers : ∀ cursor scope, Keeps I (Lowering.setMembers cursor scope)
  declare : ∀ scope name cursor, Keeps I (Lowering.declare scope name cursor)
  addSite : ∀ cursor name scope binding, Keeps I (Lowering.addSite cursor name scope binding)
  addForward : ∀ cursor name scope, Keeps I (Lowering.addForward cursor name scope)
  setType : ∀ cursor hint, Keeps I (Lowering.setType cursor hint)
  expandIfMacro : ∀ here name token, Keeps I (Lowering.expandIfMacro here name token)
  flushExpansions : Keeps I Lowering.flushExpansions
  enter : ∀ header depth, Keeps I (Headers.enter header depth)
  /-- A function gets its owner. -/
  own : ∀ id owner s, I s → I { s with unit := s.unit.modify id fun f =>
    { f with semanticParent := owner <|> f.semanticParent } }
  /-- A macro is defined or undefined. -/
  setMacros : ∀ macros s, I s → I { s with macros }

namespace Steady

open Lower (Same agree_same_iff)

variable {I : Lowering → Prop}

/-- What each change keeps, it keeps of a lowering that is seen as two. -/
theorem paired (hI : Steady I) : Paired (Same I) Eq where
  push {here _} hq kind spelling token isDefinition displayName := by
    subst hq
    exact agree_same_iff.mpr (hI.push here kind spelling token isDefinition displayName)
  openScope parent record := agree_same_iff.mpr (hI.openScope parent record)
  setMembers cursor scope := agree_same_iff.mpr (hI.setMembers cursor scope)
  declare scope name cursor := agree_same_iff.mpr (hI.declare scope name cursor)
  addSite cursor name scope binding := agree_same_iff.mpr (hI.addSite cursor name scope binding)
  addForward cursor name scope := agree_same_iff.mpr (hI.addForward cursor name scope)
  setType cursor hint := agree_same_iff.mpr (hI.setType cursor hint)
  expandIfMacro {here _} hq name token := by
    subst hq
    exact agree_same_iff.mpr (hI.expandIfMacro here name token)
  flushExpansions := agree_same_iff.mpr hI.flushExpansions
  enter header depth := agree_same_iff.mpr (hI.enter header depth)
  own id owner s _ hs := by
    obtain ⟨rfl, h⟩ := hs
    exact ⟨rfl, hI.own id owner _ h⟩
  setMacros macros s _ hs := by
    obtain ⟨rfl, h⟩ := hs
    exact ⟨rfl, hI.setMacros macros _ h⟩
  scopes hs := by rw [hs.1]
  memberScopes hs := by rw [hs.1]
  macros hs := by rw [hs.1]
  kind hs i := by rw [hs.1]
  spelling hs i := by rw [hs.1]

end Steady

/-! ## Facts -/

namespace Lowering

/-- What stays true as a lowering goes on. -/
structure Fact where
  Holds : Lowering → Prop
  stays : ∀ {s t : Lowering}, s.Grows t → Holds s → Holds t

namespace Fact

/-- Nothing in particular. -/
def always : Fact := ⟨fun _ => True, fun _ h => h⟩

/-- Both facts. -/
def and (K L : Fact) : Fact :=
  ⟨fun s => K.Holds s ∧ L.Holds s, fun hgrows h => ⟨K.stays hgrows h.1, L.stays hgrows h.2⟩⟩

/-- The cursor with a number was made, with this kind and name. -/
def made (id : Nat) (kind : CursorKind) (name : String) (isDefinition : Bool) : Fact :=
  ⟨fun s => s.unit.Has id kind name isDefinition, fun hgrows h => hgrows.unit.has h⟩

/-- Cursors may be put below the cursor with a number. -/
def receives (id : Nat) : Fact :=
  ⟨fun s => s.unit.Receives id, fun hgrows h => hgrows.unit.receives h⟩

/-- The one fact tells the other. -/
def Gives (K L : Fact) : Prop := ∀ s, K.Holds s → L.Holds s

variable {K L M : Fact}

theorem Gives.left (h : K.Gives M) : (K.and L).Gives M := fun s hs => h s hs.1

theorem Gives.right (h : L.Gives M) : (K.and L).Gives M := fun s hs => h s hs.2

theorem gives_self (K : Fact) : K.Gives K := fun _ hs => hs

theorem made_gives_receives {kind : CursorKind} {isDefinition : Bool} (id : Nat) (name : String)
    (h : Category.ofCursor kind isDefinition ≠ .reference) :
    (made id kind name isDefinition).Gives (receives id) :=
  fun _ hs => hs.receives h

end Fact

end Lowering

open Lowering (Fact OpenFile Change Reaches)

/-! ## Two lowerings -/

/-- Two lowerings of a unit whose states correspond. -/
structure Lockstep where
  headers : Headers
  headers' : Headers
  R : Lowering → Lowering → Prop
  P : Path → Path → Prop
  paired : Paired R P

namespace Lockstep

variable {W : Lockstep} {file : OpenFile} {K L : Fact} {α β : Type} {Q : α → Fact} {Q' : β → Fact}

/-- The first lowering stands at a place in an open file, below a cursor that may receive others,
    and the second one at the same place. -/
structure Stands (W : Lockstep) (file : OpenFile) (K : Fact) (here : Here) (q : Path) : Prop where
  path : W.P here.source.path q
  source : here.source = file.source
  depth : here.depth = file.depth
  receives : K.Gives (.receives here.parent)

namespace Stands

variable {here : Here} {q : Path}

/-- More may be known. -/
theorem of (h : W.Stands file K here q) (hL : L.Gives K) : W.Stands file L here q :=
  ⟨h.path, h.source, h.depth, fun s hs => h.receives s (hL s hs)⟩

theorem also (h : W.Stands file K here q) : W.Stands file (K.and L) here q :=
  h.of (Fact.gives_self K).left

theorem under (h : W.Stands file K here q) {id : Nat} (hid : L.Gives (.receives id)) :
    W.Stands file (K.and L) (here.under id) q :=
  ⟨h.path, h.source, h.depth, hid.right⟩

theorem within (h : W.Stands file K here q) {id : Nat} (hid : L.Gives (.receives id))
    (scope : Nat) : W.Stands file (K.and L) (here.within id scope) q :=
  ⟨h.path, h.source, h.depth, hid.right⟩

end Stands

/-- How two steps end: they hand back the same, the states behind correspond, and the first step
    is a run of the lowering of the file, behind which `Q` is known of the result. -/
structure Ends (W : Lockstep) (file : OpenFile) (Q : α → Fact) (s : Lowering)
    (x x' : α × Lowering) : Prop where
  result : x.1 = x'.1
  states : W.R x.2 x'.2
  reaches : Reaches W.headers file s x.2
  known : (Q x.1).Holds x.2

/-- The two steps do the same wherever `K` is known, and `Q` is known of the result then. -/
def Alike (W : Lockstep) (file : OpenFile) (K : Fact) (m m' : Lower α)
    (Q : α → Fact := fun _ => .always) : Prop :=
  ∀ s s', W.R s s' → K.Holds s → W.Ends file Q s (m.run s) (m'.run s')

namespace Alike

theorem pureOf {a : α} (h : K.Gives (Q a)) :
    W.Alike file K (Pure.pure a : Lower α) (Pure.pure a) Q :=
  fun s _ hs hK => ⟨rfl, hs, .refl s, h s hK⟩

theorem pure (a : α) : W.Alike file K (Pure.pure a : Lower α) (Pure.pure a) :=
  .pureOf fun _ _ => trivial

/-- What is known of the first result is known in the step after it. -/
theorem bind {m m' : Lower α} {f f' : α → Lower β} (hm : W.Alike file K m m' Q)
    (hf : ∀ a, W.Alike file (K.and (Q a)) (f a) (f' a) Q') :
    W.Alike file K (m >>= f) (m' >>= f') Q' := by
  intro s s' hs hK
  have hfirst := hm s s' hs hK
  have hrest := hf (m.run s).1 _ _ hfirst.states ⟨K.stays hfirst.reaches.1 hK, hfirst.known⟩
  show W.Ends file Q' s ((f (m.run s).1).run (m.run s).2)
    ((f' (m'.run s').1).run (m'.run s').2)
  rw [← hfirst.result]
  exact ⟨hrest.result, hrest.states, hfirst.reaches.trans hrest.reaches, hrest.known⟩

/-- Less is asked for, or less is claimed. -/
theorem weaken {m m' : Lower α} {R : α → Fact} (h : W.Alike file K m m' Q) (hK : L.Gives K)
    (hQ : ∀ a, (Q a).Gives (R a)) : W.Alike file L m m' R := by
  intro s s' hs hL
  have hends := h s s' hs (hK s hL)
  exact ⟨hends.result, hends.states, hends.reaches, hQ _ _ hends.known⟩

/-- Nothing is known of the first result. -/
theorem seq {m m' : Lower α} {f f' : α → Lower β} (hm : W.Alike file K m m')
    (hf : ∀ a, W.Alike file K (f a) (f' a) Q') : W.Alike file K (m >>= f) (m' >>= f') Q' :=
  hm.bind fun a => (hf a).weaken (Fact.gives_self K).left fun _ => Fact.gives_self _

/-- What a step reads of the state may differ, as long as it does the same with it. -/
theorem read {f f' : Lowering → Lower β}
    (h : ∀ s s', W.R s s' → W.Alike file K (f s) (f' s') Q') :
    W.Alike file K (get >>= f) (get >>= f') Q' :=
  fun s s' hs hK => h s s' hs s s' hs hK

theorem discard {m m' : Lower α} (hm : W.Alike file K m m' Q) :
    W.Alike file K (discard m) (discard m') := by
  intro s s' hs hK
  have hends := hm s s' hs hK
  exact ⟨rfl, hends.states, hends.reaches, trivial⟩

theorem forM {f f' : α → Lower PUnit} {l : List α}
    (h : ∀ a ∈ l, W.Alike file K (f a) (f' a)) :
    W.Alike file K (l.forM f) (l.forM f') := by
  induction l with
  | nil => exact .pure _
  | cons a l ih =>
    exact (h a List.mem_cons_self).seq fun _ => ih fun b hb => h b (List.mem_cons_of_mem a hb)

theorem foldlM {f f' : β → α → Lower β} {l : List α} {b : β} (hb : K.Gives (Q' b))
    (h : ∀ b, ∀ a ∈ l, ∀ L : Fact, L.Gives K → L.Gives (Q' b) →
      W.Alike file L (f b a) (f' b a) Q') :
    W.Alike file K (l.foldlM f b) (l.foldlM f' b) Q' := by
  induction l generalizing b K with
  | nil => exact .pureOf hb
  | cons a l ih =>
    refine (h b a List.mem_cons_self K (Fact.gives_self K) hb).bind fun c => ?_
    exact ih (Fact.gives_self _).right fun b x hx L hL hb =>
      h b x (List.mem_cons_of_mem a hx) L (fun s hs => (hL s hs).1) hb

theorem ite {c : Prop} [Decidable c] {m m' k k' : Lower α} (hm : W.Alike file K m m' Q)
    (hk : W.Alike file K k k' Q) :
    W.Alike file K (if c then m else k) (if c then m' else k') Q := by
  split
  · exact hm
  · exact hk

/-- Steps that agree, the first of which is a run of the lowering. -/
theorem ofAgree {m m' : Lower α} (hagree : Agree W.R m m')
    (hreaches : ∀ s, K.Holds s → Reaches W.headers file s (m.run s).2)
    (hknown : ∀ s, K.Holds s → (Q (m.run s).1).Holds (m.run s).2) :
    W.Alike file K m m' Q := by
  intro s s' hs hK
  obtain ⟨hresult, hstates⟩ := hagree s s' hs
  exact ⟨hresult, hstates, hreaches s hK, hknown s hK⟩

/-- A single change, of whose result nothing is known. -/
theorem ofChange {m m' : Lower α} (hagree : Agree W.R m m')
    (hchange : ∀ s, K.Holds s → Change file s (m.run s).2) : W.Alike file K m m' :=
  .ofAgree hagree (fun s hs => .change (hchange s hs)) fun _ _ => trivial

end Alike

end Lockstep

/-- A steady property makes two lowerings out of one. -/
def Steady.lockstep {I : Lowering → Prop} (hI : Steady I) (headers headers' : Headers) : Lockstep :=
  ⟨headers, headers', Lower.Same I, Eq, hI.paired⟩

/-- Nothing in particular is kept by all changes. -/
theorem Steady.always : Steady fun _ => True where
  push _ _ _ _ _ _ := fun _ _ => trivial
  openScope _ _ := fun _ _ => trivial
  setMembers _ _ := fun _ _ => trivial
  declare _ _ _ := fun _ _ => trivial
  addSite _ _ _ _ := fun _ _ => trivial
  addForward _ _ _ := fun _ _ => trivial
  setType _ _ := fun _ _ => trivial
  expandIfMacro _ _ _ := fun _ _ => trivial
  flushExpansions := fun _ _ => trivial
  enter _ _ := fun _ _ => trivial
  own _ _ _ _ := trivial
  setMacros _ _ _ := trivial

/-! ## The changes -/

namespace Lockstep

variable {W : Lockstep} {file : OpenFile} {K : Fact} {α : Type} {Q : α → Fact} {here : Here}
  {q : Path}

theorem push (h : W.Stands file K here q) {kind : CursorKind} {name : String}
    {token : SyntaxNode} (isDefinition : Bool) (displayName : Option String)
    (hkind : kind.isOwn = true) (hbody : kind.isRecord = true → isDefinition = true)
    (hname : name = here.spelling token ∨ name = "" ∨ kind = .callExpr) :
    W.Alike file K (Lowering.push here kind name token isDefinition displayName)
      (Lowering.push (here.respelled q) kind name token isDefinition displayName)
      fun id => .made id kind name isDefinition := by
  refine .ofAgree (W.paired.push h.path _ _ _ _ _) (fun s hs => .change ?_)
    fun s _ => s.unit.has_push here.parent _
  rw [Here.spelling, h.source] at hname
  have hchange : Change file s _ :=
    .push token isDefinition displayName (h.receives s hs) hkind hbody hname
  rw [← h.source] at hchange
  exact hchange

/-- A use is put at a token and left to be bound; then its cursor is handed on. -/
theorem useThen (h : W.Stands file K here q) {kind : CursorKind} {token : SyntaxNode} {scope : Nat}
    {binding : Binding} {f f' : Nat → Lower α} (hkind : kind.isReference = true)
    (hnotMacro : kind ≠ .macroExpansion) (hf : ∀ id, W.Alike file K (f id) (f' id) Q) :
    W.Alike file K
      (do
        let id ← Lowering.push here kind (here.spelling token) token false
        Lowering.addSite id (here.spelling token) scope binding
        f id)
      (do
        let id ← Lowering.push (here.respelled q) kind (here.spelling token) token false
        Lowering.addSite id (here.spelling token) scope binding
        f' id) Q := by
  intro s s' hs hK
  obtain ⟨hid, hpushed⟩ := W.paired.push h.path kind (here.spelling token) token false none s s' hs
  obtain ⟨-, hused⟩ := W.paired.addSite s.unit.size (here.spelling token) scope binding _ _ hpushed
  have hchange : Change file s _ := .use token scope binding (h.receives s hK) hkind hnotMacro
  rw [← h.source] at hchange
  have hrest := hf s.unit.size _ _ hused (K.stays hchange.grows hK)
  generalize hpush : (Lowering.push (here.respelled q) kind (here.spelling token) token false).run
    s' = pushed at hid hrest
  have hsecond : StateT.run (do
      let id ← Lowering.push (here.respelled q) kind (here.spelling token) token false
      Lowering.addSite id (here.spelling token) scope binding
      f' id) s' =
      (f' pushed.1).run ((Lowering.addSite pushed.1 (here.spelling token) scope binding).run
        pushed.2).2 := by
    rw [← hpush]
    rfl
  rw [hsecond, ← hid]
  exact ⟨hrest.result, hrest.states, (Reaches.change hchange).trans hrest.reaches, hrest.known⟩

/-- A use is put at a token and left to be bound. -/
theorem use (h : W.Stands file K here q) {kind : CursorKind} {token : SyntaxNode} {scope : Nat}
    {binding : Binding} (hkind : kind.isReference = true) (hnotMacro : kind ≠ .macroExpansion) :
    W.Alike file K
      (do
        let id ← Lowering.push here kind (here.spelling token) token false
        Lowering.addSite id (here.spelling token) scope binding)
      (do
        let id ← Lowering.push (here.respelled q) kind (here.spelling token) token false
        Lowering.addSite id (here.spelling token) scope binding) := by
  have hnothing : ∀ _ : Nat, W.Alike file K (Pure.pure () : Lower Unit) (Pure.pure ()) :=
    fun _ => .pure ()
  exact useThen h hkind hnotMacro hnothing

/-- To declare a name is to bind it to the cursor, or nothing. -/
theorem reaches_declare {headers : Headers} {s : Lowering} {id : Nat} {kind : CursorKind}
    {name : String} {isDefinition : Bool} (scope : Nat) (hid : s.unit.Has id kind name isDefinition)
    (hkind : kind.isDeclaration = true) :
    Reaches headers file s ((Lowering.declare scope name id).run s).2 := by
  have hbind : ∀ free : Bool, Reaches headers file s
      (if free then { s with scopes := s.scopes.bind scope name id } else s) := fun free => by
    cases free with
    | true => exact .change (.bind scope hid hkind)
    | false => exact .refl s
  show Reaches headers file s (if name.isEmpty then s else _)
  split
  · exact .refl s
  · exact hbind _

theorem declare (scope : Nat) {id : Nat} {kind : CursorKind} {name : String} {isDefinition : Bool}
    (hid : K.Gives (.made id kind name isDefinition)) (hkind : kind.isDeclaration = true) :
    W.Alike file K (Lowering.declare scope name id) (Lowering.declare scope name id) :=
  .ofAgree (W.paired.declare scope name id) (fun s hs => reaches_declare scope (hid s hs) hkind)
    fun _ _ => trivial

/-- A cursor is put at the token that spells the name it declares. -/
theorem declareNamed (h : W.Stands file K here q) {kind : CursorKind} {token : SyntaxNode}
    (isDefinition : Bool) (hkind : kind.isDeclaration = true) (hrecord : kind.isRecord = false) :
    W.Alike file K (Descent.declareNamed here kind token isDefinition)
      (Descent.declareNamed (here.respelled q) kind token isDefinition)
      fun id => .made id kind (here.spelling token) isDefinition :=
  (push h isDefinition none (CursorKind.isOwn_of_isDeclaration hkind)
    (fun hr => by rw [hrecord] at hr; cases hr) (.inl rfl)).bind fun _ =>
    (declare here.scope (Fact.gives_self _).right hkind).seq fun _ =>
      .pureOf (Fact.gives_self _).right

/-- It does not matter whether a record is declared before or after it is left to wait. -/
theorem addForward_declare (scope : Nat) (name : String) (id : Nat) (s : Lowering) :
    ((Lowering.addForward id name scope).run ((Lowering.declare scope name id).run s).2).2 =
      ((Lowering.declare scope name id).run ((Lowering.addForward id name scope).run s).2).2 := by
  let add (s : Lowering) : Lowering :=
    { s with forwards := s.forwards.push { cursor := id, name, scope } }
  have hbind : ∀ free : Bool,
      add (if free then { s with scopes := s.scopes.bind scope name id } else s) =
        if free then { add s with scopes := s.scopes.bind scope name id } else add s :=
    fun free => by cases free <;> rfl
  show add (if name.isEmpty then s else _) = if name.isEmpty then add s else _
  split
  · rfl
  · exact hbind _

/-- A record without a body is put at its name, is declared, and waits for its definition. -/
theorem declareForward (h : W.Stands file K here q) {kind : CursorKind} (token : SyntaxNode)
    (hkind : kind.isRecord = true) :
    W.Alike file K
      (do
        let id ← Descent.declareNamed here kind token false
        Lowering.addForward id (here.spelling token) here.scope
        return some id)
      (do
        let id ← Descent.declareNamed (here.respelled q) kind token false
        Lowering.addForward id (here.spelling token) here.scope
        return some id) := by
  intro s s' hs hK
  obtain ⟨hid, hpushed⟩ := W.paired.push h.path kind (here.spelling token) token false none s s' hs
  obtain ⟨-, hdeclared⟩ :=
    W.paired.declare here.scope (here.spelling token) s.unit.size _ _ hpushed
  obtain ⟨-, hadded⟩ :=
    W.paired.addForward s.unit.size (here.spelling token) here.scope _ _ hdeclared
  generalize hpush : (Lowering.push (here.respelled q) kind (here.spelling token) token false).run
    s' = pushed' at hid hdeclared hadded
  have hsecond : StateT.run (do
      let id ← Descent.declareNamed (here.respelled q) kind token false
      Lowering.addForward id (here.spelling token) here.scope
      return some id) s' =
      (some pushed'.1, ((Lowering.addForward pushed'.1 (here.spelling token) here.scope).run
        ((Lowering.declare here.scope (here.spelling token) pushed'.1).run pushed'.2).2).2) := by
    rw [← hpush]
    rfl
  rw [hsecond, ← hid]
  refine ⟨rfl, hadded, ?_, trivial⟩
  let pushed := ((Lowering.push here kind (here.spelling token) token false).run s).2
  show Reaches W.headers file s ((Lowering.addForward s.unit.size (here.spelling token)
    here.scope).run ((Lowering.declare here.scope (here.spelling token) s.unit.size).run
      pushed).2).2
  rw [addForward_declare]
  have hchange : Change file s _ := .forward token here.scope (h.receives s hK) hkind
  rw [← h.source] at hchange
  exact (Reaches.change hchange).trans (reaches_declare here.scope
    (s.unit.has_push here.parent _) (CursorKind.isDeclaration_of_isRecord hkind))

theorem openScope (parent : Nat) (record : Option String) :
    W.Alike file K (Lowering.openScope parent record) (Lowering.openScope parent record) :=
  .ofChange (W.paired.openScope parent record) fun _ _ => .openScope parent record

theorem setMembers (cursor scope : Nat) :
    W.Alike file K (Lowering.setMembers cursor scope) (Lowering.setMembers cursor scope) :=
  .ofChange (W.paired.setMembers cursor scope) fun s _ => .note _ s.types

theorem setType (cursor : Nat) (hint : Option TypeHint) :
    W.Alike file K (Lowering.setType cursor hint) (Lowering.setType cursor hint) := by
  refine .ofAgree (W.paired.setType cursor hint) (fun s _ => ?_) fun _ _ => trivial
  cases hint with
  | none => exact .refl s
  | some hint => exact .change (.note s.memberScopes _)

theorem own (id : Nat) (owner : Option Nat) :
    W.Alike file K
      (modify fun s => { s with unit := s.unit.modify id fun f =>
        { f with semanticParent := owner <|> f.semanticParent } })
      (modify fun s => { s with unit := s.unit.modify id fun f =>
        { f with semanticParent := owner <|> f.semanticParent } }) :=
  .ofChange (.modify fun s s' hs => W.paired.own id owner s s' hs) fun _ _ => .own id owner

theorem expandIfMacro (h : W.Stands file K here q) (token : SyntaxNode) :
    W.Alike file K (Lowering.expandIfMacro here (here.spelling token) token)
      (Lowering.expandIfMacro (here.respelled q) (here.spelling token) token) := by
  refine .ofAgree (W.paired.expandIfMacro h.path _ _) (fun s hs => ?_) fun _ _ => trivial
  rw [Lowering.run_expandIfMacro]
  split
  · rename_i definition hdefined
    rw [Here.spelling, h.source] at hdefined
    have hchange : Change file s _ := .expand token hdefined
    rw [← h.source] at hchange
    exact .change hchange
  · exact .refl s

theorem flushExpansions : W.Alike file K Lowering.flushExpansions Lowering.flushExpansions :=
  .ofChange W.paired.flushExpansions fun _ _ => .flush

theorem typeReference (h : W.Stands file K here q) (token : SyntaxNode) :
    W.Alike file K (Descent.typeReference token here)
      (Descent.typeReference token (here.respelled q)) :=
  (expandIfMacro h token).seq fun _ => .ite (.pure _) (use h rfl (by decide))

theorem nameUse (h : W.Stands file K here q) (n : SyntaxNode) :
    W.Alike file K (Descent.nameUse n here) (Descent.nameUse n (here.respelled q)) :=
  (expandIfMacro h n).seq fun _ => .ite (.pure _) (useThen h rfl (by decide) fun _ => .pure _)

theorem macroDefinition (h : W.Stands file K here q) (n : SyntaxNode) :
    W.Alike file K (Descent.macroDefinition n here)
      (Descent.macroDefinition n (here.respelled q)) := by
  unfold Descent.macroDefinition
  cases n.child? .name with
  | none => exact .pure _
  | some token =>
    refine (push h true none rfl (fun _ => rfl) (.inl rfl)).bind fun id =>
      .ofChange (.modify fun s s' hs => ?_) fun s hs => .define hs.2
    rw [W.paired.macros hs]
    exact W.paired.setMacros _ s s' hs

theorem directive (n : SyntaxNode) :
    W.Alike file K (Descent.directive n here) (Descent.directive n (here.respelled q)) := by
  show W.Alike file K (Descent.directive n here) (Descent.directive n here)
  unfold Descent.directive
  simp only
  split
  · refine .ofChange (.modify fun s s' hs => ?_) fun _ _ => .undefine _
    rw [W.paired.macros hs]
    exact W.paired.setMacros _ s s' hs
  · exact .pure _

end Lockstep

end SymbolAtlas
