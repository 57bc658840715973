import SymbolAtlas.Proofs.LoweredUses
import SymbolAtlas.Proofs.MacroUses
import SymbolAtlas.Proofs.ScopeNesting

/-!
# Loop variables

A loop opens no scope.  Its variable is declared in the scope around the loop, and there the first
declaration of a name keeps it.  So inside a loop its name leads to the variable of that loop only
if nothing in the scope around it was declared under that name before.  Of two loops in one block
that run over the same name, the uses inside either one name the variable of the first.

* `Lowering.Holds` — a scope holds a name for a cursor, whatever is declared later.
* `Lowering.Vacant` — nothing holds a name in a scope so far.
* `LoopRun` — how the lowering of a loop goes: up to its variable, and from there on inside it.

Principal results: `Sound.referenced_of_lexical` — what a use names is what its name stands for in
the scope where it waits; `LoopRun.Goes.settles` — which cursor holds the name of a loop variable;
`loop_uses` — what the uses inside a loop name.
-/

set_option autoImplicit false

namespace SymbolAtlas

namespace Lowering

variable {s t : Lowering} {scope : Nat} {name : String} {id cursor : Nat}

/-! ## Names that are held -/

/-- The scope holds the name for the cursor: no later declaration takes the name over. -/
structure Holds (s : Lowering) (scope : Nat) (name : String) (id : Nat) : Prop where
  named : s.scopes.named? scope name = some id
  lt : id < s.unit.size
  body : (s.unit.kind id).isRecord = true → s.unit.isDefinition id = true

/-- A definition may have the name: it is not declared in the scope, or for a record without a body
    only.  A mere declaration may have it if it is not declared. -/
def Vacant (s : Lowering) (scope : Nat) (name : String) (isDefinition : Bool) : Prop :=
  ∀ old, s.scopes.named? scope name = some old →
    old < s.unit.size ∧ (s.unit.kind old).isRecord = true ∧ s.unit.isDefinition old = false ∧
      isDefinition = true

theorem Holds.of_grows (hs : s.Holds scope name id) (hgrows : s.unit.Grows t.unit)
    (hnamed : t.scopes.named? scope name = s.scopes.named? scope name) :
    t.Holds scope name id where
  named := hnamed.trans hs.named
  lt := Nat.lt_of_lt_of_le hs.lt hgrows.size
  body := by
    rw [hgrows.kind hs.lt, hgrows.isDefinition hs.lt]
    exact hs.body

/-- A declared name is not declared again, unless it is taken over. -/
theorem declare_run_of_held {old : Nat} (hold : s.scopes.named? scope name = some old)
    (hkept : takesOver s.unit old cursor = false) :
    ((declare scope name cursor).run s).2 = s := by
  show (if name.isEmpty then s else _) = s
  rw [hold]
  simp only [hkept]
  exact ite_self s

theorem declare_run_of_free (hname : name ≠ "")
    (hfree : ∀ old, s.scopes.named? scope name = some old → takesOver s.unit old cursor = true) :
    ((declare scope name cursor).run s).2 =
      { s with scopes := s.scopes.bind scope name cursor } := by
  show (if name.isEmpty then s else _) = _
  rw [if_neg (by simpa [String.isEmpty_iff] using hname)]
  cases hnamed : s.scopes.named? scope name with
  | none => rfl
  | some old =>
    simp only [hfree old hnamed]
    rfl

theorem Holds.takesOver (hs : s.Holds scope name id) (cursor : Nat) :
    takesOver s.unit id cursor = false := by
  unfold Lowering.takesOver
  cases hrecord : (s.unit.kind id).isRecord with
  | false => rfl
  | true =>
    rw [hs.body hrecord]
    rfl

theorem Holds.declare (hs : s.Holds scope name id) (scope' : Nat) (name' : String) (cursor : Nat) :
    ((declare scope' name' cursor).run s).2.Holds scope name id := by
  by_cases hsame : scope' = scope ∧ name' = name
  · obtain ⟨rfl, rfl⟩ := hsame
    rw [declare_run_of_held hs.named (hs.takesOver cursor)]
    exact hs
  · rcases declare_run scope' name' cursor s with hrun | hrun
    · rw [hrun]
      exact hs
    · rw [hrun]
      refine hs.of_grows (.refl _) ?_
      by_cases hscope : scope' = scope
      · exact hscope ▸ Scopes.named?_bind_of_ne _ _ (fun h => hsame ⟨hscope, h.symm⟩) _
      · exact Scopes.named?_bind_of_apart _ (Ne.symm hscope) _ _

/-- What holds a name, holds it to the end. -/
theorem steady_holds (scope : Nat) (name : String) (id : Nat) :
    Steady fun s => s.Holds scope name id where
  push _ _ _ _ _ _ _ hs := hs.of_grows (.push _ _ _) rfl
  openScope _ _ _ hs := hs.of_grows (.refl _) (Scopes.named?_openIn ..)
  setMembers _ _ _ hs := hs.of_grows (.refl _) rfl
  declare scope' name' cursor _ hs := hs.declare scope' name' cursor
  addSite _ _ _ _ _ hs := hs.of_grows (.refl _) rfl
  addForward _ _ _ _ hs := hs.of_grows (.refl _) rfl
  setType _ hint _ hs := by
    cases hint with
    | none => exact hs
    | some hint => exact hs.of_grows (.refl _) rfl
  expandIfMacro here name token t ht := by
    rw [run_expandIfMacro]
    split
    · exact ht.of_grows (.refl _) rfl
    · exact ht
  flushExpansions _ hs := hs.of_grows (.addExpansions _ _) rfl
  enter header depth t ht := by
    cases hmet : t.included.contains header with
    | true =>
      rw [Headers.enter_of_mem hmet depth]
      exact ht
    | false =>
      show (if t.included.contains header then (false, t) else _).2.Holds scope name id
      rw [if_neg (by simp [hmet])]
      exact ht.of_grows (.addInclusion _ _ _) rfl
  own _ _ _ hs := hs.of_grows (.own _ _ _) rfl
  setMacros _ _ hs := hs.of_grows (.refl _) rfl

/-- What a cursor is that was just added at a token. -/
theorem has_push_run (here : Here) (kind : CursorKind) (name : String) (token : SyntaxNode)
    (isDefinition : Bool) (s : Lowering) :
    let u := ((push here kind name token isDefinition).run s).2.unit
    s.unit.Grows u ∧ u.Has s.unit.size kind name isDefinition ∧
      u.position s.unit.size = here.source.position token := by
  refine ⟨.push _ _ _, s.unit.has_push here.parent _, ?_⟩
  show (s.unit.push here.parent _).position s.unit.size = _
  rw [TranslationUnit.position, TranslationUnit.cursor_push]

/-- A thing that is declared where its name is vacant holds it. -/
theorem Vacant.declareNamed {here : Here} {kind : CursorKind} {token : SyntaxNode}
    {isDefinition : Bool} (hvacant : s.Vacant here.scope (here.spelling token) isDefinition)
    (hlt : here.scope < s.scopes.size) (hname : here.spelling token ≠ "")
    (hkind : kind.isRecord = false) :
    ((Descent.declareNamed here kind token isDefinition).run s).2.Holds here.scope
      (here.spelling token) s.unit.size := by
  let pushed := ((push here kind (here.spelling token) token isDefinition).run s).2
  obtain ⟨hgrows, hhas, -⟩ := has_push_run here kind (here.spelling token) token isDefinition s
  have hfree : ∀ old, pushed.scopes.named? here.scope (here.spelling token) = some old →
      takesOver pushed.unit old s.unit.size = true := fun old hold => by
    obtain ⟨hlt, hrecord, hbody, hdefinition⟩ := hvacant old hold
    rw [takesOver, hgrows.kind hlt, hgrows.isDefinition hlt, hhas.isDefinition, hrecord, hbody,
      hdefinition]
    rfl
  show ((declare here.scope (here.spelling token) s.unit.size).run pushed).2.Holds _ _ _
  rw [declare_run_of_free hname hfree]
  refine ⟨Scopes.named?_bind _ hlt _ _, hhas.lt, fun hrecord => ?_⟩
  rw [hhas.kind, hkind] at hrecord
  cases hrecord

/-- The cursor of a named thing, at the token that spells its name. -/
theorem has_declareNamed (here : Here) (kind : CursorKind) (token : SyntaxNode)
    (isDefinition : Bool) (s : Lowering) :
    let t := ((Descent.declareNamed here kind token isDefinition).run s).2
    t.unit.Has s.unit.size kind (here.spelling token) isDefinition ∧
      t.unit.position s.unit.size = here.source.position token := by
  let pushed := ((push here kind (here.spelling token) token isDefinition).run s).2
  have hunit : ((declare here.scope (here.spelling token) s.unit.size).run pushed).2.unit =
      pushed.unit := by
    rcases declare_run here.scope (here.spelling token) s.unit.size pushed with hrun | hrun
    · rw [hrun]
    · rw [hrun]
  show ((declare here.scope (here.spelling token) s.unit.size).run pushed).2.unit.Has _ _ _ _ ∧
    ((declare here.scope (here.spelling token) s.unit.size).run pushed).2.unit.position _ = _
  rw [hunit]
  exact (has_push_run here kind (here.spelling token) token isDefinition s).2

/-! ## Uses that are found from the inside out -/

/-- What changes one cursor after another leaves all others, and the scopes. -/
theorem foldl_modify {α : Type} {settle : Lowering → α → Lowering} {place : α → Nat}
    (hsettle : ∀ s a, ∃ f, settle s a = { s with unit := s.unit.modify (place a) f })
    (as : List α) (s : Lowering) :
    (as.foldl settle s).scopes = s.scopes ∧ (as.foldl settle s).unit.size = s.unit.size ∧
      ∀ i, (∀ a ∈ as, i ≠ place a) → (as.foldl settle s).unit.cursor i = s.unit.cursor i := by
  induction as generalizing s with
  | nil => exact ⟨rfl, rfl, fun _ _ => rfl⟩
  | cons a as ih =>
    obtain ⟨f, hf⟩ := hsettle s a
    obtain ⟨hscopes, hsize, hothers⟩ := ih (settle s a)
    rw [List.foldl_cons]
    refine ⟨hscopes.trans (by rw [hf]), hsize.trans ?_, fun i hi => ?_⟩
    · rw [hf]
      exact TranslationUnit.size_modify _ _ _
    · rw [hothers i fun b hb => hi b (List.mem_cons_of_mem _ hb), hf,
        TranslationUnit.cursor_modify_eq,
        if_neg fun h => hi a List.mem_cons_self h.1.symm]

/-- Binding a use changes its cursor, which then names the target if it named nothing. -/
theorem bindSite_eq (s : Lowering) (site : UseSite) :
    ∃ f, s.bindSite site = { s with unit := s.unit.modify site.cursor f } ∧
      ∀ c : Cursor, c.referenced = none → (f c).referenced = s.target? site := by
  unfold bindSite
  cases s.target? site with
  | some target => exact ⟨_, rfl, fun _ _ => rfl⟩
  | none => exact ⟨_, rfl, fun _ hc => hc⟩

/-- **A use that is found from the inside out** names what its name stands for in the scope where
    the use waits. -/
theorem Sound.referenced_of_lexical (hs : s.Sound) {site : UseSite} (hsite : site ∈ s.sites)
    (hlexical : site.binding = .lexical) :
    s.bindAll.unit.referenced site.cursor = s.scopes.lookup site.scope site.name := by
  obtain ⟨before, after, hsplit⟩ := List.append_of_mem (Array.mem_toList_iff.mpr hsite)
  have hapart := hs.sitesApart
  rw [hsplit, List.pairwise_append, List.pairwise_cons] at hapart
  obtain ⟨-, ⟨hafter, -⟩, hbefore⟩ := hapart
  have hwaits := hs.use_waits hsite
  have hbindSite : ∀ (s : Lowering) (site : UseSite),
      ∃ f, s.bindSite site = { s with unit := s.unit.modify site.cursor f } := fun s site =>
    (bindSite_eq s site).imp fun _ hf => hf.1
  -- the uses in front and behind, and the records, are other cursors
  obtain ⟨hscopes, hsize, hothers⟩ := foldl_modify hbindSite before s
  let front := before.foldl bindSite s
  have hfront : front.unit.cursor site.cursor = s.unit.cursor site.cursor :=
    hothers _ fun a ha => (hbefore a ha site List.mem_cons_self).symm
  obtain ⟨f, hf, hreferenced⟩ := bindSite_eq front site
  have hall : s.bindAll =
      s.forwards.toList.foldl linkForward (after.foldl bindSite (front.bindSite site)) := by
    rw [Lowering.bindAll, ← Array.foldl_toList, ← Array.foldl_toList, hsplit, List.foldl_append,
      List.foldl_cons]
  have hlinkForward : ∀ (s : Lowering) (f : Forward),
      ∃ g, s.linkForward f = { s with unit := s.unit.modify f.cursor g } := fun _ _ => ⟨_, rfl⟩
  rw [hall, TranslationUnit.referenced,
    (foldl_modify hlinkForward _ _).2.2 _ fun g hg =>
      hs.use_ne_forward hsite (Array.mem_toList_iff.mp hg),
    (foldl_modify hbindSite _ _).2.2 _ fun a ha => hafter a ha, hf,
    TranslationUnit.cursor_modify_eq, if_pos ⟨rfl, Nat.lt_of_lt_of_eq hwaits.lt hsize.symm⟩,
    hreferenced _ (hfront ▸ hwaits.waits.referenced), target?, hlexical]
  exact congrArg (fun scopes => scopes.lookup site.scope site.name) hscopes

end Lowering

/-! ## Loops -/

open Lower (NestedIn)

namespace Lower.NestedIn

variable {α : Type} {h : Nat} {m : Lower α} {s : Lowering}

theorem run_open (hm : NestedIn h m) (hs : s.Open h) : (m.run s).2.Open h :=
  have hnests := hm s hs
  hnests.open_ (Nat.lt_of_lt_of_le hs.lt hnests.leads.extends_.scopes)

theorem run_leads (hm : NestedIn h m) (hs : s.Open h) : s.Leads (m.run s).2 := (hm s hs).leads

end Lower.NestedIn

namespace Descent

open Lowering

variable {d inner : Descent} {n : SyntaxNode} {here : Here} {template : Option SyntaxNode}

theorem fst_declareNamed (here : Here) (kind : CursorKind) (token : SyntaxNode)
    (isDefinition : Bool) (s : Lowering) :
    ((declareNamed here kind token isDefinition).run s).1 = s.unit.size := rfl

/-- What follows a named thing is told its cursor. -/
theorem run_declareNamed_bind {α : Type} (here : Here) (kind : CursorKind) (token : SyntaxNode)
    (isDefinition : Bool) (f : Nat → Lower α) (s : Lowering) :
    (declareNamed here kind token isDefinition >>= f).run s =
      (f s.unit.size).run ((declareNamed here kind token isDefinition).run s).2 := by
  rw [StateT.run_bind]
  show (f ((declareNamed here kind token isDefinition).run s).1).run _ = _
  rw [fst_declareNamed]

/-- Lowers the record or enumeration that a declaration defines. -/
def definedPart (d : Descent) (n : SyntaxNode) (here : Here) (template : Option SyntaxNode) :
    Lower (Option Nat) :=
  match n.child? .type with
  | some t =>
    if (n.fieldChildren .declarator).isEmpty || t.hasBody then
      d.definedType t here template (n.fieldChildren .declarator).isEmpty
    else pure none
  | none => pure none

/-- What the declarators of a declaration share behind that. -/
def sharedPart (n : SyntaxNode) (here : Here) (template : Option SyntaxNode)
    (defined : Option Nat) (s : Lowering) : DeclaredAs :=
  let type := n.child? .type
  let inRecord := (s.scopes.scope here.scope).record.isSome
  let isField := n.kind = "field_declaration" && inRecord && !here.source.hasStorage n "static"
  { kind := if isField then .fieldDecl else .varDecl
    isDefinition := !here.source.hasStorage n "extern"
    type := if defined.isNone then type else none
    hint := match defined with
      | some id => some (.cursor id)
      | none => type.bind (typeHint? here)
    template }

/-- The declarators of a declaration in turn, then the default of the last one. -/
def declaratorsFrom (d : Descent) (shared : DeclaredAs) (list : List SyntaxNode)
    (value : Option SyntaxNode) (here : Here) (last : Option Nat) : Lower Unit := do
  let last ← list.foldlM (d.declarator shared here) last
  match last with
  | some id => d.valueOf value (here.under id)
  | none => pure ()

/-- A declaration: what it defines, then its declarators. -/
theorem declaration_run (d : Descent) (n : SyntaxNode) (here : Here)
    (template : Option SyntaxNode) (s : Lowering) :
    (d.declaration n here template).run s =
      let defined := (d.definedPart n here template).run s
      (d.declaratorsFrom (sharedPart n here template defined.1 defined.2)
        (n.fieldChildren .declarator) (n.child? .defaultValue) here none).run defined.2 := by
  unfold declaration definedPart sharedPart
  cases n.child? .type with
  | none => rfl
  | some t =>
    simp only
    split
    · rfl
    · rfl

/-- What follows behind the name of a variable, up to the next declarator. -/
def variableRest (d : Descent) (shared : DeclaredAs) (shape : Declarator) (here : Here)
    (id : Nat) : Lower (Option Nat) := do
  setType id shared.hint
  d.typeOf shared.type (here.under id)
  shape.sizes.forM fun size => discard (d.expr size (here.under id))
  d.valueOf shape.value (here.under id)
  return some id

/-- A declarator of a variable: its name, and what follows. -/
theorem declarator_eq {shared : DeclaredAs} {last : Option Nat} {shape : Declarator}
    (hshape : Declarator.ofNode? n = some shape) (hfunction : shape.function = none) :
    d.declarator shared here last n =
      declareNamed here shared.kind shape.name.nameToken shared.isDefinition >>=
        d.variableRest shared shape here := by
  unfold declarator
  rw [hshape]
  simp only [hfunction]
  rfl

/-- What follows behind the name of a variable in a declaration, to its end. -/
def declarationRest (d : Descent) (shared : DeclaredAs) (shape : Declarator)
    (list : List SyntaxNode) (value : Option SyntaxNode) (here : Here) (id : Nat) : Lower Unit := do
  let last ← d.variableRest shared shape here id
  d.declaratorsFrom shared list value here last

/-- The declarators of a declaration, as seen from one that declares a variable. -/
theorem declaratorsFrom_run {shared : DeclaredAs} {shape : Declarator}
    {front back : List SyntaxNode} {last : Option Nat} {s before : Lowering}
    (hshape : Declarator.ofNode? n = some shape) (hfunction : shape.function = none)
    (hbefore : (front.foldlM (d.declarator shared here) none).run s = (last, before))
    (value : Option SyntaxNode) :
    (d.declaratorsFrom shared (front ++ n :: back) value here none).run s =
      (d.declarationRest shared shape back value here before.unit.size).run
        ((declareNamed here shared.kind shape.name.nameToken shared.isDefinition).run
          before).2 := by
  unfold declaratorsFrom
  rw [List.foldlM_append, bind_assoc, StateT.run_bind, hbefore]
  show (List.foldlM (d.declarator shared here) last (n :: back) >>= _ : Lower Unit).run before = _
  rw [List.foldlM_cons, declarator_eq hshape hfunction, bind_assoc, bind_assoc,
    run_declareNamed_bind]
  rfl

/-- What follows behind the name of the variable in a loop over a range, up to the body. -/
def rangeRest (d : Descent) (n : SyntaxNode) (here : Here) (id : Nat) : Lower Unit := do
  setType id ((n.child? .type).bind (typeHint? here))
  d.typeOf (n.child? .type) (here.under id)
  discard (d.exprOf (n.child? .right) here)

/-- A loop over a range: its variable, what follows, and the body. -/
theorem rangeLoop_run {shape : Declarator} (hshape : n.declarator? = some shape) (s : Lowering) :
    (d.rangeLoop n here).run s =
      (discard (d.exprOf (n.child? .body) here) : Lower Unit).run
        ((d.rangeRest n here s.unit.size).run
          ((declareNamed here .varDecl shape.name).run s).2).2 := by
  unfold rangeLoop
  rw [hshape]
  show (declareNamed here .varDecl shape.name >>= _ : Lower Unit).run s = _
  rw [run_declareNamed_bind]
  rfl

namespace Nesting

theorem definedPart (hd : d.Nesting) (n : SyntaxNode) (here : Here)
    (template : Option SyntaxNode) : NestedIn here.scope (d.definedPart n here template) := by
  unfold Descent.definedPart
  split
  · exact .ite (hd.definedType _ here template _) (.pure _)
  · exact .pure _

theorem variableRest (hd : d.Nesting) (shared : DeclaredAs) (shape : Declarator) (here : Here)
    (id : Nat) : NestedIn here.scope (d.variableRest shared shape here id) :=
  (NestedIn.setType _ _).bind fun _ => (hd.typeOf _ (here.under id)).bind fun _ =>
    (NestedIn.forM fun size _ => (hd.expr size (here.under id)).discard).bind fun _ =>
      (hd.valueOf _ (here.under id)).bind fun _ => .pure _

theorem declaratorsFrom (hd : d.Nesting) (shared : DeclaredAs) (list : List SyntaxNode)
    (value : Option SyntaxNode) (here : Here) (last : Option Nat) :
    NestedIn here.scope (d.declaratorsFrom shared list value here last) := by
  refine (NestedIn.foldlM last fun last c _ => hd.declarator shared here last c).bind fun last => ?_
  cases last with
  | some id => exact hd.valueOf value (here.under id)
  | none => exact .pure _

theorem declarationRest (hd : d.Nesting) (shared : DeclaredAs) (shape : Declarator)
    (list : List SyntaxNode) (value : Option SyntaxNode) (here : Here) (id : Nat) :
    NestedIn here.scope (d.declarationRest shared shape list value here id) :=
  (hd.variableRest shared shape here id).bind fun last =>
    hd.declaratorsFrom shared list value here last

theorem rangeRest (hd : d.Nesting) (n : SyntaxNode) (here : Here) (id : Nat) :
    NestedIn here.scope (d.rangeRest n here id) :=
  (NestedIn.setType _ _).bind fun _ => (hd.typeOf _ (here.under id)).bind fun _ =>
    (hd.exprOf _ here).discard

end Nesting

end Descent

namespace ExprForm

variable {n : SyntaxNode}

theorem ofNode_declaration (h : n.kind = "declaration") : ofNode n = .declaration := by
  rw [ofNode, h]
  rfl

theorem ofNode_forStatement (h : n.kind = "for_statement") : ofNode n = .compound := by
  rw [ofNode, h]
  rfl

theorem ofNode_forRangeLoop (h : n.kind = "for_range_loop") : ofNode n = .rangeLoop := by
  rw [ofNode, h]
  rfl

end ExprForm

/-- The lowering of a loop: it declares its variable, and goes on inside the loop. -/
structure LoopRun where
  /-- The token that spells the variable. -/
  token : SyntaxNode
  isDefinition : Bool
  /-- The state in which the variable is declared. -/
  before : Lowering
  /-- The state in which the inside is entered. -/
  entered : Lowering
  /-- The lowering of the inside. -/
  inside : Lower Unit

namespace LoopRun

/-- The cursor of the variable. -/
def cursor (r : LoopRun) : Nat := r.before.unit.size

/-- The state behind the loop. -/
def left (r : LoopRun) : Lowering := (r.inside.run r.entered).2

/-- How a loop is lowered from a state on, by a descent and the one below it.

In a `for` statement a variable is declared by one of the declarators of the initializer.  What
follows the initializer, which is the condition, the update and the body, is the inside.  In a loop
over a range, the body alone is the inside. -/
inductive Of (d inner : Descent) (n : SyntaxNode) (here : Here) (s : Lowering) :
    LoopRun → Prop where
  | counting {front back dfront dback : List SyntaxNode} {initializer declarator : SyntaxNode}
      {shape : Declarator} {defined last : Option Nat} {started shared before entered : Lowering}
      (hkind : n.kind = "for_statement")
      (hchildren : n.namedChildren = front ++ initializer :: back)
      (hinitializer : initializer.kind = "declaration")
      (hdeclarators : initializer.fieldChildren .declarator = dfront ++ declarator :: dback)
      (hshape : Declarator.ofNode? declarator = some shape) (hfunction : shape.function = none)
      (hstarted : ((front.forM fun c => discard (d.expr c here) : Lower Unit).run s).2 = started)
      (hdefined : (inner.definedPart initializer here none).run started = (defined, shared))
      (hbefore : (dfront.foldlM (inner.declarator
        (Descent.sharedPart initializer here none defined shared) here) none).run shared =
          (last, before))
      (hentered : ((d.expr initializer here).run started).2 = entered) :
      Of d inner n here s
        { token := shape.name.nameToken
          isDefinition := !here.source.hasStorage initializer "extern"
          before, entered
          inside := back.forM fun c => discard (d.expr c here) }
  | range {shape : Declarator} {entered : Lowering} (hkind : n.kind = "for_range_loop")
      (hshape : n.declarator? = some shape)
      (hentered : ((d.rangeRest n here s.unit.size).run
        ((Descent.declareNamed here .varDecl shape.name).run s).2).2 = entered) :
      Of d inner n here s
        { token := shape.name, isDefinition := true, before := s, entered
          inside := discard (d.exprOf (n.child? .body) here) }

/-- What is known of a loop that is lowered in some scope, up to the state behind it. -/
structure Goes (r : LoopRun) (here : Here) (t : Lowering) : Prop where
  before : r.before.Open here.scope
  entered : r.entered.Open here.scope
  leads : ((Descent.declareNamed here .varDecl r.token r.isDefinition).run r.before).2.Leads
    r.entered
  inside : NestedIn here.scope r.inside
  left : r.left = t

variable {d inner : Descent} {n : SyntaxNode} {here : Here} {s t : Lowering} {r : LoopRun}

/-- Both kinds of loops declare their variable in the scope around, and go on in that scope. -/
theorem Of.goes (h : r.Of d inner n here s) (hd : d.Nesting) (hinner : inner.Nesting)
    (hexpr : ∀ c here, d.expr c here = inner.exprStep c here) (hs : s.Open here.scope) :
    r.Goes here ((d.exprStep n here).run s).2 := by
  cases h with
  | @counting front back dfront dback initializer declarator shape defined last started shared
      before entered hkind hchildren hinitializer hdeclarators hshape hfunction hstarted hdefined
      hbefore hentered =>
    let as := Descent.sharedPart initializer here none defined shared
    have hchild : ∀ list : List SyntaxNode,
        NestedIn here.scope (list.forM fun c => discard (d.expr c here) : Lower Unit) :=
      fun list => .forM fun c _ => (hd.expr c here).discard
    have hstartedOpen : started.Open here.scope := hstarted ▸ (hchild front).run_open hs
    have hsharedOpen : shared.Open here.scope := by
      have hopen := (hinner.definedPart initializer here none).run_open hstartedOpen
      rw [hdefined] at hopen
      exact hopen
    have hbeforeOpen : before.Open here.scope := by
      have hfold : NestedIn here.scope (dfront.foldlM (inner.declarator as here) none) :=
        .foldlM none fun last c _ => hinner.declarator as here last c
      have hopen := hfold.run_open hsharedOpen
      rw [hbefore] at hopen
      exact hopen
    have hvariable : as.kind = .varDecl := by
      show (if decide (initializer.kind = "field_declaration") && _ && _ then _ else _) = _
      rw [hinitializer]
      rfl
    have hrun : entered = ((inner.declarationRest as shape dback
        (initializer.child? .defaultValue) here before.unit.size).run
        ((Descent.declareNamed here .varDecl shape.name.nameToken as.isDefinition).run
          before).2).2 := by
      rw [← hentered, hexpr, Descent.exprStep, ExprForm.ofNode_declaration hinitializer]
      show ((inner.declaration initializer here none).run started).2 = _
      rw [Descent.declaration_run, hdefined, hdeclarators, ← hvariable]
      exact congrArg Prod.snd (Descent.declaratorsFrom_run hshape hfunction hbefore _)
    refine ⟨hbeforeOpen, hentered ▸ (hd.expr initializer here).run_open hstartedOpen, ?_,
      hchild back, ?_⟩
    · rw [hrun]
      exact (hinner.declarationRest as shape dback _ here _).run_leads
        ((Descent.nestedIn_declareNamed _ _ _ _).run_open hbeforeOpen)
    · rw [Descent.exprStep, ExprForm.ofNode_forStatement hkind]
      show _ = ((n.namedChildren.forM fun c => discard (d.expr c here) : Lower Unit).run s).2
      rw [hchildren, List.forM_eq_forM, List.forM_append, StateT.run_bind, ← hentered, ← hstarted]
      rfl
  | @range shape entered hkind hshape hentered =>
    have hdeclared := (Descent.nestedIn_declareNamed here .varDecl shape.name true).run_open hs
    have hrest := hd.rangeRest n here s.unit.size
    refine ⟨hs, hentered ▸ hrest.run_open hdeclared, hentered ▸ hrest.run_leads hdeclared,
      (hd.exprOf _ here).discard, ?_⟩
    rw [Descent.exprStep, ExprForm.ofNode_forRangeLoop hkind]
    show _ = ((d.rangeLoop n here).run s).2
    rw [Descent.rangeLoop_run hshape, hentered]
    rfl

namespace Goes

variable {last : Lowering}

/-- What comes behind the loop comes behind its variable. -/
theorem leads_last (h : r.Goes here t) (hlast : t.Leads last) :
    ((Descent.declareNamed here .varDecl r.token r.isDefinition).run r.before).2.Leads last := by
  have hinside : r.entered.Leads r.left := h.inside.run_leads h.entered
  rw [h.left] at hinside
  exact (h.leads.trans hinside).trans hlast

/-- The cursor of the variable, in all that is lowered. -/
theorem has (h : r.Goes here t) (hlast : t.Leads last) :
    last.unit.Has r.cursor .varDecl (here.spelling r.token) r.isDefinition ∧
      last.unit.position r.cursor = here.source.position r.token := by
  obtain ⟨hhas, hposition⟩ :=
    Lowering.has_declareNamed here .varDecl r.token r.isDefinition r.before
  have hgrows := (h.leads_last hlast).extends_.unit
  exact ⟨hgrows.has hhas, (hgrows.position hhas.lt).trans hposition⟩

/-- **Which cursor has the name of the variable** in the scope around the loop, in the end: that of
    the variable if the name was vacant, or else the one that held the name before. -/
theorem settles (h : r.Goes here t) (hlast : t.Leads last) (hname : here.spelling r.token ≠ "") :
    (r.before.Vacant here.scope (here.spelling r.token) r.isDefinition →
      last.scopes.named? here.scope (here.spelling r.token) = some r.cursor) ∧
    ∀ old, r.before.Holds here.scope (here.spelling r.token) old →
      last.scopes.named? here.scope (here.spelling r.token) = some old := by
  have hdeclared := h.leads_last hlast
  refine ⟨fun hvacant => ?_, fun old hold => ?_⟩
  · have hholds : ((Descent.declareNamed here .varDecl r.token r.isDefinition).run r.before).2.Holds
        here.scope (here.spelling r.token) r.cursor := hvacant.declareNamed h.before.lt hname rfl
    exact (hdeclared _ (Lowering.steady_holds _ _ _) hholds).named
  · have hfrom := (Descent.nestedIn_declareNamed here .varDecl r.token r.isDefinition).run_leads
      h.before
    exact ((hfrom.trans hdeclared) _ (Lowering.steady_holds _ _ _) hold).named

/-- What is left to be bound inside the loop waits inside the scope around the loop, or inside a
    scope of members that was there before. -/
theorem waits (h : r.Goes here t) (hlast : t.Leads last) {k : Nat} {site : UseSite}
    (hk : r.entered.sites.size ≤ k) (hsite : t.sites[k]? = some site) :
    site ∈ last.sites ∧
      (last.scopes.Encloses r.entered.scopes.size here.scope site.scope ∨
        ∃ m ∈ last.memberScopes, m.2 < r.entered.scopes.size ∧ m.2 ≠ here.scope ∧
          last.scopes.Encloses r.entered.scopes.size m.2 site.scope) := by
  have hleft : (r.inside.run r.entered).2 = t := h.left
  have hnests := h.inside r.entered h.entered
  rw [hleft] at hnests
  obtain ⟨hunder, hlt⟩ := hnests.left k site hk hsite
  refine ⟨?_, hnests.encloses hlast hlt hunder⟩
  obtain ⟨hkt, -⟩ := Array.getElem?_eq_some_iff.mp hsite
  exact Array.mem_of_getElem? ((hlast.extends_.sites k hkt).trans hsite)

end Goes

end LoopRun

open Lowering (collect)

/-- **What the uses inside a loop name.**

A lowering comes to a loop in a state in which the scope around the loop is there, and what it has
collected in the end comes behind the loop.  Then the variable has its cursor in the unit.  Take any
use of its name that is left inside the loop and is looked up from the inside out; uses of macros
are not left.  Either a block inside the loop that lies around the use declares the name, or the use
lies in a scope of members that was there before the loop and is entered again in it.  Otherwise it
names the variable if the name was vacant in the scope around the loop, and what held the name there
before if anything did, such as the variable of an earlier loop in the same block. -/
theorem loop_uses (headers : Headers) (main : Source) {nesting level : Nat} {n : SyntaxNode}
    {here : Here} {s : Lowering} {r : LoopRun} (hopen : s.Open here.scope)
    (hloop : r.Of (.below headers (Lowering.file headers nesting) (level + 1))
      (.below headers (Lowering.file headers nesting) level) n here s)
    (hlast : (((Descent.below headers (Lowering.file headers nesting) (level + 1)).exprStep n
      here).run s).2.Leads (collect headers main))
    (hname : here.spelling r.token ≠ "") :
    let u := TranslationUnit.ofSource headers main
    let last := collect headers main
    let name := here.spelling r.token
    u.Has r.cursor .varDecl name r.isDefinition ∧
      u.position r.cursor = here.source.position r.token ∧
      ∀ k site, r.entered.sites.size ≤ k → r.left.sites[k]? = some site → site.name = name →
        site.binding = .lexical → u.spelling site.cursor = name ∧
        ((∃ b, r.entered.scopes.size ≤ b ∧
            last.scopes.Encloses r.entered.scopes.size b site.scope ∧
            (last.scopes.named? b name).isSome = true) ∨
          (∃ m ∈ last.memberScopes, m.2 < r.entered.scopes.size ∧ m.2 ≠ here.scope ∧
            last.scopes.Encloses r.entered.scopes.size m.2 site.scope) ∨
          (r.before.Vacant here.scope name r.isDefinition →
            u.referenced site.cursor = some r.cursor) ∧
          ∀ old, r.before.Holds here.scope name old → u.referenced site.cursor = some old) := by
  intro u last name
  have hnesting := Lowering.nesting_below headers nesting
  have hgoes := hloop.goes (hnesting (level + 1)) (hnesting level) (fun _ _ => rfl) hopen
  have hsound := Lowering.sound_collect headers main
  have hrebinds := TranslationUnit.rebinds_ofSource headers main
  obtain ⟨hhas, hposition⟩ := hgoes.has hlast
  refine ⟨hrebinds.has hhas rfl, (hrebinds.position _).trans hposition,
    fun k site hk hsite hspelled hlexical => ?_⟩
  obtain ⟨hmem, hwhere⟩ := hgoes.waits hlast hk (hgoes.left ▸ hsite)
  refine ⟨(hrebinds.spelling _).trans ((hsound.use_waits hmem).waits.name.trans hspelled), ?_⟩
  rcases hwhere with hinside | hmembers
  · refine (Scopes.lookup_of_encloses hinside name).imp_right fun hsame => .inr ?_
    have hreferenced : u.referenced site.cursor = last.scopes.lookup here.scope name :=
      (hsound.referenced_of_lexical hmem hlexical).trans (by rw [hspelled, hsame])
    obtain ⟨hvacant, hheld⟩ := hgoes.settles hlast hname
    exact ⟨fun h => hreferenced.trans (Scopes.lookup_of_named? (hvacant h)),
      fun old h => hreferenced.trans (Scopes.lookup_of_named? (hheld old h))⟩
  · exact .inr (.inl hmembers)

/-! ### Two loops over one name -/

deriving instance DecidableEq for Path, Position, Inclusion, Cursor, TranslationUnit, Scope, Scopes,
  Binding, UseSite, Forward, TypeHint, Expansion, Lowering

/-- The name `i` at a byte. -/
def counterName (start : Nat) : SyntaxNode :=
  .node "identifier" true start (start + 1) [] [] []

/-- The declarator `i = 0` that starts at a byte. -/
def counterDeclarator (start : Nat) : SyntaxNode :=
  .node "init_declarator" true start (start + 5) [(.declarator, [0]), (.value, [1])] [] [
    counterName start,
    .node "number_literal" true (start + 4) (start + 5) [] [] []]

/-- The declaration `int i = 0;` that starts at a byte. -/
def counterDeclaration (start : Nat) : SyntaxNode :=
  .node "declaration" true start (start + 10) [(.type, [0]), (.declarator, [1])] [] [
    .node "primitive_type" true start (start + 3) [] [] [], counterDeclarator (start + 4)]

/-- A loop laid out like `for (int i = 0; i < 3; i++) {}` that starts at a byte. -/
def counterLoop (start : Nat) : SyntaxNode :=
  .node "for_statement" true start (start + 30) [(.body, [3])] [] [
    counterDeclaration (start + 5),
    .node "binary_expression" true (start + 16) (start + 21) [(.right, [1])] [] [
      counterName (start + 16),
      .node "number_literal" true (start + 20) (start + 21) [] [] []],
    .node "update_expression" true (start + 23) (start + 26) [(.argument, [0])] [] [
      counterName (start + 23)],
    .node "compound_statement" true (start + 28) (start + 30) [] [] []]

/-- A function with these loops in its body. -/
def counters (loops : List SyntaxNode) : Source where
  path := ⟨"/a.c"⟩
  text := "void f() \x7b\n  for (int i = 0; i < 3; i++) \x7b\x7d\n" ++
    "  for (int i = 5; i < 9; i++) \x7b\x7d\n\x7d\n"
  tree :=
    .node "translation_unit" true 0 79 [] [] [
      .node "function_definition" true 0 78 [(.type, [0]), (.declarator, [1]), (.body, [2])] [] [
        .node "primitive_type" true 0 4 [] [] [],
        .node "function_declarator" true 5 8 [(.declarator, [0]), (.parameters, [1])] [] [
          .node "identifier" true 5 6 [] [] [],
          .node "parameter_list" true 6 8 [] [] []],
        .node "compound_statement" true 9 78 [] [] loops]]

theorem ofNode?_counterDeclarator (start : Nat) :
    Declarator.ofNode? (counterDeclarator start) =
      some { name := counterName start
             value := some (.node "number_literal" true (start + 4) (start + 5) [] [] []) } := by
  have hwrapper : Declarator.Wrapper.ofNode (counterDeclarator start) = .initialised := rfl
  rw [Declarator.ofNode?, Declarator.peel, if_neg (by rw [hwrapper]; decide)]
  split
  · rename_i inner hinner
    cases hinner
    rw [Declarator.peel]
    exact if_pos rfl
  · rename_i hinner
    cases hinner

/-- How such a loop is lowered. -/
def counterRun (d : Descent) (here : Here) (s : Lowering) (start : Nat) : LoopRun where
  token := (counterName (start + 9)).nameToken
  isDefinition := !here.source.hasStorage (counterDeclaration (start + 5)) "extern"
  before := s
  entered := ((d.expr (counterDeclaration (start + 5)) here).run s).2
  inside := (counterLoop start).namedChildren.tail.forM fun c => discard (d.expr c here)

theorem of_counterRun (d inner : Descent) (here : Here) (s : Lowering) (start : Nat) :
    (counterRun d here s start).Of d inner (counterLoop start) here s :=
  .counting rfl
    (show (counterLoop start).namedChildren = [] ++ counterDeclaration (start + 5) :: _ from rfl)
    rfl
    (show (counterDeclaration (start + 5)).fieldChildren .declarator =
      [] ++ counterDeclarator (start + 5 + 4) :: [] from rfl)
    (ofNode?_counterDeclarator _) rfl rfl rfl rfl rfl

/-- A function with two loops over the same name. -/
def twoCounters : Source := counters [counterLoop 13, counterLoop 46]

/-- The body of the function. -/
def insideCounters : Here := { source := twoCounters, depth := 0, parent := 2, scope := 2 }

/-- The state behind some of the loops. -/
def behindCounters (loops : List SyntaxNode) : Lowering := collect noHeaders (counters loops)

/-- The descent that lowers the loops, and the one below it. -/
def counterDescent (level : Nat) : Descent :=
  .below noHeaders (Lowering.file noHeaders 0) level

theorem behindCounters_open : ∀ loops ∈ [[], [counterLoop 13]], (behindCounters loops).Open 2 := by
  have hstate : ∀ loops ∈ [[], [counterLoop 13]],
      2 < (behindCounters loops).scopes.size ∧ (behindCounters loops).memberScopes = [] := by
    decide +kernel
  refine fun loops h => ⟨(hstate loops h).1, fun m hm => ?_⟩
  rw [(hstate loops h).2] at hm
  cases hm

/-- One loop after the other. -/
theorem behindCounters_exprStep :
    (((counterDescent 4).exprStep (counterLoop 13) insideCounters).run (behindCounters [])).2 =
        behindCounters [counterLoop 13] ∧
      (((counterDescent 4).exprStep (counterLoop 46) insideCounters).run
        (behindCounters [counterLoop 13])).2 = collect noHeaders twoCounters := by
  decide +kernel

/-- Such a loop leads to the state behind it. -/
theorem left_counterRun {loops : List SyntaxNode} (h : loops ∈ [[], [counterLoop 13]])
    (start : Nat) :
    (counterRun (counterDescent 4) insideCounters (behindCounters loops) start).left =
      (((counterDescent 4).exprStep (counterLoop start) insideCounters).run
        (behindCounters loops)).2 := by
  have hnesting := Lowering.nesting_below noHeaders 0
  have hopen : (behindCounters loops).Open insideCounters.scope := behindCounters_open loops h
  exact ((of_counterRun (counterDescent 4) (counterDescent 3) _ _ _).goes (hnesting 4) (hnesting 3)
    (fun _ _ => rfl) hopen).left

/-- The uses in the first loop name its variable, though there is another loop after it. -/
theorem loop_uses_counter :
    let u := TranslationUnit.ofSource noHeaders twoCounters
    let r := counterRun (counterDescent 4) insideCounters (behindCounters []) 13
    r.Of (counterDescent 4) (counterDescent 3) (counterLoop 13) insideCounters
        (behindCounters []) ∧
      r.before.Vacant 2 "i" true ∧ r.cursor = 3 ∧ u.Has 3 .varDecl "i" true ∧
      u.position 4 = ⟨some ⟨"/a.c"⟩, 2, 19⟩ ∧ u.referenced 4 = some 3 ∧
      u.position 5 = ⟨some ⟨"/a.c"⟩, 2, 26⟩ ∧ u.referenced 5 = some 3 := by
  intro u r
  let last := collect noHeaders twoCounters
  have hopen : (behindCounters []).Open insideCounters.scope :=
    behindCounters_open _ List.mem_cons_self
  have hopen' : (behindCounters [counterLoop 13]).Open insideCounters.scope :=
    behindCounters_open _ (List.mem_cons_of_mem _ List.mem_cons_self)
  have hloop : r.Of (counterDescent 4) (counterDescent 3) (counterLoop 13) insideCounters
      (behindCounters []) := of_counterRun _ _ _ _ _
  obtain ⟨hfirst, hsecond⟩ := behindCounters_exprStep
  have hleft : r.left = behindCounters [counterLoop 13] :=
    (left_counterRun List.mem_cons_self 13).trans hfirst
  have hlast : (((counterDescent 4).exprStep (counterLoop 13) insideCounters).run
      (behindCounters [])).2.Leads last := by
    rw [hfirst, show last = _ from hsecond.symm]
    exact ((Lowering.nesting_below noHeaders 0 4).exprStep _ insideCounters).run_leads hopen'
  obtain ⟨htoken, hdefinition, hcursor, hentered, hnone⟩ :
      insideCounters.spelling r.token = "i" ∧ r.isDefinition = true ∧ r.cursor = 3 ∧
        r.entered.sites.size = 0 ∧ r.before.scopes.named? 2 "i" = none := by
    decide +kernel
  -- no block in the loop declares the name, and nothing has members
  obtain ⟨hblocks, hmembers⟩ : (∀ b < last.scopes.size, r.entered.scopes.size ≤ b →
      last.scopes.named? b "i" = none) ∧ last.memberScopes = [] := by
    decide +kernel
  have hvacant : r.before.Vacant 2 "i" true := fun old hold => by
    cases hnone.symm.trans hold
  obtain ⟨hhas, -, huses⟩ :=
    loop_uses noHeaders twoCounters hopen hloop hlast (by rw [htoken]; decide)
  rw [htoken, hcursor, hdefinition] at hhas
  rw [htoken, hcursor, hdefinition, hleft] at huses
  have huse : ∀ k cursor, (behindCounters [counterLoop 13]).sites[k]? =
      some (⟨cursor, "i", 2, .lexical⟩ : UseSite) → u.referenced cursor = some 3 :=
    fun k cursor hsite => by
      obtain ⟨-, hcases⟩ := huses k _ (hentered ▸ Nat.zero_le k) hsite rfl rfl
      rcases hcases with ⟨b, hb, -, hbound⟩ | ⟨m, hm, -⟩ | ⟨hown, -⟩
      · obtain ⟨id, hid⟩ := Option.isSome_iff_exists.mp hbound
        cases (hblocks b (Scopes.lt_of_named? hid) hb).symm.trans hid
      · rw [show (collect noHeaders twoCounters).memberScopes = [] from hmembers] at hm
        cases hm
      · exact hown hvacant
  obtain ⟨hsite, hsite'⟩ :
      (behindCounters [counterLoop 13]).sites[0]? = some (⟨4, "i", 2, .lexical⟩ : UseSite) ∧
        (behindCounters [counterLoop 13]).sites[1]? = some (⟨5, "i", 2, .lexical⟩ : UseSite) := by
    decide +kernel
  obtain ⟨hposition, hposition'⟩ : u.position 4 = ⟨some ⟨"/a.c"⟩, 2, 19⟩ ∧
      u.position 5 = ⟨some ⟨"/a.c"⟩, 2, 26⟩ := by
    decide +kernel
  exact ⟨hloop, hvacant, hcursor, hhas, hposition, huse 0 4 hsite, hposition', huse 1 5 hsite'⟩

/-- The uses in the second loop name the variable of the first. -/
theorem loop_use_of_earlier :
    let u := TranslationUnit.ofSource noHeaders twoCounters
    let r := counterRun (counterDescent 4) insideCounters (behindCounters [counterLoop 13]) 46
    r.Of (counterDescent 4) (counterDescent 3) (counterLoop 46) insideCounters
        (behindCounters [counterLoop 13]) ∧
      r.left = collect noHeaders twoCounters ∧
      r.cursor = 7 ∧ u.Has 7 .varDecl "i" true ∧ u.position 7 = ⟨some ⟨"/a.c"⟩, 3, 12⟩ ∧
      r.entered.sites.size = 2 ∧
      r.left.sites[2]? = some (⟨8, "i", insideCounters.scope, .lexical⟩ : UseSite) ∧
      u.kind 8 = .declRefExpr ∧ u.position 8 = ⟨some ⟨"/a.c"⟩, 3, 19⟩ ∧
      u.referenced 8 = some 3 := by
  intro u r
  have hleft : r.left = collect noHeaders twoCounters :=
    (left_counterRun (List.mem_cons_of_mem _ List.mem_cons_self) 46).trans
      behindCounters_exprStep.2
  obtain ⟨hcursor, hentered⟩ : r.cursor = 7 ∧ r.entered.sites.size = 2 := by decide +kernel
  have hsite : (collect noHeaders twoCounters).sites[2]? =
      some (⟨8, "i", insideCounters.scope, .lexical⟩ : UseSite) := by
    decide +kernel
  obtain ⟨hlt, hkind, hname, hdefinition, hposition, hrest⟩ :
      7 < u.size ∧ u.kind 7 = .varDecl ∧ u.spelling 7 = "i" ∧ u.isDefinition 7 = true ∧
        u.position 7 = ⟨some ⟨"/a.c"⟩, 3, 12⟩ ∧ u.kind 8 = .declRefExpr ∧
        u.position 8 = ⟨some ⟨"/a.c"⟩, 3, 19⟩ ∧ u.referenced 8 = some 3 := by
    decide +kernel
  exact ⟨of_counterRun _ _ _ _ _, hleft, hcursor, ⟨hlt, hkind, hname, hdefinition⟩, hposition,
    hentered, hleft ▸ hsite, hrest⟩

end SymbolAtlas
