import SymbolAtlas.Proofs.LoweringActs
import SymbolAtlas.Proofs.LoweringWalk

/-!
# Where a lowering stands

A lowering goes from node to node, and at each one it stands below a cursor and in a scope, known by
their numbers.  Here it is walked once more, step by step: each step, begun in a state in order at a
place that is there, is a row of acts in range, and hands the nodes below on at places that are
there.  So a lowering that looks around at every node, and does something else altogether where it
does not stand in order, does the same as the one that does not look.

* `Here.Stands` — the cursor and the scope of a place are there.
* `Descent.heeding`, `Lowering.collectHeeding` — the lowering that looks around at every node.
* `Lower.Proceeds`, `Lower.Orderly` — how two steps go on alike from a state, by acts in range.

Principal results: `Descent.KeepsOrder.itemStep`, `.typeStep`, `.exprStep` — a node is lowered in
order, if that holds of those below it; `Lowering.collectHeeding_eq` — at every node a lowering
stands in order; `Lowering.passes_collect` — a lowering is a row of acts in range, and declares each
cursor that declares something once.
-/

set_option autoImplicit false

namespace SymbolAtlas

/-- The cursor and the scope of a place are there. -/
structure Here.Stands (here : Here) (s : Lowering) : Prop where
  parent : here.parent < s.unit.size
  scope : here.scope < s.scopes.size

namespace Here.Stands

variable {here : Here} {s t : Lowering} {id scope : Nat}

theorem later (h : here.Stands s) (hlater : s.Later t) : here.Stands t :=
  ⟨hlater.cursor_lt h.parent, hlater.scope_lt h.scope⟩

theorem under (h : here.Stands s) (hid : id < s.unit.size) : (here.under id).Stands s :=
  ⟨hid, h.scope⟩

theorem within (hid : id < s.unit.size) (hscope : scope < s.scopes.size) :
    (here.within id scope).Stands s :=
  ⟨hid, hscope⟩

end Here.Stands

/-! ## Looking around -/

section Heeding

variable {α : Type}

open scoped Classical in
/-- Goes the one way from a state in order at a place that is there, and another way from anywhere
    else. -/
noncomputable def Lower.heed (here : Here) (m other : Lower α) : Lower α := do
  let s ← get
  if s.InOrder ∧ here.Stands s then m else other

/-- Looks around before anything is lowered, and lowers it elsewhere unless it stands in order. -/
noncomputable def Descent.heeding (d elsewhere : Descent) : Descent where
  file here := Lower.heed here (d.file here) (elsewhere.file here)
  item n here := Lower.heed here (d.item n here) (elsewhere.item n here)
  type n here := Lower.heed here (d.type n here) (elsewhere.type n here)
  expr n here := Lower.heed here (d.expr n here) (elsewhere.expr n here)

/-- Lowers nodes of at most this height, and looks around before each of them. -/
noncomputable def Descent.belowHeeding (elsewhere : Descent) (headers : Headers)
    (file : Here → Lower Unit) : Nat → Descent
  | 0 => ({ Descent.idle with file } : Descent).heeding elsewhere
  | n + 1 =>
    let d := Descent.belowHeeding elsewhere headers file n
    ({ file, item := d.itemStep headers, type := d.typeStep, expr := d.exprStep } :
      Descent).heeding elsewhere

namespace Lowering

/-- Lowers the items of a file, and looks around before each node. -/
noncomputable def fileHeeding (elsewhere : Descent) (headers : Headers) : Nat → Here → Lower Unit
  | 0, _ => pure ()
  | n + 1, here =>
    let tree := here.source.tree
    (Descent.belowHeeding elsewhere headers (fileHeeding elsewhere headers n) tree.height).items
      tree here

/-- The state after all items of a unit, where the lowering looks around before each node and each
    header, and lowers it elsewhere unless it stands in order there. -/
noncomputable def collectHeeding (elsewhere : Descent) (headers : Headers) (main : Source) :
    Lowering :=
  let here : Here := { source := main, depth := 0, parent := 0, scope := Scopes.global }
  let lowered := do
    fileHeeding elsewhere headers (maxNesting headers) here
    flushExpansions
  (lowered.run (init main.path (headers.files.canonicalPath main.path))).2

end Lowering

end Heeding

/-! ## Steps that go on in order -/

open Lowering (Act Passes Accounts)

namespace Lower

variable {α β : Type} {s t : Lowering} {due due' : List Nat} {m m' : Lower α}
  {Q : α → Lowering → Prop} {Q' : β → Lowering → Prop} {owed : α → List Nat}
  {owed' : β → List Nat}

/-- From every state in order behind `s` the second step does what the first one does: a row of acts
    in range.  Behind it `Q` is known of the result.  The cursors of `due` wait to be declared
    before the step, and those of `owed` behind it. -/
def Proceeds (s : Lowering) (due : List Nat) (m m' : Lower α) (Q : α → Lowering → Prop)
    (owed : α → List Nat) : Prop :=
  ∀ t, s.Later t → t.InOrder → m'.run t = m.run t ∧ Q (m.run t).1 (m.run t).2 ∧
    ∃ acts, t.Passes acts (m.run t).2 ∧ t.Accounts due acts (m.run t).2 (owed (m.run t).1)

/-- No cursor waits to be declared, neither before the step nor behind it. -/
def Orderly (s : Lowering) (m m' : Lower α) (Q : α → Lowering → Prop := fun _ _ => True) : Prop :=
  Proceeds s [] m m' Q fun _ => []

namespace Proceeds

theorem later (h : Proceeds s due m m' Q owed) (hlater : s.Later t) :
    Proceeds t due m m' Q owed := fun r hr => h r (hlater.trans hr)

theorem pure (a : α) (h : ∀ t, s.Later t → Q a t) :
    Proceeds s due (Pure.pure a) (Pure.pure a) Q fun _ => due := fun t ht _ =>
  ⟨rfl, h t ht, [], .nil t, .still rfl rfl⟩

theorem bind {f f' : α → Lower β} (hm : Proceeds s due m m' Q owed)
    (hf : ∀ a t, s.Later t → Q a t → Proceeds t (owed a) (f a) (f' a) Q' owed') :
    Proceeds s due (m >>= f) (m' >>= f') Q' owed' := fun t ht hin => by
  obtain ⟨hsame, hknown, acts, hpasses, haccounts⟩ := hm t ht hin
  obtain ⟨hsame', hknown', acts', hpasses', haccounts'⟩ :=
    hf _ _ (ht.trans hpasses.later) hknown _ (.refl _) (hpasses.inOrder hin)
  refine ⟨?_, hknown', acts ++ acts', hpasses.trans hpasses', haccounts.trans haccounts'⟩
  show (f' (m'.run t).1).run (m'.run t).2 = (f (m.run t).1).run (m.run t).2
  rw [hsame]
  exact hsame'

/-- The second step stands wherever the first one ends, whatever that one hands back. -/
theorem seq {f f' : Lower β} (hm : Proceeds s due m m' Q fun _ => due')
    (hf : Proceeds s due' f f' Q' owed') :
    Proceeds s due (m >>= fun _ => f) (m' >>= fun _ => f') Q' owed' :=
  hm.bind fun _ _ hlater _ => hf.later hlater

/-- What the state tells may be used. -/
theorem read {f f' : Lowering → Lower β}
    (hf : ∀ t, s.Later t → t.InOrder → Proceeds t due (f t) (f' t) Q' owed') :
    Proceeds s due (get >>= f) (get >>= f') Q' owed' := fun t ht hin =>
  hf t ht hin t (.refl t) hin

theorem imp {Q₁ : α → Lowering → Prop} (h : Proceeds s due m m' Q owed)
    (hQ : ∀ a t, Q a t → Q₁ a t) : Proceeds s due m m' Q₁ owed := fun t ht hin =>
  (h t ht hin).imp_right fun ⟨hknown, hacts⟩ => ⟨hQ _ _ hknown, hacts⟩

theorem ite {c : Prop} [Decidable c] {f f' : Lower α} (hm : Proceeds s due m m' Q owed)
    (hf : Proceeds s due f f' Q owed) :
    Proceeds s due (if c then m else f) (if c then m' else f') Q owed := by
  split
  · exact hm
  · exact hf

/-- A step that is one act, after which the same cursors wait to be declared. -/
theorem act (a : Lowering → Act) (result : Lowering → α)
    (hrun : ∀ t, m.run t = (result t, (a t).apply t))
    (hrange : ∀ t, s.Later t → t.InOrder → (a t).InRange t)
    (hstill : ∀ t, Lowering.declared [a t] = [] ∧
      ((a t).apply t).unit.declarations = t.unit.declarations)
    (hknown : ∀ t, s.Later t → Q (result t) ((a t).apply t)) :
    Proceeds s due m m Q fun _ => due := fun t ht hin => by
  rw [hrun t]
  exact ⟨rfl, hknown t ht, [a t], .single (hrange t ht hin),
    .still (hstill t).1 (hstill t).2⟩

end Proceeds

namespace Orderly

theorem done (a : α) : Orderly s (Pure.pure a) (Pure.pure a) := .pure a fun _ _ => trivial

/-- Nothing need be known of the result. -/
theorem discard (h : Orderly s m m' Q) : Orderly s (discard m) (discard m') :=
  fun t ht hin => by
    obtain ⟨hsame, -, hacts⟩ := h t ht hin
    exact ⟨congrArg (fun x : α × Lowering => (PUnit.unit, x.2)) hsame, trivial, hacts⟩

theorem forM {f f' : α → Lower PUnit} {l : List α} (hf : ∀ a ∈ l, Orderly s (f a) (f' a)) :
    Orderly s (l.forM f) (l.forM f') := by
  induction l with
  | nil => exact .done _
  | cons a l ih =>
    exact (hf a List.mem_cons_self).seq (ih fun b hb => hf b (List.mem_cons_of_mem a hb))

theorem foldlM {f f' : β → α → Lower β} {l : List α} {b : β}
    (hb : ∀ t, s.Later t → Q' b t)
    (hf : ∀ b t, s.Later t → (∀ r, t.Later r → Q' b r) → ∀ a ∈ l,
      Orderly t (f b a) (f' b a) fun c r => ∀ r', r.Later r' → Q' c r') :
    Orderly s (l.foldlM f b) (l.foldlM f' b) Q' := by
  induction l generalizing b s with
  | nil => exact .pure b hb
  | cons a l ih =>
    exact (hf b s (.refl s) hb a List.mem_cons_self).bind fun c t ht hc =>
      ih hc fun b r hr hb x hx => hf b r (ht.trans hr) hb x (List.mem_cons_of_mem a hx)

/-- From where a step is begun in order, to look around makes no difference. -/
theorem heed {here : Here} (h : Orderly s m m' Q) (hhere : here.Stands s) (other : Lower α) :
    Orderly s m (heed here m' other) Q := fun t ht hin => by
  refine (h t ht hin).imp_left fun hsame => ?_
  exact (congrArg (StateT.run · t) (if_pos ⟨hin, hhere.later ht⟩)).trans hsame

end Orderly

/-! ### The changes -/

section Changes

variable {here : Here} {name : String} {id scope : Nat}

/-- A cursor is put, and waits to be declared if it declares something. -/
theorem proceeds_push (hhere : here.Stands s) (kind : CursorKind) (name : String)
    (token : SyntaxNode) (isDefinition : Bool) (displayName : Option String) :
    Proceeds s [] (Lowering.push here kind name token isDefinition displayName)
      (Lowering.push here kind name token isDefinition displayName)
      (fun id t => t.unit.Has id kind name isDefinition)
      fun id => if kind.isDeclaration then [id] else [] := fun t ht _ => by
  let c : Cursor :=
    { kind, spelling := name, displayName, position := here.source.position token, isDefinition }
  have hrange : (Act.push here.parent c).InRange t :=
    ⟨(hhere.later ht).parent, ⟨nofun, nofun, nofun, nofun, nofun⟩⟩
  refine ⟨rfl, TranslationUnit.has_push t.unit here.parent c, [.push here.parent c],
    .single hrange, fun before hbefore => ?_⟩
  show (t.unit.push here.parent c).declarations = _
  rw [TranslationUnit.declarations_push, hbefore, List.append_nil]
  exact congrArg (· ++ _) (List.append_nil before).symm

/-- A cursor is put that declares nothing. -/
theorem orderly_push (hhere : here.Stands s) {kind : CursorKind}
    (hkind : kind.isDeclaration = false) (name : String) (token : SyntaxNode) (isDefinition : Bool)
    (displayName : Option String) :
    Orderly s (Lowering.push here kind name token isDefinition displayName)
      (Lowering.push here kind name token isDefinition displayName)
      fun id t => id < t.unit.size := by
  have hpush := proceeds_push hhere kind name token isDefinition displayName
  simp only [hkind, Bool.false_eq_true, if_false] at hpush
  exact hpush.imp fun _ _ hid => hid.lt

/-- A cursor is put that declares something. -/
theorem declaring_push (hhere : here.Stands s) {kind : CursorKind}
    (hkind : kind.isDeclaration = true) (name : String) (token : SyntaxNode) (isDefinition : Bool)
    (displayName : Option String) :
    Proceeds s [] (Lowering.push here kind name token isDefinition displayName)
      (Lowering.push here kind name token isDefinition displayName)
      (fun id t => t.unit.Has id kind name isDefinition) fun id => [id] := by
  have hpush := proceeds_push hhere kind name token isDefinition displayName
  simp only [hkind, if_true] at hpush
  exact hpush

/-- The name that waits is declared. -/
theorem proceeds_declare {kind : CursorKind} {isDefinition : Bool} (hscope : scope < s.scopes.size)
    (hid : s.unit.Has id kind name isDefinition) (hkind : kind.isDeclaration = true) :
    Proceeds s [id] (Lowering.declare scope name id) (Lowering.declare scope name id)
      (fun _ _ => True) fun _ => [] := fun t ht _ => by
  have hid' := ht.unit.has hid
  have hrange : (Act.declare scope name id).InRange t :=
    ⟨ht.scope_lt hscope, hid'.lt, by rw [hid'.kind, hkind], hid'.name⟩
  refine ⟨rfl, trivial, [.declare scope name id], .single hrange, fun before hbefore => ?_⟩
  have hunit : ((Lowering.declare scope name id).run t).2.unit = t.unit := by
    rcases Lowering.declare_run scope name id t with hrun | hrun
    · rw [hrun]
    · rw [hrun]
  rw [hunit, hbefore]
  exact (List.append_nil _).symm

theorem proceeds_own (hid : id < s.unit.size) {owner : Option Nat}
    (howner : ∀ o ∈ owner, o < s.unit.size) :
    let own : Lower Unit := modify fun s => { s with unit := s.unit.modify id fun f =>
      { f with semanticParent := owner <|> f.semanticParent } }
    Proceeds s due own own (fun _ _ => True) fun _ => due :=
  .act (fun _ => .own id owner) (fun _ => ()) (fun _ => rfl)
    (fun _ ht _ => ⟨ht.cursor_lt hid, fun o ho => ht.cursor_lt (howner o ho)⟩)
    (fun t => ⟨rfl, TranslationUnit.declarations_congr (TranslationUnit.size_modify ..)
      fun _ hi => (TranslationUnit.Grows.own t.unit id owner).kind hi⟩)
    fun _ _ => trivial

theorem proceeds_openScope {parent : Nat} (hparent : parent < s.scopes.size)
    (record : Option String) :
    Proceeds s due (Lowering.openScope parent record) (Lowering.openScope parent record)
      (fun scope t => scope < t.scopes.size) fun _ => due :=
  .act (fun _ => .openScope parent record) (fun t => t.scopes.size) (fun _ => rfl)
    (fun _ ht _ => ht.scope_lt hparent) (fun _ => ⟨rfl, rfl⟩) fun t _ => by
      show t.scopes.size < (t.scopes.openIn parent record).size
      rw [Scopes.size_openIn]
      exact Nat.lt_succ_self _

theorem proceeds_setMembers (hid : id < s.unit.size) (hscope : scope < s.scopes.size) :
    Proceeds s due (Lowering.setMembers id scope) (Lowering.setMembers id scope)
      (fun _ _ => True) fun _ => due :=
  .act (fun _ => .setMembers id scope) (fun _ => ()) (fun _ => rfl)
    (fun _ ht _ => ⟨ht.cursor_lt hid, ht.scope_lt hscope⟩) (fun _ => ⟨rfl, rfl⟩) fun _ _ => trivial

theorem orderly_addSite {binding : Binding} (hid : id < s.unit.size)
    (hscope : scope < s.scopes.size)
    (hbase : ∀ base, binding = .member (some base) → base < s.unit.size) :
    Orderly s (Lowering.addSite id name scope binding) (Lowering.addSite id name scope binding) :=
  .act (fun _ => .addSite ⟨id, name, scope, binding⟩) (fun _ => ()) (fun _ => rfl)
    (fun _ ht _ => ⟨ht.cursor_lt hid, ht.scope_lt hscope,
      fun base h => ht.cursor_lt (hbase base h)⟩)
    (fun _ => ⟨rfl, rfl⟩) fun _ _ => trivial

theorem orderly_addForward (hid : id < s.unit.size) (hscope : scope < s.scopes.size) :
    Orderly s (Lowering.addForward id name scope) (Lowering.addForward id name scope) :=
  .act (fun _ => .addForward ⟨id, name, scope⟩) (fun _ => ()) (fun _ => rfl)
    (fun _ ht _ => ⟨ht.cursor_lt hid, ht.scope_lt hscope⟩) (fun _ => ⟨rfl, rfl⟩) fun _ _ => trivial

theorem orderly_setType {hint : Option TypeHint} (hid : id < s.unit.size)
    (hhint : ∀ h ∈ hint, h.Within s.unit.size s.scopes.size) :
    Orderly s (Lowering.setType id hint) (Lowering.setType id hint) := by
  cases hint with
  | none => exact .done _
  | some hint =>
    exact .act (fun _ => .setType id hint) (fun _ => ()) (fun _ => rfl)
      (fun _ ht _ => ⟨ht.cursor_lt hid, (hhint hint rfl).mono ht.unit.size ht.scopes⟩)
      (fun _ => ⟨rfl, rfl⟩) fun _ _ => trivial

theorem orderly_flushExpansions :
    Orderly s Lowering.flushExpansions Lowering.flushExpansions :=
  .act (fun _ => .flush) (fun _ => ()) (fun _ => rfl) (fun _ _ _ => trivial)
    (fun _ => ⟨rfl, TranslationUnit.declarations_addExpansions _ _⟩) fun _ _ => trivial

theorem orderly_define (hid : id < s.unit.size) :
    let define : Lower Unit := modify fun s => { s with macros := (name, id) :: s.macros }
    Orderly s define define :=
  .act (fun _ => .define name id) (fun _ => ()) (fun _ => rfl)
    (fun _ ht _ => ht.cursor_lt hid) (fun _ => ⟨rfl, rfl⟩) fun _ _ => trivial

theorem orderly_undefine (name : String) :
    let undefine : Lower Unit :=
      modify fun s => { s with macros := s.macros.filter fun m => m.1 != name }
    Orderly s undefine undefine :=
  .act (fun _ => .undefine name) (fun _ => ()) (fun _ => rfl)
    (fun _ _ _ => trivial) (fun _ => ⟨rfl, rfl⟩) fun _ _ => trivial

theorem orderly_expandIfMacro (here : Here) (name : String) (token : SyntaxNode) :
    Orderly s (Lowering.expandIfMacro here name token)
      (Lowering.expandIfMacro here name token) := fun t _ hin => by
  refine ⟨rfl, trivial, ?_⟩
  rw [Lowering.run_expandIfMacro]
  cases hmacro : t.macros.lookup name with
  | none => exact ⟨[], .nil t, .still rfl rfl⟩
  | some definition =>
    obtain ⟨_, _, hmem, -⟩ := List.lookup_eq_some_iff.mp hmacro
    have hlt := hin.within.macros (name, definition)
      (hmem ▸ List.mem_append_right _ List.mem_cons_self)
    exact ⟨[.expand ⟨here.source.position token, name, definition⟩], .single hlt, .still rfl rfl⟩

theorem orderly_enter (header : Path) (depth : Nat) :
    Orderly s (Headers.enter header depth) (Headers.enter header depth) := fun t _ _ => by
  refine ⟨rfl, trivial, ?_⟩
  cases hmet : t.included.contains header with
  | true =>
    rw [Headers.enter_of_mem hmet depth]
    exact ⟨[], .nil t, .still rfl rfl⟩
  | false =>
    have hrun : (Headers.enter header depth).run t =
        (true, (Act.meet header depth).apply t) := by
      show (if t.included.contains header then _ else _) = _
      rw [if_neg (by simp [hmet])]
      rfl
    rw [hrun]
    exact ⟨[.meet header depth], .single trivial, .still rfl rfl⟩

end Changes

end Lower

/-! ## Node by node -/

open Lower (Proceeds Orderly proceeds_push orderly_push declaring_push proceeds_declare proceeds_own
  proceeds_openScope proceeds_setMembers orderly_addSite orderly_addForward orderly_setType
  orderly_flushExpansions orderly_define orderly_undefine orderly_expandIfMacro orderly_enter)

/-- The cursor that a step tells, if it tells one, is there. -/
def Lowering.Tells (value : Option Nat) (s : Lowering) : Prop := ∀ id ∈ value, id < s.unit.size

open Lowering (Tells)

theorem Lowering.tells_none (s : Lowering) : Tells none s := nofun

theorem Lowering.tells_some {s : Lowering} {id : Nat} (hid : id < s.unit.size) :
    Tells (some id) s := by
  rintro _ ⟨⟩
  exact hid

theorem Lowering.Tells.later {value : Option Nat} {s t : Lowering} (h : Tells value s)
    (hlater : s.Later t) : Tells value t := fun id hid => hlater.cursor_lt (h id hid)

/-- A cursor that is there is told. -/
theorem Lower.orderly_tell {value : Option Nat} {s : Lowering} (h : Tells value s) :
    Orderly s (pure value) (pure value) Tells :=
  .pure value fun _ ht => h.later ht

theorem Lower.orderly_tellNone {s : Lowering} : Orderly s (pure none) (pure none) Tells :=
  orderly_tell (Lowering.tells_none s)

open Lower (orderly_tell orderly_tellNone)

/-- Whatever the first descent lowers at a place that is there, the second one lowers alike, by acts
    in range. -/
structure Descent.KeepsOrder (d d' : Descent) : Prop where
  file : ∀ {s : Lowering} {here : Here}, here.Stands s → Orderly s (d.file here) (d'.file here)
  item : ∀ n {s : Lowering} {here : Here}, here.Stands s →
    Orderly s (d.item n here) (d'.item n here)
  type : ∀ n {s : Lowering} {here : Here}, here.Stands s →
    Orderly s (d.type n here) (d'.type n here)
  expr : ∀ n {s : Lowering} {here : Here}, here.Stands s →
    Orderly s (d.expr n here) (d'.expr n here) Tells

namespace Lowering

variable {s : Lowering} {here : Here} {id : Nat} {name : String}

/-- The type of a value names the scope that it stands in. -/
theorem within_typeHint? (hhere : here.Stands s) (type : Option SyntaxNode) :
    ∀ h ∈ type.bind (typeHint? here), h.Within s.unit.size s.scopes.size := fun h hh => by
  obtain ⟨type, -, hhint⟩ := Option.bind_eq_some_iff.mp hh
  obtain ⟨name, -, rfl⟩ := Option.map_eq_some_iff.mp hhint
  exact hhere.scope

/-- The scope of members that a state tells is there. -/
theorem InOrder.memberScope_lt (h : s.InOrder) {id scope : Nat}
    (hlookup : s.memberScopes.lookup id = some scope) : scope < s.scopes.size := by
  obtain ⟨_, _, hmem, -⟩ := List.lookup_eq_some_iff.mp hlookup
  exact (h.within.memberScopes (id, scope) (hmem ▸ List.mem_append_right _ List.mem_cons_self)).2

/-- A cursor that a scope names is there. -/
theorem InOrder.named_lt (h : s.InOrder) {scope id : Nat}
    (hnamed : s.scopes.named? scope name = some id) : id < s.unit.size := by
  obtain ⟨_, _, hmem, -⟩ := List.lookup_eq_some_iff.mp hnamed
  exact h.within.names scope (name, id) (hmem ▸ List.mem_append_right _ List.mem_cons_self)

theorem InOrder.lookup_lt (h : s.InOrder) {scope : Nat}
    (hlookup : s.scopes.lookup scope name = some id) : id < s.unit.size := by
  induction scope using Nat.strongRecOn with
  | ind scope ih =>
    rw [Scopes.lookup] at hlookup
    split at hlookup
    · rename_i hnamed
      cases hlookup
      exact h.named_lt hnamed
    · split at hlookup
      · split at hlookup
        · rename_i hlt
          exact ih _ hlt hlookup
        · cases hlookup
      · cases hlookup

/-- The owner that names lead to is there. -/
theorem InOrder.owner?_lt (h : s.InOrder) (scope : Nat) (path : List String) :
    ∀ o ∈ s.owner? scope path, o < s.unit.size := fun o ho => by
  have hrest : ∀ (rest : List String) (start : Nat), start < s.unit.size →
      rest.foldlM (fun owner name => (s.memberScopes.lookup owner).bind fun inner =>
        s.scopes.named? inner name) start = some o → o < s.unit.size := fun rest => by
    induction rest with
    | nil =>
      intro start hstart heq
      cases heq
      exact hstart
    | cons name rest ih =>
      intro start _ heq
      rw [List.foldlM_cons] at heq
      obtain ⟨owner, hstep, heq⟩ := Option.bind_eq_some_iff.mp heq
      obtain ⟨inner, -, hnamed⟩ := Option.bind_eq_some_iff.mp hstep
      exact ih owner (h.named_lt hnamed) heq
  cases path with
  | nil => cases ho
  | cons first rest =>
    obtain ⟨start, hstart, heq⟩ := Option.bind_eq_some_iff.mp ho
    exact hrest rest start (h.lookup_lt hstart) heq

end Lowering

namespace Descent

open Lowering

variable {d d' : Descent} {s : Lowering} {here : Here}

theorem isDeclaration_of_isReference {kind : CursorKind} (h : kind.isReference = true) :
    kind.isDeclaration = false := by
  cases hkind : kind.isDeclaration with
  | false => rfl
  | true =>
    rw [CursorKind.isReference_of_isDeclaration hkind] at h
    cases h

/-- A use is put and waits for its declaration, and the step goes on behind it. -/
theorem orderly_use {β : Type} {f f' : Nat → Lower β} {Q : β → Lowering → Prop}
    (hhere : here.Stands s) {kind : CursorKind} (hkind : kind.isReference = true) (name : String)
    (token : SyntaxNode) {binding : Binding}
    (hbase : ∀ base, binding = .member (some base) → base < s.unit.size)
    (hf : ∀ id t, s.Later t → id < t.unit.size → Orderly t (f id) (f' id) Q) :
    Orderly s
      (do let id ← push here kind name token false; addSite id name here.scope binding; f id)
      (do let id ← push here kind name token false; addSite id name here.scope binding; f' id) Q :=
  (orderly_push hhere (isDeclaration_of_isReference hkind) name token false none).bind
    fun id _ ht hid =>
      (orderly_addSite hid (ht.scope_lt hhere.scope)
        fun base h => ht.cursor_lt (hbase base h)).seq (hf id _ ht hid)

theorem orderly_declareNamed (hhere : here.Stands s) {kind : CursorKind}
    (hkind : kind.isDeclaration = true) (token : SyntaxNode) (isDefinition : Bool) :
    Orderly s (declareNamed here kind token isDefinition)
      (declareNamed here kind token isDefinition) fun id t => id < t.unit.size :=
  (declaring_push hhere hkind _ token isDefinition none).bind fun id _ ht hid =>
    (proceeds_declare (ht.scope_lt hhere.scope) hid hkind).seq
      (.pure id fun _ hr => hr.cursor_lt hid.lt)

theorem orderly_typeReference (hhere : here.Stands s) (token : SyntaxNode) :
    Orderly s (typeReference token here) (typeReference token here) :=
  (orderly_expandIfMacro here _ token).bind fun _ _ ht _ => .ite (Orderly.done _) <|
    (orderly_push (hhere.later ht) rfl _ token false none).bind fun _ _ ht' hid =>
      orderly_addSite hid ((ht.trans ht').scope_lt hhere.scope) nofun

theorem orderly_nameUse (hhere : here.Stands s) (n : SyntaxNode) :
    Orderly s (nameUse n here) (nameUse n here) Tells :=
  (orderly_expandIfMacro here _ n).bind fun _ _ ht _ => .ite orderly_tellNone <|
    orderly_use (hhere.later ht) rfl _ n nofun fun _ _ _ hid => orderly_tell (tells_some hid)

theorem orderly_macroDefinition (hhere : here.Stands s) (n : SyntaxNode) :
    Orderly s (macroDefinition n here) (macroDefinition n here) := by
  unfold macroDefinition
  split
  · exact (orderly_push hhere rfl _ _ true none).bind fun _ _ _ hid => orderly_define hid
  · exact .done _

theorem orderly_directive (n : SyntaxNode) :
    Orderly s (directive n here) (directive n here) := by
  unfold directive
  simp only
  split
  · exact orderly_undefine _
  · exact .done _

namespace KeepsOrder

/-! ### Names -/

theorem templateArguments (hd : d.KeepsOrder d') (arguments : SyntaxNode) (h : here.Stands s) :
    Orderly s (d.templateArguments arguments here) (d'.templateArguments arguments here) :=
  .forM fun a _ => .ite (hd.type a h) (hd.expr a h).discard

theorem argumentsOf (hd : d.KeepsOrder d') (n : SyntaxNode) (h : here.Stands s) :
    Orderly s (d.argumentsOf n here) (d'.argumentsOf n here) := by
  unfold Descent.argumentsOf
  split
  · exact hd.templateArguments _ h
  · exact .done _

theorem templateReference (hd : d.KeepsOrder d') (n : SyntaxNode) (h : here.Stands s) :
    Orderly s (d.templateReference n here) (d'.templateReference n here) := by
  unfold Descent.templateReference
  split
  · exact orderly_use h rfl _ _ (fun _ hbase => by cases hbase) fun _ _ ht _ =>
      hd.argumentsOf n (h.later ht)
  · exact hd.argumentsOf n h

theorem qualifiers (hd : d.KeepsOrder d') (path : List String) (scopes : List SyntaxNode)
    (h : here.Stands s) :
    Orderly s (d.qualifiers here path scopes) (d'.qualifiers here path scopes) := by
  induction scopes generalizing path s with
  | nil => exact .done _
  | cons scope rest ih =>
    refine orderly_use h (qualifierKind_isReference scope) _ _ (fun base hbase => ?_)
      fun _ _ ht _ => (hd.argumentsOf scope (h.later ht)).seq (ih _ (h.later ht))
    split at hbase <;> cases hbase

theorem qualifiedReference (hd : d.KeepsOrder d') (n : SyntaxNode) {kind : CursorKind}
    (hkind : kind.isReference = true) (h : here.Stands s) :
    Orderly s (d.qualifiedReference n here kind) (d'.qualifiedReference n here kind) Tells :=
  (hd.qualifiers [] _ h).bind fun _ _ ht _ => .ite orderly_tellNone <|
    orderly_use (h.later ht) hkind _ _ (fun _ hbase => by cases hbase) fun id _ ht' hid =>
      (hd.argumentsOf _ ((h.later ht).later ht')).seq (orderly_tell (tells_some hid))

/-! ### Declarations -/

theorem items (hd : d.KeepsOrder d') (n : SyntaxNode) (h : here.Stands s) :
    Orderly s (d.items n here) (d'.items n here) :=
  .forM fun c _ => (hd.item c h).seq (.ite orderly_flushExpansions (Orderly.done _))

theorem block (hd : d.KeepsOrder d') (n : SyntaxNode) (h : here.Stands s) :
    Orderly s (d.block n here) (d'.block n here) :=
  (orderly_push h rfl _ n false none).bind fun _ _ ht hid =>
    (proceeds_openScope (ht.scope_lt h.scope) none).bind fun _ _ ht' hscope =>
      Orderly.forM fun c _ => (hd.expr c (.within (ht'.cursor_lt hid) hscope)).discard

theorem typeOf (hd : d.KeepsOrder d') (type : Option SyntaxNode) (h : here.Stands s) :
    Orderly s (d.typeOf type here) (d'.typeOf type here) := by
  unfold Descent.typeOf
  split
  · exact hd.type _ h
  · exact .done _

theorem valueOf (hd : d.KeepsOrder d') (value : Option SyntaxNode) (h : here.Stands s) :
    Orderly s (d.valueOf value here) (d'.valueOf value here) := by
  unfold Descent.valueOf
  split
  · exact (hd.expr _ h).discard
  · exact .done _

theorem templateParameter (hd : d.KeepsOrder d') (p : SyntaxNode) (h : here.Stands s) :
    Orderly s (d.templateParameter p here) (d'.templateParameter p here) := by
  unfold Descent.templateParameter
  split
  · split
    · exact (orderly_declareNamed h rfl _ true).discard
    · exact .done _
  · split
    · exact (orderly_declareNamed h rfl _ true).discard
    · exact .done _
  · split
    · exact (orderly_declareNamed h rfl _ true).bind fun _ _ ht hid =>
        hd.typeOf _ ((h.later ht).under hid)
    · exact .done _
  · split
    · split
      · exact (orderly_declareNamed h rfl _ true).bind fun _ _ ht hid =>
          hd.typeOf _ ((h.later ht).under hid)
      · exact .done _
    · exact .done _

theorem templateParameters (hd : d.KeepsOrder d') (list : Option SyntaxNode)
    (h : here.Stands s) :
    Orderly s (d.templateParameters list here) (d'.templateParameters list here) := by
  unfold Descent.templateParameters
  split
  · exact .forM fun p _ => hd.templateParameter p h
  · exact .done _

theorem record (hd : d.KeepsOrder d') (n : SyntaxNode) (template : Option SyntaxNode)
    (standalone : Bool) (h : here.Stands s) :
    Orderly s (d.record n here template standalone) (d'.record n here template standalone)
      Tells := by
  have hkind := CursorKind.isDeclaration_of_isRecord (recordKind_isRecord n template)
  unfold Descent.record
  simp only
  split
  · refine (declaring_push h hkind _ _ true none).bind fun id t ht hid =>
      (proceeds_declare (ht.scope_lt h.scope) hid hkind).seq <|
        (proceeds_openScope (ht.scope_lt h.scope) _).bind fun scope r hr hscope => ?_
    have hid' := hr.cursor_lt hid.lt
    have hinside : (here.within id scope).Stands r := .within hid' hscope
    exact (proceeds_setMembers hid' hscope).seq <|
      (hd.templateParameters template hinside).seq <|
        (Orderly.forM fun clause _ => .forM fun base _ => hd.type base hinside).seq <|
          (hd.items _ hinside).seq (orderly_tell (tells_some hid'))
  · split
    · exact (orderly_declareNamed h hkind _ false).bind fun id _ ht hid =>
        (orderly_addForward hid (ht.scope_lt h.scope)).seq (orderly_tell (tells_some hid))
    · exact (orderly_typeReference h _).seq orderly_tellNone
  · exact orderly_tellNone

theorem enumerator (hd : d.KeepsOrder d') (n : SyntaxNode) (h : here.Stands s) :
    Orderly s (d.enumerator n here) (d'.enumerator n here) := by
  unfold Descent.enumerator
  split
  · exact (orderly_declareNamed h rfl _ true).bind fun _ _ ht hid =>
      hd.valueOf _ ((h.later ht).under hid)
  · exact .done _

theorem enumeration (hd : d.KeepsOrder d') (n : SyntaxNode) (h : here.Stands s) :
    Orderly s (d.enumeration n here) (d'.enumeration n here) Tells := by
  unfold Descent.enumeration
  simp only
  split
  · exact (declaring_push h rfl _ _ true none).bind fun id _ ht hid =>
      (proceeds_declare (ht.scope_lt h.scope) hid rfl).seq <|
        (Orderly.forM fun e _ => hd.enumerator e ((h.later ht).under hid.lt)).seq
          (orderly_tell (tells_some hid.lt))
  · split
    · exact (orderly_typeReference h _).seq orderly_tellNone
    · exact orderly_tellNone

theorem definedType (hd : d.KeepsOrder d') (type : SyntaxNode) (template : Option SyntaxNode)
    (standalone : Bool) (h : here.Stands s) :
    Orderly s (d.definedType type here template standalone)
      (d'.definedType type here template standalone) Tells :=
  .ite (hd.record type template standalone h)
    (.ite (hd.enumeration type h) orderly_tellNone)

theorem parameter (hd : d.KeepsOrder d') (p : SyntaxNode) (h : here.Stands s) :
    Orderly s (d.parameter p here) (d'.parameter p here) := by
  unfold Descent.parameter
  simp only
  split
  · exact hd.typeOf _ h
  · exact (orderly_declareNamed h rfl _ true).bind fun _ _ ht hid =>
      have hunder := (h.later ht).under hid
      (orderly_setType hid (within_typeHint? (h.later ht) _)).seq <|
        (hd.typeOf _ hunder).seq (hd.valueOf _ hunder)

theorem parameters (hd : d.KeepsOrder d') (list : Option SyntaxNode) (h : here.Stands s) :
    Orderly s (d.parameters list here) (d'.parameters list here) := by
  unfold Descent.parameters
  split
  · exact .forM fun p _ => hd.parameter p h
  · exact .done _

theorem initialiserPart (hd : d.KeepsOrder d') (n : SyntaxNode) (h : here.Stands s) :
    Orderly s (d.initialiserPart n here) (d'.initialiserPart n here) := by
  unfold Descent.initialiserPart
  split
  · exact (orderly_push h rfl _ n false none).bind fun _ _ ht hid =>
      orderly_addSite hid (ht.scope_lt h.scope) nofun
  · exact hd.type n h
  · exact hd.type n h
  · exact hd.type n h
  · exact (hd.expr n h).discard

theorem initialisers (hd : d.KeepsOrder d') (list : Option SyntaxNode) (h : here.Stands s) :
    Orderly s (d.initialisers list here) (d'.initialisers list here) := by
  unfold Descent.initialisers
  split
  · exact .forM fun i _ => .forM fun part _ => hd.initialiserPart part h
  · exact .done _

/-- A function stands in the scope around it, or in the scope of members that its name leads to. -/
theorem callable (hd : d.KeepsOrder d') (c : Callable) (h : here.Stands s) :
    Orderly s (d.callable c here) (d'.callable c here) := by
  unfold Descent.callable
  refine Proceeds.read fun t ht hin => ?_
  have hhere := h.later ht
  have howner := hin.owner?_lt here.scope
    (c.name.splitQualified.1.map fun q => here.spelling q.nameToken)
  simp only
  generalize t.owner? here.scope _ = owner at howner ⊢
  have houter : (owner.bind fun o => t.memberScopes.lookup o).getD here.scope < t.scopes.size := by
    cases hscope : owner.bind fun o => t.memberScopes.lookup o with
    | none => exact hhere.scope
    | some scope =>
      obtain ⟨o, -, hlookup⟩ := Option.bind_eq_some_iff.mp hscope
      exact hin.memberScope_lt hlookup
  have hkind := callableKind_isDeclaration
  refine (declaring_push hhere (hkind _ _ _ _) _ _ _ _).bind fun id r hr hid =>
    (proceeds_own hid.lt fun o ho => hr.cursor_lt (howner o ho)).seq <|
      (proceeds_declare (hr.scope_lt houter) hid (hkind _ _ _ _)).seq <|
        (proceeds_openScope (hr.scope_lt houter) none).bind fun scope q hq hscope => ?_
  have hinside : (here.within id scope).Stands q := .within (hq.cursor_lt hid.lt) hscope
  refine (hd.templateParameters _ hinside).seq <| (hd.typeOf _ hinside).seq <|
    (hd.qualifiers [] _ hinside).discard.seq <| (hd.parameters _ hinside).seq <|
      (hd.initialisers _ hinside).seq ?_
  split
  · exact hd.block _ hinside
  · exact Orderly.done _

theorem functionDefinition (hd : d.KeepsOrder d') (n : SyntaxNode)
    (template : Option SyntaxNode) (h : here.Stands s) :
    Orderly s (d.functionDefinition n here template) (d'.functionDefinition n here template) := by
  unfold Descent.functionDefinition
  split
  · exact hd.callable _ h
  · exact .done _

theorem declarator (hd : d.KeepsOrder d') (shared : DeclaredAs) (last : Option Nat)
    (n : SyntaxNode) (hkind : shared.kind.isDeclaration = true)
    (hhint : ∀ h ∈ shared.hint, h.Within s.unit.size s.scopes.size) (hlast : Tells last s)
    (h : here.Stands s) :
    Orderly s (d.declarator shared here last n) (d'.declarator shared here last n) Tells := by
  unfold Descent.declarator
  split
  · exact orderly_tell hlast
  · split
    · exact (hd.callable _ h).seq (orderly_tell hlast)
    · exact (orderly_declareNamed h hkind _ _).bind fun id _ ht hid =>
        have hunder := (h.later ht).under hid
        (orderly_setType hid fun x hx => (hhint x hx).mono ht.unit.size ht.scopes).seq <|
          (hd.typeOf _ hunder).seq <|
            (Orderly.forM fun size _ => (hd.expr size hunder).discard).seq <|
              (hd.valueOf _ hunder).seq (orderly_tell (tells_some hid))

/-- The declarators of a declaration in turn, then the default of the last one. -/
theorem declarators (hd : d.KeepsOrder d') (shared : Lowering → DeclaredAs)
    (list : List SyntaxNode) (value : Option SyntaxNode)
    (hkind : ∀ t, (shared t).kind.isDeclaration = true)
    (hhint : ∀ t, s.Later t → ∀ h ∈ (shared t).hint, h.Within t.unit.size t.scopes.size)
    (h : here.Stands s) :
    Orderly s
      (do
        let s ← get
        let last ← list.foldlM (d.declarator (shared s) here) none
        match last with
        | some id => d.valueOf value (here.under id)
        | none => pure ())
      (do
        let s ← get
        let last ← list.foldlM (d'.declarator (shared s) here) none
        match last with
        | some id => d'.valueOf value (here.under id)
        | none => pure ()) := by
  refine Proceeds.read fun t ht _ => ?_
  have hfold : Orderly t (list.foldlM (d.declarator (shared t) here) none)
      (list.foldlM (d'.declarator (shared t) here) none) Tells :=
    .foldlM (fun r _ => tells_none r) fun last r hr hlast c _ =>
      (hd.declarator (shared t) last c (hkind t)
        (fun x hx => (hhint t ht x hx).mono hr.unit.size hr.scopes) (hlast r (.refl r))
        (h.later (ht.trans hr))).imp fun _ _ hlast _ hr => hlast.later hr
  refine hfold.bind fun last r hr hlast => ?_
  cases last with
  | some id => exact hd.valueOf value ((h.later (ht.trans hr)).under (hlast id rfl))
  | none => exact Orderly.done _

/-- The hint for a type is the cursor that it defines, or else its name. -/
theorem within_hint {defined : Option Nat} {t : Lowering} (hdefined : Tells defined t)
    (h : here.Stands t) (type : Option SyntaxNode) :
    ∀ x ∈ (match defined with
      | some id => some (TypeHint.cursor id)
      | none => type.bind (typeHint? here)), x.Within t.unit.size t.scopes.size := by
  cases defined with
  | some id =>
    rintro _ ⟨⟩
    exact hdefined id rfl
  | none => exact within_typeHint? h type

theorem declaration (hd : d.KeepsOrder d') (n : SyntaxNode) (template : Option SyntaxNode)
    (h : here.Stands s) :
    Orderly s (d.declaration n here template) (d'.declaration n here template) := by
  have hkind : ∀ isField : Bool,
      (if isField then CursorKind.fieldDecl else .varDecl).isDeclaration = true :=
    fun isField => by cases isField <;> rfl
  unfold Descent.declaration
  simp only
  split
  · split
    · exact (hd.definedType _ template _ h).bind fun _ _ ht hdefined =>
        hd.declarators _ _ _ (fun _ => hkind _)
          (fun _ hr => within_hint (hdefined.later hr) (h.later (ht.trans hr)) _) (h.later ht)
    · exact Proceeds.bind orderly_tellNone fun _ _ ht hdefined =>
        hd.declarators _ _ _ (fun _ => hkind _)
          (fun _ hr => within_hint (hdefined.later hr) (h.later (ht.trans hr)) _) (h.later ht)
  · exact Proceeds.bind orderly_tellNone fun _ _ ht hdefined =>
      hd.declarators _ _ _ (fun _ => hkind _)
        (fun _ hr => within_hint (hdefined.later hr) (h.later (ht.trans hr)) _) (h.later ht)

/-- The names of a type definition in turn. -/
theorem aliases (hd : d.KeepsOrder d') (type : Option SyntaxNode) (defined : Option Nat)
    (hint : Option TypeHint) (list : List SyntaxNode)
    (hhint : ∀ x ∈ hint, x.Within s.unit.size s.scopes.size) (h : here.Stands s) :
    Orderly s
      (list.forM fun c => do
        match Declarator.ofNode? c with
        | some shape =>
          let id ← declareNamed here .typedefDecl shape.name
          setType id hint
          if defined.isNone then d.typeOf type (here.under id)
        | none => pure ())
      (list.forM fun c => do
        match Declarator.ofNode? c with
        | some shape =>
          let id ← declareNamed here .typedefDecl shape.name
          setType id hint
          if defined.isNone then d'.typeOf type (here.under id)
        | none => pure ()) := by
  refine .forM fun c _ => ?_
  split
  · exact (orderly_declareNamed h rfl _ true).bind fun _ _ ht hid =>
      (orderly_setType hid fun x hx => (hhint x hx).mono ht.unit.size ht.scopes).seq
        (.ite (hd.typeOf type ((h.later ht).under hid)) (Orderly.done _))
  · exact .done _

theorem typedefinition (hd : d.KeepsOrder d') (n : SyntaxNode) (h : here.Stands s) :
    Orderly s (d.typedefinition n here) (d'.typedefinition n here) := by
  unfold Descent.typedefinition
  simp only
  split
  · split
    · exact (hd.definedType _ none false h).bind fun _ _ ht hdefined =>
        hd.aliases _ _ _ _ (within_hint hdefined (h.later ht) _) (h.later ht)
    · exact Proceeds.bind orderly_tellNone fun _ _ ht hdefined =>
        hd.aliases _ _ _ _ (within_hint hdefined (h.later ht) _) (h.later ht)
  · exact Proceeds.bind orderly_tellNone fun _ _ ht hdefined =>
      hd.aliases _ _ _ _ (within_hint hdefined (h.later ht) _) (h.later ht)

theorem typeAlias (hd : d.KeepsOrder d') (n : SyntaxNode) (h : here.Stands s) :
    Orderly s (d.typeAlias n here) (d'.typeAlias n here) := by
  unfold Descent.typeAlias
  split
  · refine (orderly_declareNamed h rfl _ true).bind fun _ _ ht hid => ?_
    split
    · exact (orderly_setType hid (within_typeHint? (h.later ht) _)).seq
        (hd.type _ ((h.later ht).under hid))
    · exact Orderly.done _
  · exact .done _

theorem template (hd : d.KeepsOrder d') (n : SyntaxNode) (h : here.Stands s) :
    Orderly s (d.template n here) (d'.template n here) := by
  unfold Descent.template
  simp only
  split
  · exact .done _
  · split
    · exact (hd.record _ _ true h).discard
    · split
      · exact hd.functionDefinition _ _ h
      · exact hd.declaration _ _ h
      · exact hd.declaration _ _ h
      · exact hd.item _ h

/-! ### Types, statements and expressions -/

theorem typeStep (hd : d.KeepsOrder d') (n : SyntaxNode) (h : here.Stands s) :
    Orderly s (d.typeStep n here) (d'.typeStep n here) := by
  unfold Descent.typeStep
  cases TypeForm.ofNode n with
  | name => exact orderly_typeReference h n
  | qualified => exact (hd.qualifiedReference n rfl h).discard
  | templated => exact hd.templateReference n h
  | record => exact (hd.record n none false h).discard
  | enumeration => exact (hd.enumeration n h).discard
  | descriptor => exact hd.typeOf _ h
  | nameless => exact .done _
  | compound => exact .forM fun c _ => hd.type c h

theorem exprOf (hd : d.KeepsOrder d') (n : Option SyntaxNode) (h : here.Stands s) :
    Orderly s (d.exprOf n here) (d'.exprOf n here) Tells := by
  unfold Descent.exprOf
  split
  · exact hd.expr _ h
  · exact orderly_tellNone

theorem memberUse (hd : d.KeepsOrder d') (n : SyntaxNode) (h : here.Stands s) :
    Orderly s (d.memberUse n here) (d'.memberUse n here) Tells := by
  unfold Descent.memberUse
  split
  · exact orderly_tellNone
  · refine (hd.exprOf _ h).bind fun base t ht hbase => ?_
    refine orderly_use (h.later ht) rfl _ _ (fun value hvalue => ?_) fun id _ _ hid =>
      orderly_tell (tells_some hid)
    split at hvalue
    · cases hvalue
    · cases hvalue
      exact hbase value rfl

theorem call (hd : d.KeepsOrder d') (n : SyntaxNode) (h : here.Stands s) :
    Orderly s (d.call n here) (d'.call n here) := by
  unfold Descent.call
  split
  · exact .done _
  · exact (orderly_push h rfl _ _ false none).bind fun _ _ ht hid =>
      have hunder := (h.later ht).under hid
      (hd.expr _ hunder).discard.seq (hd.exprOf _ hunder).discard

theorem rangeLoop (hd : d.KeepsOrder d') (n : SyntaxNode) (h : here.Stands s) :
    Orderly s (d.rangeLoop n here) (d'.rangeLoop n here) := by
  have hrest : Orderly s
      (do discard (d.exprOf (n.child? .right) here); discard (d.exprOf (n.child? .body) here))
      (do discard (d'.exprOf (n.child? .right) here); discard (d'.exprOf (n.child? .body) here)) :=
    (hd.exprOf _ h).discard.seq (hd.exprOf _ h).discard
  unfold Descent.rangeLoop
  simp only
  split
  · exact (orderly_declareNamed h rfl _ true).bind fun _ _ ht hid =>
      (orderly_setType hid (within_typeHint? (h.later ht) _)).seq <|
        (hd.typeOf _ ((h.later ht).under hid)).seq (hrest.later ht)
  · exact hrest

theorem exprStep (hd : d.KeepsOrder d') (n : SyntaxNode) (h : here.Stands s) :
    Orderly s (d.exprStep n here) (d'.exprStep n here) Tells := by
  have hnone : ∀ t : Lowering, s.Later t → Tells none t := fun t _ => tells_none t
  unfold Descent.exprStep
  cases ExprForm.ofNode n with
  | name => exact orderly_nameUse h n
  | qualified => exact hd.qualifiedReference n rfl h
  | member => exact hd.memberUse n h
  | call => exact (hd.call n h).seq orderly_tellNone
  | templated =>
    exact (hd.exprOf _ h).bind fun value _ ht hvalue =>
      (hd.argumentsOf n (h.later ht)).seq (orderly_tell hvalue)
  | parenthesized =>
    exact .foldlM hnone fun _ _ ht _ c _ =>
      (hd.expr c (h.later ht)).imp fun _ _ hvalue _ hr => hvalue.later hr
  | element =>
    exact (hd.exprOf _ h).bind fun value _ ht hvalue =>
      (Orderly.forM fun i _ => (hd.expr i (h.later ht)).discard).seq <|
        (hd.exprOf _ (h.later ht)).discard.seq (orderly_tell hvalue)
  | rangeLoop => exact (hd.rangeLoop n h).seq orderly_tellNone
  | closure =>
    simp only
    split
    · exact (hd.block _ h).seq orderly_tellNone
    · exact orderly_tellNone
  | block => exact (hd.block n h).seq orderly_tellNone
  | declaration => exact (hd.declaration n none h).seq orderly_tellNone
  | type => exact (hd.typeStep n h).seq orderly_tellNone
  | leaf => exact orderly_tellNone
  | compound =>
    exact (Orderly.forM fun c _ => (hd.expr c h).discard).seq orderly_tellNone

/-! ### Items -/

theorem inclusion (hd : d.KeepsOrder d') (headers : Headers) (n : SyntaxNode)
    (h : here.Stands s) :
    Orderly s (d.inclusion headers n here) (d'.inclusion headers n here) := by
  unfold Descent.inclusion
  split
  · exact .done _
  · refine (orderly_push h rfl _ n false none).discard.seq ?_
    split
    · exact Orderly.done _
    · refine (orderly_enter _ _).bind fun _ _ ht _ => .ite ?_ (Orderly.done _)
      split
      · exact hd.file ⟨(h.later ht).parent, (h.later ht).scope⟩
      · exact Orderly.done _

/-- A namespace whose scope is known. -/
theorem spaceIn (hd : d.KeepsOrder d') {isDefinition : Bool} {name : String}
    (body : Option SyntaxNode) {id scope : Nat}
    (hid : s.unit.Has id .namespaceDecl name isDefinition) (hscope : scope < s.scopes.size)
    (h : here.Stands s) :
    Proceeds s [id]
      (do
        setMembers id scope
        declare here.scope name id
        match body with
        | some body => d.items body (here.within id scope)
        | none => pure ())
      (do
        setMembers id scope
        declare here.scope name id
        match body with
        | some body => d'.items body (here.within id scope)
        | none => pure ())
      (fun _ _ => True) fun _ => [] := by
  refine (proceeds_setMembers hid.lt hscope).seq ((proceeds_declare h.scope hid rfl).seq ?_)
  split
  · exact hd.items _ (.within hid.lt hscope)
  · exact Orderly.done _

/-- A namespace gets a scope of its own, or the one that it has already. -/
theorem space (hd : d.KeepsOrder d') (n : SyntaxNode) (h : here.Stands s) :
    Orderly s (d.space n here) (d'.space n here) := by
  unfold Descent.space
  simp only
  refine (declaring_push h rfl _ _ true none).bind fun id t ht hid =>
    Proceeds.read fun r hr hin => ?_
  have hhere := h.later (ht.trans hr)
  have hid' := hr.unit.has hid
  split
  · rename_i scope hreopened
    obtain ⟨o, -, hlookup⟩ := Option.bind_eq_some_iff.mp hreopened
    exact Proceeds.bind (.pure scope fun _ hq => hq.scope_lt (hin.memberScope_lt hlookup))
      fun scope q hq hscope => hd.spaceIn _ (hq.unit.has hid') hscope (hhere.later hq)
  · exact (proceeds_openScope hhere.scope none).bind fun scope q hq hscope =>
      hd.spaceIn _ (hq.unit.has hid') hscope (hhere.later hq)

theorem itemStep (hd : d.KeepsOrder d') (headers : Headers) (n : SyntaxNode)
    (h : here.Stands s) :
    Orderly s (d.itemStep headers n here) (d'.itemStep headers n here) := by
  unfold Descent.itemStep
  cases ItemForm.ofNode n with
  | inclusion => exact hd.inclusion headers n h
  | macroDefinition => exact orderly_macroDefinition h n
  | directive => exact orderly_directive n
  | group => exact hd.items n h
  | linkage =>
    simp only
    split
    · exact .ite (hd.items _ h) (hd.item _ h)
    · exact .done _
  | space => exact hd.space n h
  | record => exact (hd.record n none true h).discard
  | enumeration => exact (hd.enumeration n h).discard
  | function => exact hd.functionDefinition n none h
  | declaration => exact hd.declaration n none h
  | typedefinition => exact hd.typedefinition n h
  | typeAlias => exact hd.typeAlias n h
  | template => exact hd.template n h
  | other => exact .done _

/-- One level up. -/
theorem step (hd : d.KeepsOrder d') {file file' : Here → Lower Unit}
    (hfile : ∀ {s : Lowering} {here : Here}, here.Stands s → Orderly s (file here) (file' here))
    (headers : Headers) :
    Descent.KeepsOrder
      { file, item := d.itemStep headers, type := d.typeStep, expr := d.exprStep }
      { file := file', item := d'.itemStep headers, type := d'.typeStep, expr := d'.exprStep } where
  file := hfile
  item n _ _ h := hd.itemStep headers n h
  type n _ _ h := hd.typeStep n h
  expr n _ _ h := hd.exprStep n h

/-- To look around on the way makes no difference. -/
theorem heeding (hd : d.KeepsOrder d') (elsewhere : Descent) :
    d.KeepsOrder (d'.heeding elsewhere) where
  file h := (hd.file h).heed h _
  item n _ _ h := (hd.item n h).heed h _
  type n _ _ h := (hd.type n h).heed h _
  expr n _ _ h := (hd.expr n h).heed h _

end KeepsOrder

/-- Whole files aside, nothing is lowered. -/
theorem keepsOrder_idle {file file' : Here → Lower Unit}
    (hfile : ∀ {s : Lowering} {here : Here}, here.Stands s →
      Orderly s (file here) (file' here)) :
    ({ idle with file } : Descent).KeepsOrder { idle with file := file' } where
  file := hfile
  item _ _ _ _ := .done _
  type _ _ _ _ := .done _
  expr _ _ _ _ := orderly_tellNone

/-- A descent keeps order at all levels, if it lowers whole files so. -/
theorem keepsOrder_below (elsewhere : Descent) (headers : Headers) {file file' : Here → Lower Unit}
    (hfile : ∀ {s : Lowering} {here : Here}, here.Stands s → Orderly s (file here) (file' here))
    (level : Nat) :
    (below headers file level).KeepsOrder (belowHeeding elsewhere headers file' level) := by
  induction level with
  | zero => exact (keepsOrder_idle hfile).heeding elsewhere
  | succ level ih =>
    exact (ih.step hfile headers).heeding elsewhere

end Descent

/-! ## Whole units -/

namespace Lowering

/-- A file is lowered in order, however deeply headers nest. -/
theorem orderly_file (elsewhere : Descent) (headers : Headers) (nesting : Nat) {s : Lowering}
    {here : Here} (h : here.Stands s) :
    Orderly s (file headers nesting here) (fileHeeding elsewhere headers nesting here) := by
  induction nesting generalizing s here with
  | zero => exact .done _
  | succ nesting ih =>
    exact (Descent.keepsOrder_below elsewhere headers (fun h => ih h) _).items _ h

/-- The lowering of a unit, from its first item to its last. -/
theorem orderly_unit (elsewhere : Descent) (headers : Headers) (main : Source) :
    let here : Here := { source := main, depth := 0, parent := 0, scope := Scopes.global }
    Orderly (start headers main)
      (do file headers (maxNesting headers) here; flushExpansions)
      (do fileHeeding elsewhere headers (maxNesting headers) here; flushExpansions) :=
  (orderly_file elsewhere headers _ ⟨Nat.zero_lt_one, Nat.zero_lt_one⟩).seq orderly_flushExpansions

/-- **At every node a lowering stands in order**, below a cursor and in a scope that are there: to
    do something else anywhere else makes no difference. -/
theorem collectHeeding_eq (elsewhere : Descent) (headers : Headers) (main : Source) :
    collectHeeding elsewhere headers main = collect headers main :=
  congrArg Prod.snd
    (orderly_unit elsewhere headers main _ (.refl _) (inOrder_init _ _)).1

/-- **A lowering is a row of acts in range**, and it declares the cursors that declare something one
    after the other. -/
theorem passes_collect (headers : Headers) (main : Source) :
    ∃ acts, Passes (start headers main) acts (collect headers main) ∧
      (collect headers main).unit.declarations = declared acts := by
  obtain ⟨-, -, acts, hpasses, haccounts⟩ :=
    orderly_unit .idle headers main _ (.refl _) (inOrder_init _ _)
  refine ⟨acts, hpasses, ?_⟩
  have hnone : (start headers main).unit.declarations = [] ++ [] := rfl
  rw [show (collect headers main).unit.declarations = _ from haccounts [] hnone,
    List.nil_append, List.append_nil]

end Lowering

end SymbolAtlas
