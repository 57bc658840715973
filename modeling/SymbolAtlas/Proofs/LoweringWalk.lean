import SymbolAtlas.Proofs.LoweringSteps

/-!
# A lowering, node by node

Every step of a lowering is put together from the changes of `Lowering.Step`, and hands over to the
nodes strictly below its own.  So two lowerings are alike at a node if they are alike below it, and
how far a descent could go on under the lowest node does not matter.

* `Descent.inclusion_run` — what an include directive does.
* `Lockstep.Descends` — two descents are alike on all nodes up to a height.

Principal results: `Lockstep.Descends.itemStep`, `.typeStep`, `.exprStep` — the steps on one node
are alike where those on the nodes below are; `Paired.collect` — two lowerings of a unit correspond
from the first item to the last one; `Steady.collect` — what is steady and holds before anything is
lowered holds of the whole unit; `Lowering.reaches_collect` — a lowering makes nothing but its
changes.
-/

set_option autoImplicit false

namespace SymbolAtlas

open Lowering (Fact OpenFile Directive Change Reaches Runs)

namespace SyntaxNode

variable {n c : SyntaxNode} {b : Nat}

theorem height_pos (n : SyntaxNode) : 0 < n.height := by
  cases n with
  | node => exact Nat.succ_pos _

theorem le_of_named (h : c ∈ n.namedChildren) (hn : n.height ≤ b + 1) : c.height ≤ b :=
  Nat.le_of_lt_succ (Nat.lt_of_lt_of_le (height_namedChildren h) hn)

theorem le_of_field {f : Field} (h : c ∈ n.fieldChildren f) (hn : n.height ≤ b + 1) :
    c.height ≤ b :=
  Nat.le_of_lt_succ (Nat.lt_of_lt_of_le (height_fieldChildren h) hn)

theorem le_of_child {f : Field} (hn : n.height ≤ b + 1) : ∀ c ∈ n.child? f, c.height ≤ b :=
  fun _ h => Nat.le_of_lt_succ (Nat.lt_of_lt_of_le (height_child? h) hn)

end SyntaxNode

namespace Category

theorem ofCursor_of_isRecord {k : CursorKind} (h : k.isRecord = true) :
    ofCursor k true ≠ .reference := by
  cases k <;> first | decide | cases h

end Category

namespace Descent

theorem recordKind_isRecord (n : SyntaxNode) (template : Option SyntaxNode) :
    (recordKind n template).isRecord = true := by
  unfold recordKind
  split
  · rfl
  · split <;> rfl

theorem qualifierKind_isReference (n : SyntaxNode) : (qualifierKind n).isReference = true := by
  unfold qualifierKind
  split <;> rfl

theorem qualifierKind_ne (n : SyntaxNode) : qualifierKind n ≠ .macroExpansion := by
  unfold qualifierKind
  split <;> decide

theorem callableKind_isDeclaration (name : String) (last : SyntaxNode) (record : Option String)
    (isTemplate : Bool) : (callableKind name last record isTemplate).isDeclaration = true := by
  unfold callableKind
  repeat' split
  all_goals rfl

theorem callableKind_isRecord (name : String) (last : SyntaxNode) (record : Option String)
    (isTemplate : Bool) : (callableKind name last record isTemplate).isRecord = false := by
  unfold callableKind
  repeat' split
  all_goals rfl

theorem callableKind_category (name : String) (last : SyntaxNode) (record : Option String)
    (isTemplate isDefinition : Bool) :
    Category.ofCursor (callableKind name last record isTemplate) isDefinition ≠ .reference := by
  unfold callableKind
  repeat' split
  all_goals cases isDefinition <;> decide

/-- All parts of a function are at most this high. -/
structure Callable.Below (b : Nat) (c : Callable) : Prop where
  declarator : c.declarator.height ≤ b
  name : c.name.height ≤ b
  returnType : ∀ t ∈ c.returnType, t.height ≤ b
  body : ∀ t ∈ c.body, t.height ≤ b
  initialisers : ∀ t ∈ c.initialisers, t.height ≤ b
  template : ∀ t ∈ c.template, t.height ≤ b

/-- What the declarators of one declaration share is at most this high, and they declare variables
    or fields. -/
structure DeclaredAs.Below (b : Nat) (shared : DeclaredAs) : Prop where
  kind : shared.kind = .fieldDecl ∨ shared.kind = .varDecl
  type : ∀ t ∈ shared.type, t.height ≤ b
  template : ∀ t ∈ shared.template, t.height ≤ b

theorem DeclaredAs.Below.isDeclaration {b : Nat} {shared : DeclaredAs} (h : shared.Below b) :
    shared.kind.isDeclaration = true := by
  obtain hkind | hkind := h.kind
  · rw [hkind]; rfl
  · rw [hkind]; rfl

theorem DeclaredAs.Below.isRecord {b : Nat} {shared : DeclaredAs} (h : shared.Below b) :
    shared.kind.isRecord = false := by
  obtain hkind | hkind := h.kind
  · rw [hkind]; rfl
  · rw [hkind]; rfl

theorem DeclaredAs.Below.category {b : Nat} {shared : DeclaredAs} (h : shared.Below b)
    (isDefinition : Bool) : Category.ofCursor shared.kind isDefinition ≠ .reference := by
  obtain hkind | hkind := h.kind
  · rw [hkind]; exact Category.noConfusion
  · rw [hkind]; exact Category.noConfusion

end Descent

/-! ## Beyond the lowest level -/

namespace Descent

/-- A descent with another one under its lowest level. -/
def belowFrom (base : Descent) (headers : Headers) (file : Here → Lower Unit) : Nat → Descent
  | 0 => { base with file }
  | n + 1 =>
    let d := belowFrom base headers file n
    { file, item := d.itemStep headers, type := d.typeStep, expr := d.exprStep }

theorem belowFrom_idle (headers : Headers) (file : Here → Lower Unit) (n : Nat) :
    belowFrom .idle headers file n = below headers file n := by
  induction n with
  | zero => rfl
  | succ n ih => rw [belowFrom, below, ih]

theorem belowFrom_file (base : Descent) (headers : Headers) (file : Here → Lower Unit) (n : Nat) :
    (belowFrom base headers file n).file = file := by
  cases n with
  | zero => rfl
  | succ n => rfl

end Descent

/-! ## Include directives -/

theorem Headers.enter_run_of_new {header : Path} {s : Lowering}
    (h : s.included.contains header = false) (depth : Nat) :
    (Headers.enter header depth).run s =
      (true, { s with
        included := header :: s.included
        unit := s.unit.addInclusion header depth }) := by
  show (if s.included.contains header then _ else _) = _
  rw [if_neg (by simp [h])]

theorem Headers.enter_run_fst (header : Path) (s : Lowering) (depth : Nat) :
    ((Headers.enter header depth).run s).1 = !s.included.contains header := by
  cases h : s.included.contains header with
  | true => rw [Headers.enter_of_mem h depth]; rfl
  | false => rw [Headers.enter_run_of_new h depth]; rfl

/-- What an include directive does: it is met, and the header that it opens is lowered. -/
theorem Descent.inclusion_run (d : Descent) (headers : Headers) {n token : SyntaxNode} (here : Here)
    (htoken : n.child? .path = some token) (path : Path) (s : Lowering) :
    let e : Directive := ⟨⟨path, here.source, here.depth⟩, n, token⟩
    (d.inclusion headers n here).run s =
      match e.opens? headers s with
      | none => ((), Lowering.meet headers s here.parent e)
      | some inner =>
        (d.file { here with source := inner.source, depth := inner.depth }).run
          (Lowering.meet headers s here.parent e) := by
  intro e
  have hfind : headers.find? (Headers.spelledName (here.spelling token))
      (token.kind = "string_literal") here.source.path = e.header? headers := rfl
  have hpush : (discard (Lowering.push here .inclusionDirective
      (Headers.spelledName (here.spelling token)) n false) : Lower Unit).run s =
      ((), { s with unit := s.unit.push here.parent e.cursor }) := rfl
  unfold Descent.inclusion Directive.opens? Lowering.meet Directive.new?
  rw [htoken]
  simp only [hfind]
  rw [StateT.run_bind, hpush]
  cases e.header? headers with
  | none => rfl
  | some header =>
    have henter : (Headers.enter header (here.depth + 1)).run { s with
        unit := s.unit.push here.parent e.cursor } =
        if s.included.contains header then (false, { s with
          unit := s.unit.push here.parent e.cursor })
        else (true, { s with
          included := header :: s.included
          unit := (s.unit.push here.parent e.cursor).addInclusion header (here.depth + 1) }) := rfl
    show StateT.run (_ >>= _) _ = _
    rw [StateT.run_bind, henter]
    rw [Option.filter_some]
    cases s.included.contains header with
    | true => rfl
    | false =>
      simp only [Bool.not_false, if_true, Option.bind_some]
      cases headers.load header with
      | none => rfl
      | some source => rfl

namespace Lockstep

variable {W : Lockstep} {file : OpenFile} {K : Fact} {here : Here} {q : Path} {d d' : Descent}

/-- The same two lowerings, whose states correspond in another way. -/
def within (W : Lockstep) {R : Lowering → Lowering → Prop} (hR : Paired R W.P) : Lockstep :=
  { W with R, paired := hR }

/-- Where both lowerings meet a header for the first time, their states correspond by `R` behind
    that, and they read the same under paths that are paired, or nothing. -/
def MeetsBy (W : Lockstep) (R : Lowering → Lowering → Prop) : Prop :=
  ∀ {e : Directive} {header : Path} {s s' : Lowering} (depth : Nat),
    e.header? W.headers = some header → s.included.contains header = false → W.R s s' →
      R ((Headers.enter header depth).run s).2 ((Headers.enter header depth).run s').2 ∧
        ((W.headers.load header = none ∧ W.headers'.load header = none) ∨
          ∃ source q, W.headers.load header = some source ∧
            W.headers'.load header = some { source with path := q } ∧ W.P source.path q)

/-- Include directives lead both lowerings to the same headers. -/
def FindsAlike (W : Lockstep) : Prop :=
  ∀ name quoted {p q}, W.P p q →
    W.headers'.find? name quoted q = W.headers.find? name quoted p

/-- Include directives are alike, where whole files are lowered so. -/
def IncludesAlike (W : Lockstep) (lower lower' : Here → Lower Unit) : Prop :=
  ∀ {file : OpenFile} {K : Fact} {here : Here} {q : Path} {d d' : Descent} (n : SyntaxNode),
    d.file = lower → d'.file = lower' → W.Stands file K here q →
      W.Alike file K (d.inclusion W.headers n here)
        (d'.inclusion W.headers' n (here.respelled q))

/-- Both lowerings have met the same headers. -/
theorem included_eq (W : Lockstep) {s s' : Lowering} (hs : W.R s s') (header : Path) :
    s'.included.contains header = s.included.contains header := by
  have hfirst := (W.paired.enter header 0 s s' hs).1
  rw [Headers.enter_run_fst, Headers.enter_run_fst] at hfirst
  exact (Bool.not_inj hfirst).symm

/-- A directive leads both lowerings to the same new header, or to none. -/
theorem new?_eq (hfinds : W.FindsAlike) (h : W.Stands file K here q) {s s' : Lowering}
    (hs : W.R s s') (n token : SyntaxNode) :
    (⟨⟨file.path, (here.respelled q).source, here.depth⟩, n, token⟩ : Directive).new?
        W.headers' s' =
      (⟨⟨file.path, here.source, here.depth⟩, n, token⟩ : Directive).new? W.headers s := by
  have hsame : (⟨⟨file.path, (here.respelled q).source, here.depth⟩, n, token⟩ :
      Directive).header? W.headers' =
        (⟨⟨file.path, here.source, here.depth⟩, n, token⟩ : Directive).header? W.headers :=
    hfinds _ _ h.path
  rw [Directive.new?, Directive.new?, hsame]
  simp only [W.included_eq hs]

/-- Include directives are alike, where the files that they open are lowered so. -/
theorem includesAlike {R : Lowering → Lowering → Prop} (hR : Paired R W.P) (hfinds : W.FindsAlike)
    (hmeets : W.MeetsBy R) (hback : ∀ s s', R s s' → W.R s s') {lower lower' : Here → Lower Unit}
    (hlower : ∀ {file : OpenFile} {K : Fact} {here : Here} {q : Path}, W.Stands file K here q →
      (W.within hR).Alike file K (lower here) (lower' (here.respelled q))) :
    W.IncludesAlike lower lower' := by
  intro file K here q d d' n hd hd' h s s' hs hK
  subst hd hd'
  cases htoken : n.child? .path with
  | none =>
    unfold Descent.inclusion
    rw [htoken]
    exact ⟨rfl, hs, .refl s, trivial⟩
  | some token =>
    rw [Descent.inclusion_run d W.headers here htoken file.path,
      Descent.inclusion_run d' W.headers' (here.respelled q) htoken file.path]
    have hholder : (⟨file.path, here.source, here.depth⟩ : OpenFile) = file := by
      rw [h.source, h.depth]
    let e : Directive := ⟨⟨file.path, here.source, here.depth⟩, n, token⟩
    let e' : Directive := ⟨⟨file.path, (here.respelled q).source, here.depth⟩, n, token⟩
    have hreceives := h.receives s hK
    have hpushed : W.R { s with unit := s.unit.push here.parent e.cursor }
        { s' with unit := s'.unit.push here.parent e'.cursor } :=
      (W.paired.push h.path .inclusionDirective e.name n false none s s' hs).2
    have hnew' : e'.new? W.headers' s' = e.new? W.headers s := new?_eq hfinds h hs n token
    have hpass : ∀ {t'}, e.opens? W.headers s = none →
        W.R (Lowering.meet W.headers s here.parent e) t' →
        W.Ends file (fun _ => .always) s ((), Lowering.meet W.headers s here.parent e)
          ((), t') := fun hopens hstates => by
      refine ⟨rfl, hstates, ?_, trivial⟩
      rw [← hholder]
      exact .pass hreceives hopens
    show W.Ends file _ s
      (match e.opens? W.headers s with
      | none => ((), Lowering.meet W.headers s here.parent e)
      | some inner =>
        (d.file { here with source := inner.source, depth := inner.depth }).run
          (Lowering.meet W.headers s here.parent e))
      (match e'.opens? W.headers' s' with
      | none => ((), Lowering.meet W.headers' s' here.parent e')
      | some inner =>
        (d'.file { here with source := inner.source, depth := inner.depth }).run
          (Lowering.meet W.headers' s' here.parent e'))
    cases hnew : e.new? W.headers s with
    | none =>
      rw [hnew] at hnew'
      have hopens := Directive.opens?_of_old hnew
      rw [Directive.opens?_of_old hnew', hopens]
      refine hpass hopens ?_
      rw [Lowering.meet_of_old hnew, Lowering.meet_of_old hnew']
      exact hpushed
    | some header =>
      rw [hnew] at hnew'
      obtain ⟨hheader, hknown⟩ := Directive.new?_eq_some_iff.mp hnew
      obtain ⟨hmet, hload⟩ := hmeets (here.depth + 1) hheader (by exact hknown) hpushed
      rw [Headers.enter_run_of_new (by exact hknown),
        Headers.enter_run_of_new (by exact (W.included_eq hs header).trans hknown)] at hmet
      have hstates : R (Lowering.meet W.headers s here.parent e)
          (Lowering.meet W.headers' s' here.parent e') := by
        rw [Lowering.meet_of_new hnew, Lowering.meet_of_new hnew']
        exact hmet
      have hopens := Directive.opens?_of_new hnew
      rw [Directive.opens?_of_new hnew', hopens]
      obtain ⟨hnone, hnone'⟩ | ⟨source, p, hsource, hsource', hp⟩ := hload
      · rw [hnone] at hopens
        rw [hnone, hnone']
        exact hpass hopens (hback _ _ hstates)
      · rw [hsource] at hopens
        rw [hsource, hsource']
        have hstands : W.Stands ⟨header, source, here.depth + 1⟩ (.receives here.parent)
            { here with source, depth := here.depth + 1 } p :=
          ⟨hp, rfl, rfl, Fact.gives_self _⟩
        have hends := hlower hstands _ _ hstates
          ((Lowering.meet_grows W.headers s here.parent e).unit.receives hreceives)
        refine ⟨hends.result, hback _ _ hends.states, ?_, trivial⟩
        rw [← hholder]
        exact .nested hreceives hopens hends.reaches

/-! ## What lies below a node -/

/-- The ways to lower nodes of at most this height, and include directives, are alike. -/
structure Descends (W : Lockstep) (b : Nat) (d d' : Descent) : Prop where
  item : ∀ {file : OpenFile} {K : Fact} {n : SyntaxNode} {here : Here} {q : Path}, n.height ≤ b →
    W.Stands file K here q → W.Alike file K (d.item n here) (d'.item n (here.respelled q))
  type : ∀ {file : OpenFile} {K : Fact} {n : SyntaxNode} {here : Here} {q : Path}, n.height ≤ b →
    W.Stands file K here q → W.Alike file K (d.type n here) (d'.type n (here.respelled q))
  expr : ∀ {file : OpenFile} {K : Fact} {n : SyntaxNode} {here : Here} {q : Path}, n.height ≤ b →
    W.Stands file K here q → W.Alike file K (d.expr n here) (d'.expr n (here.respelled q))
  inclusion : ∀ {file : OpenFile} {K : Fact} {here : Here} {q : Path} (n : SyntaxNode),
    W.Stands file K here q →
      W.Alike file K (d.inclusion W.headers n here) (d'.inclusion W.headers' n (here.respelled q))

namespace Descends

open SyntaxNode (le_of_named le_of_field le_of_child)

variable {b : Nat} {n : SyntaxNode}

/-! ### Names -/

theorem templateArguments (hd : W.Descends b d d') {arguments : SyntaxNode}
    (hn : arguments.height ≤ b + 1) (h : W.Stands file K here q) :
    W.Alike file K (d.templateArguments arguments here)
      (d'.templateArguments arguments (here.respelled q)) :=
  .forM fun _ ha => .ite (hd.type (le_of_named ha hn) h) (hd.expr (le_of_named ha hn) h).discard

theorem argumentsOf (hd : W.Descends b d d') (hn : n.height ≤ b + 1) (h : W.Stands file K here q) :
    W.Alike file K (d.argumentsOf n here) (d'.argumentsOf n (here.respelled q)) := by
  unfold Descent.argumentsOf
  split
  · rename_i arguments harguments
    exact hd.templateArguments (Nat.le_succ_of_le (le_of_child hn _ harguments)) h
  · exact .pure _

theorem templateReference (hd : W.Descends b d d') (hn : n.height ≤ b + 1)
    (h : W.Stands file K here q) :
    W.Alike file K (d.templateReference n here) (d'.templateReference n (here.respelled q)) := by
  unfold Descent.templateReference
  split
  · exact useThen h rfl (by decide) fun _ => hd.argumentsOf hn h
  · exact hd.argumentsOf hn h

theorem qualifiers (hd : W.Descends b d d') (path : List String) {scopes : List SyntaxNode}
    (hscopes : ∀ scope ∈ scopes, scope.height ≤ b + 1) (h : W.Stands file K here q) :
    W.Alike file K (d.qualifiers here path scopes)
      (d'.qualifiers (here.respelled q) path scopes) := by
  induction scopes generalizing path with
  | nil => exact .pure _
  | cons scope rest ih =>
    refine useThen h (Descent.qualifierKind_isReference scope) (Descent.qualifierKind_ne scope)
      fun _ => ?_
    exact (hd.argumentsOf (hscopes scope List.mem_cons_self) h).seq fun _ =>
      ih _ fun s hs => hscopes s (List.mem_cons_of_mem scope hs)

theorem qualifiedReference (hd : W.Descends b d d') (hn : n.height ≤ b + 1) {kind : CursorKind}
    (hkind : kind.isReference = true) (hnotMacro : kind ≠ .macroExpansion)
    (h : W.Stands file K here q) :
    W.Alike file K (d.qualifiedReference n here kind)
      (d'.qualifiedReference n (here.respelled q) kind) := by
  obtain ⟨hscopes, hlast⟩ := SyntaxNode.height_splitQualified n
  refine (hd.qualifiers [] (fun s hs => Nat.le_trans (Nat.le_of_lt (hscopes s hs)) hn) h).seq
    fun _ => .ite (.pure _) (useThen h hkind hnotMacro fun _ => ?_)
  exact (hd.argumentsOf (Nat.le_trans hlast hn) h).seq fun _ => .pure _

/-! ### Declarations -/

theorem items (hd : W.Descends b d d') (hn : n.height ≤ b + 1) (h : W.Stands file K here q) :
    W.Alike file K (d.items n here) (d'.items n (here.respelled q)) :=
  .forM fun _ hc => (hd.item (le_of_named hc hn) h).seq fun _ => .ite flushExpansions (.pure _)

theorem block (hd : W.Descends b d d') (hn : n.height ≤ b + 1) (h : W.Stands file K here q) :
    W.Alike file K (d.block n here) (d'.block n (here.respelled q)) := by
  refine (push h false none rfl (by decide) (.inr (.inl rfl))).bind fun id =>
    (openScope _ _).seq fun scope => .forM fun c hc => ?_
  exact (hd.expr (le_of_named hc hn)
    (h.within (Fact.made_gives_receives id "" (by decide)) scope)).discard

theorem typeOf (hd : W.Descends b d d') {type : Option SyntaxNode}
    (ht : ∀ t ∈ type, t.height ≤ b) (h : W.Stands file K here q) :
    W.Alike file K (d.typeOf type here) (d'.typeOf type (here.respelled q)) := by
  unfold Descent.typeOf
  split
  · exact hd.type (ht _ rfl) h
  · exact .pure _

theorem valueOf (hd : W.Descends b d d') {value : Option SyntaxNode}
    (hv : ∀ v ∈ value, v.height ≤ b) (h : W.Stands file K here q) :
    W.Alike file K (d.valueOf value here) (d'.valueOf value (here.respelled q)) := by
  unfold Descent.valueOf
  split
  · exact (hd.expr (hv _ rfl) h).discard
  · exact .pure _

theorem templateParameter (hd : W.Descends b d d') (hn : n.height ≤ b + 1)
    (h : W.Stands file K here q) :
    W.Alike file K (d.templateParameter n here) (d'.templateParameter n (here.respelled q)) := by
  unfold Descent.templateParameter
  split
  · split
    · exact (declareNamed h true rfl rfl).discard
    · exact .pure _
  · split
    · exact (declareNamed h true rfl rfl).discard
    · exact .pure _
  · split
    · exact (declareNamed h true rfl rfl).bind fun id => hd.typeOf (le_of_child hn)
        (h.under (Fact.made_gives_receives id _ (by decide)))
    · exact .pure _
  · split
    · split
      · exact (declareNamed h true rfl rfl).bind fun id => hd.typeOf (le_of_child hn)
          (h.under (Fact.made_gives_receives id _ (by decide)))
      · exact .pure _
    · exact .pure _

theorem templateParameters (hd : W.Descends b d d') {list : Option SyntaxNode}
    (hl : ∀ l ∈ list, l.height ≤ b) (h : W.Stands file K here q) :
    W.Alike file K (d.templateParameters list here)
      (d'.templateParameters list (here.respelled q)) := by
  unfold Descent.templateParameters
  split
  · exact .forM fun p hp => hd.templateParameter
      (Nat.le_succ_of_le (le_of_named hp (Nat.le_succ_of_le (hl _ rfl)))) h
  · exact .pure _

/-- The inside of a record. -/
theorem recordBody (hd : W.Descends b d d') (hn : n.height ≤ b + 1) {body : SyntaxNode}
    (hbody : body.height ≤ b) {template : Option SyntaxNode} (ht : ∀ t ∈ template, t.height ≤ b)
    (id : Nat) (h : W.Stands file K here q) :
    W.Alike file K
      (do
        d.templateParameters template here
        (n.namedChildren.filter (·.kind == "base_class_clause")).forM fun clause =>
          clause.namedChildren.forM fun base => d.type base here
        d.items body here
        return some id)
      (do
        d'.templateParameters template (here.respelled q)
        (n.namedChildren.filter (·.kind == "base_class_clause")).forM fun clause =>
          clause.namedChildren.forM fun base => d'.type base (here.respelled q)
        d'.items body (here.respelled q)
        return some id) := by
  refine (hd.templateParameters ht h).seq fun _ => Alike.seq ?_ fun _ =>
    (hd.items (Nat.le_succ_of_le hbody) h).seq fun _ => .pure _
  exact .forM fun clause hc => .forM fun base hb => hd.type
    (le_of_named hb (Nat.le_succ_of_le (le_of_named (List.mem_filter.mp hc).1 hn))) h

theorem record (hd : W.Descends b d d') (hn : n.height ≤ b + 1) {template : Option SyntaxNode}
    (ht : ∀ t ∈ template, t.height ≤ b) (standalone : Bool) (h : W.Stands file K here q) :
    W.Alike file K (d.record n here template standalone)
      (d'.record n (here.respelled q) template standalone) := by
  have hrecord := Descent.recordKind_isRecord n template
  have hkind := CursorKind.isDeclaration_of_isRecord hrecord
  have hname : ∀ token : Option SyntaxNode,
      (token.map here.spelling).getD "" = here.spelling (token.getD n) ∨
        (token.map here.spelling).getD "" = "" ∨ Descent.recordKind n template = .callExpr :=
    fun token => by cases token <;> simp
  unfold Descent.record
  simp only
  split
  · rename_i body token hbody
    refine (push h true none (CursorKind.isOwn_of_isDeclaration hkind) (fun _ => rfl)
      (hname _)).bind
      fun id => ?_
    refine (declare _ (Fact.gives_self _).right hkind).seq fun _ => (openScope _ _).seq
      fun scope => (setMembers _ _).seq fun _ => ?_
    exact hd.recordBody hn (le_of_child hn _ hbody) ht id (h.within
      (Fact.made_gives_receives id _ (Category.ofCursor_of_isRecord hrecord)) scope)
  · rename_i htoken
    simp only [htoken, Option.map_some, Option.getD_some]
    split
    · exact declareForward h _ hrecord
    · exact (typeReference h _).seq fun _ => .pure _
  · exact .pure _

theorem enumerator (hd : W.Descends b d d') (hn : n.height ≤ b + 1) (h : W.Stands file K here q) :
    W.Alike file K (d.enumerator n here) (d'.enumerator n (here.respelled q)) := by
  unfold Descent.enumerator
  split
  · exact (declareNamed h true rfl rfl).bind fun id => hd.valueOf (le_of_child hn)
      (h.under (Fact.made_gives_receives id _ (by decide)))
  · exact .pure _

theorem enumeration (hd : W.Descends b d d') (hn : n.height ≤ b + 1) (h : W.Stands file K here q) :
    W.Alike file K (d.enumeration n here) (d'.enumeration n (here.respelled q)) := by
  have hname : ∀ token : Option SyntaxNode,
      (token.map here.spelling).getD "" = here.spelling (token.getD n) ∨
        (token.map here.spelling).getD "" = "" ∨ CursorKind.enumDecl = .callExpr :=
    fun token => by cases token <;> simp
  unfold Descent.enumeration
  simp only
  split
  · rename_i body hbody
    refine (push h true none rfl (fun _ => rfl) (hname _)).bind fun id =>
      (declare _ (Fact.gives_self _).right rfl).seq fun _ => Alike.seq ?_ fun _ => .pure _
    exact .forM fun e he => hd.enumerator
      (Nat.le_succ_of_le (le_of_named (List.mem_filter.mp he).1
        (Nat.le_succ_of_le (le_of_child hn _ hbody))))
      (h.under (Fact.made_gives_receives id _ (by decide)))
  · split
    · exact (typeReference h _).seq fun _ => .pure _
    · exact .pure _

theorem definedType (hd : W.Descends b d d') {type : SyntaxNode} (hn : type.height ≤ b + 1)
    {template : Option SyntaxNode} (ht : ∀ t ∈ template, t.height ≤ b) (standalone : Bool)
    (h : W.Stands file K here q) :
    W.Alike file K (d.definedType type here template standalone)
      (d'.definedType type (here.respelled q) template standalone) :=
  .ite (hd.record hn ht standalone h) (.ite (hd.enumeration hn h) (.pure _))

theorem parameter (hd : W.Descends b d d') (hn : n.height ≤ b + 1) (h : W.Stands file K here q) :
    W.Alike file K (d.parameter n here) (d'.parameter n (here.respelled q)) := by
  unfold Descent.parameter
  simp only
  split
  · exact hd.typeOf (le_of_child hn) h
  · refine (declareNamed h true rfl rfl).bind fun id => (setType _ _).seq fun _ => ?_
    exact (hd.typeOf (le_of_child hn)
        (h.under (Fact.made_gives_receives id _ (by decide)))).seq fun _ =>
      hd.valueOf (le_of_child hn) (h.under (Fact.made_gives_receives id _ (by decide)))

theorem parameters (hd : W.Descends b d d') {list : Option SyntaxNode}
    (hl : ∀ l ∈ list, l.height ≤ b) (h : W.Stands file K here q) :
    W.Alike file K (d.parameters list here) (d'.parameters list (here.respelled q)) := by
  unfold Descent.parameters
  split
  · exact .forM fun p hp => hd.parameter (Nat.le_succ_of_le
      (le_of_named (List.mem_filter.mp hp).1 (Nat.le_succ_of_le (hl _ rfl)))) h
  · exact .pure _

theorem initialiserPart (hd : W.Descends b d d') (hn : n.height ≤ b) (h : W.Stands file K here q) :
    W.Alike file K (d.initialiserPart n here) (d'.initialiserPart n (here.respelled q)) := by
  unfold Descent.initialiserPart
  split
  · exact use h rfl (by decide)
  · exact hd.type hn h
  · exact hd.type hn h
  · exact hd.type hn h
  · exact (hd.expr hn h).discard

theorem initialisers (hd : W.Descends b d d') {list : Option SyntaxNode}
    (hl : ∀ l ∈ list, l.height ≤ b) (h : W.Stands file K here q) :
    W.Alike file K (d.initialisers list here) (d'.initialisers list (here.respelled q)) := by
  unfold Descent.initialisers
  split
  · exact .forM fun i hi => .forM fun part hp => hd.initialiserPart
      (le_of_named hp (Nat.le_succ_of_le (le_of_named hi (Nat.le_succ_of_le (hl _ rfl))))) h
  · exact .pure _

/-- The inside of a function. -/
theorem callableBody (hd : W.Descends b d d') {c : Descent.Callable} (hc : c.Below b)
    (h : W.Stands file K here q) :
    W.Alike file K
      (do
        d.templateParameters c.template here
        d.typeOf c.returnType here
        discard (d.qualifiers here [] c.name.splitQualified.1)
        d.parameters (c.declarator.child? .parameters) here
        d.initialisers c.initialisers here
        match c.body with
        | some body => d.block body here
        | none => pure ())
      (do
        d'.templateParameters c.template (here.respelled q)
        d'.typeOf c.returnType (here.respelled q)
        discard (d'.qualifiers (here.respelled q) [] c.name.splitQualified.1)
        d'.parameters (c.declarator.child? .parameters) (here.respelled q)
        d'.initialisers c.initialisers (here.respelled q)
        match c.body with
        | some body => d'.block body (here.respelled q)
        | none => pure ()) := by
  have hscopes : ∀ s ∈ c.name.splitQualified.1, s.height ≤ b + 1 := fun s hs =>
    Nat.le_succ_of_le (Nat.le_trans
      (Nat.le_of_lt ((SyntaxNode.height_splitQualified c.name).1 s hs)) hc.name)
  refine (hd.templateParameters hc.template h).seq fun _ => (hd.typeOf hc.returnType h).seq
    fun _ => (hd.qualifiers [] hscopes h).discard.seq fun _ => ?_
  refine (hd.parameters (le_of_child (Nat.le_succ_of_le hc.declarator)) h).seq fun _ =>
    (hd.initialisers hc.initialisers h).seq fun _ => ?_
  split
  · rename_i body hbody
    exact hd.block (Nat.le_succ_of_le (hc.body body hbody)) h
  · exact .pure _

theorem callable (hd : W.Descends b d d') {c : Descent.Callable} (hc : c.Below b)
    (h : W.Stands file K here q) :
    W.Alike file K (d.callable c here) (d'.callable c (here.respelled q)) := by
  unfold Descent.callable
  refine .read fun s s' hs => ?_
  simp only [Lowering.owner?, W.paired.scopes hs, W.paired.memberScopes hs, W.paired.kind hs,
    W.paired.spelling hs, Here.spelling_respelled, Here.scope_respelled]
  refine (push h _ _ (CursorKind.isOwn_of_isDeclaration
    (Descent.callableKind_isDeclaration _ _ _ _))
    (fun hr => by rw [Descent.callableKind_isRecord] at hr; cases hr) (.inl rfl)).bind fun id => ?_
  refine (own _ _).seq fun _ => (declare _ (Fact.gives_self _).right
    (Descent.callableKind_isDeclaration _ _ _ _)).seq fun _ => (openScope _ _).seq fun scope => ?_
  exact hd.callableBody hc (h.within
    (Fact.made_gives_receives id _ (Descent.callableKind_category _ _ _ _ _)) scope)

theorem functionDefinition (hd : W.Descends b d d') (hn : n.height ≤ b + 1)
    {template : Option SyntaxNode} (ht : ∀ t ∈ template, t.height ≤ b)
    (h : W.Stands file K here q) :
    W.Alike file K (d.functionDefinition n here template)
      (d'.functionDefinition n (here.respelled q) template) := by
  unfold Descent.functionDefinition
  split
  · rename_i name declarator _ _ hdeclarator
    obtain ⟨c, hc, hshape⟩ := Option.bind_eq_some_iff.mp hdeclarator
    have hb : c.height ≤ b := le_of_child hn c hc
    obtain ⟨hname, hfunction, -, -⟩ := Declarator.within_ofNode? hshape
    refine hd.callable ⟨?_, ?_, ?_, ?_, ?_, ht⟩ h
    · exact Nat.le_trans (hfunction _ rfl) hb
    · exact Nat.le_trans hname hb
    · exact le_of_child hn
    · exact le_of_child hn
    · exact fun t ht => le_of_named (List.mem_of_find?_eq_some ht) hn
  · exact .pure _

/-- What is known of the last variable declared: others may be put below it. -/
def lastFact : Option Nat → Fact
  | some id => .receives id
  | none => .always

theorem declarator (hd : W.Descends b d d') {shared : Descent.DeclaredAs}
    (hshared : shared.Below b) {last : Option Nat} (hlast : K.Gives (lastFact last))
    (hn : n.height ≤ b) (h : W.Stands file K here q) :
    W.Alike file K (d.declarator shared here last n)
      (d'.declarator shared (here.respelled q) last n) lastFact := by
  unfold Descent.declarator
  split
  · exact .pureOf hlast
  · rename_i shape hshape
    obtain ⟨hname, hfunction, hvalue, hsizes⟩ := Declarator.within_ofNode? hshape
    split
    · rename_i function hfound
      have hcallable : Descent.Callable.Below b
          { declarator := function, name := shape.name, returnType := shared.type
            template := shared.template } :=
        ⟨Nat.le_trans (hfunction _ hfound) hn, Nat.le_trans hname hn, hshared.type,
          fun _ ht => (Option.not_mem_none _ ht).elim, fun _ ht => (Option.not_mem_none _ ht).elim,
          hshared.template⟩
      exact (hd.callable hcallable h).seq fun _ => .pureOf hlast
    · refine (declareNamed h _ hshared.isDeclaration hshared.isRecord).bind fun id =>
        (setType _ _).seq fun _ => ?_
      have hid := Fact.made_gives_receives id (here.spelling shape.name.nameToken)
        (hshared.category shared.isDefinition)
      refine (hd.typeOf hshared.type (h.under hid)).seq fun _ => Alike.seq ?_ fun _ =>
        (hd.valueOf (fun v hv => Nat.le_trans (hvalue v hv) hn) (h.under hid)).seq fun _ =>
          .pureOf hid.right
      exact .forM fun size hs => (hd.expr (Nat.le_trans (hsizes size hs) hn) (h.under hid)).discard

/-- The declarators of a declaration in turn, then the default of the last one.  What they share
    depends on the scopes. -/
theorem declarators (hd : W.Descends b d d') {shared shared' : Lowering → Descent.DeclaredAs}
    (hsame : ∀ {s s'}, s'.scopes = s.scopes → shared' s' = shared s)
    (hshared : ∀ s, (shared s).Below b) {list : List SyntaxNode}
    (hlist : ∀ c ∈ list, c.height ≤ b) {value : Option SyntaxNode}
    (hvalue : ∀ v ∈ value, v.height ≤ b) (h : W.Stands file K here q) :
    W.Alike file K
      (do
        let s ← get
        let last ← list.foldlM (d.declarator (shared s) here) none
        match last with
        | some id => d.valueOf value (here.under id)
        | none => pure ())
      (do
        let s ← get
        let last ← list.foldlM (d'.declarator (shared' s) (here.respelled q)) none
        match last with
        | some id => d'.valueOf value ((here.respelled q).under id)
        | none => pure ()) := by
  refine .read fun s s' hs => ?_
  rw [hsame (W.paired.scopes hs)]
  refine Alike.bind (Q := lastFact) (.foldlM (fun _ _ => trivial) fun last c hc L hL hlast =>
    hd.declarator (hshared s) hlast (hlist c hc) (h.of hL)) fun last => ?_
  split
  · exact hd.valueOf hvalue (h.under (Fact.gives_self _))
  · exact .pure _

theorem declaration (hd : W.Descends b d d') (hn : n.height ≤ b + 1)
    {template : Option SyntaxNode} (ht : ∀ t ∈ template, t.height ≤ b)
    (h : W.Stands file K here q) :
    W.Alike file K (d.declaration n here template)
      (d'.declaration n (here.respelled q) template) := by
  have hlist : ∀ c ∈ n.fieldChildren .declarator, c.height ≤ b := fun c hc => le_of_field hc hn
  have hrest : ∀ defined : Option Nat, ∀ s : Lowering, Descent.DeclaredAs.Below b
      { kind := if (decide (n.kind = "field_declaration") &&
            (s.scopes.scope here.scope).record.isSome &&
            !here.source.hasStorage n "static") = true then .fieldDecl else .varDecl
        isDefinition := !here.source.hasStorage n "extern"
        type := if defined.isNone = true then n.child? .type else none
        hint := match defined with
          | some id => some (.cursor id)
          | none => (n.child? .type).bind (Lowering.typeHint? here)
        template } := fun defined s => by
    refine ⟨?_, fun t htype => ?_, ht⟩
    · split
      · exact .inl rfl
      · exact .inr rfl
    · cases defined with
      | none => exact le_of_child hn t htype
      | some id => cases htype
  unfold Descent.declaration
  simp only [Here.hasStorage_respelled, Here.scope_respelled, Here.typeHint?_respelled]
  split
  · rename_i t htype
    split
    · exact (hd.definedType (Nat.le_succ_of_le (le_of_child hn t htype)) ht _ h).seq fun defined =>
        hd.declarators (fun h => by rw [h]; rfl) (hrest defined) hlist (le_of_child hn) h
    · exact (Alike.pure _).seq fun defined =>
        hd.declarators (fun h => by rw [h]; rfl) (hrest defined) hlist (le_of_child hn) h
  · exact (Alike.pure _).seq fun defined =>
      hd.declarators (fun h => by rw [h]; rfl) (hrest defined) hlist (le_of_child hn) h

/-- The names of a type definition in turn. -/
theorem aliases (hd : W.Descends b d d') {type : Option SyntaxNode}
    (ht : ∀ t ∈ type, t.height ≤ b) (defined : Option Nat) (hint : Option TypeHint)
    (list : List SyntaxNode) (h : W.Stands file K here q) :
    W.Alike file K
      (list.forM fun c => do
        match Declarator.ofNode? c with
        | some shape =>
          let id ← Descent.declareNamed here .typedefDecl shape.name
          Lowering.setType id hint
          if defined.isNone then d.typeOf type (here.under id)
        | none => pure ())
      (list.forM fun c => do
        match Declarator.ofNode? c with
        | some shape =>
          let id ← Descent.declareNamed (here.respelled q) .typedefDecl shape.name
          Lowering.setType id hint
          if defined.isNone then d'.typeOf type ((here.respelled q).under id)
        | none => pure ()) := by
  refine .forM fun c _ => ?_
  split
  · exact (declareNamed h true rfl rfl).bind fun id => (setType _ _).seq fun _ =>
      .ite (hd.typeOf ht (h.under (Fact.made_gives_receives id _ (by decide)))) (.pure _)
  · exact .pure _

theorem typedefinition (hd : W.Descends b d d') (hn : n.height ≤ b + 1)
    (h : W.Stands file K here q) :
    W.Alike file K (d.typedefinition n here) (d'.typedefinition n (here.respelled q)) := by
  unfold Descent.typedefinition
  simp only [Here.typeHint?_respelled]
  split
  · rename_i t htype
    split
    · exact (hd.definedType (Nat.le_succ_of_le (le_of_child hn t htype))
        (fun _ ht => (Option.not_mem_none _ ht).elim) false h).seq fun _ =>
          hd.aliases (le_of_child hn) _ _ _ h
    · exact (Alike.pure _).seq fun _ => hd.aliases (le_of_child hn) _ _ _ h
  · exact (Alike.pure _).seq fun _ => hd.aliases (le_of_child hn) _ _ _ h

theorem typeAlias (hd : W.Descends b d d') (hn : n.height ≤ b + 1) (h : W.Stands file K here q) :
    W.Alike file K (d.typeAlias n here) (d'.typeAlias n (here.respelled q)) := by
  unfold Descent.typeAlias
  split
  · refine (declareNamed h true rfl rfl).bind fun id => ?_
    split
    · rename_i type htype
      exact (setType _ _).seq fun _ => hd.type (le_of_child hn type htype)
        (h.under (Fact.made_gives_receives id _ (by decide)))
    · exact .pure _
  · exact .pure _

theorem template (hd : W.Descends b d d') (hn : n.height ≤ b + 1) (h : W.Stands file K here q) :
    W.Alike file K (d.template n here) (d'.template n (here.respelled q)) := by
  unfold Descent.template
  simp only
  split
  · exact .pure _
  · rename_i item hitem
    have hb : item.height ≤ b :=
      le_of_named (List.mem_filter.mp (List.mem_of_getLast? hitem)).1 hn
    have hb' := Nat.le_succ_of_le hb
    split
    · exact (hd.record hb' (le_of_child hn) true h).discard
    · split
      · exact hd.functionDefinition hb' (le_of_child hn) h
      · exact hd.declaration hb' (le_of_child hn) h
      · exact hd.declaration hb' (le_of_child hn) h
      · exact hd.item hb h

/-! ### Types, statements and expressions -/

theorem typeStep (hd : W.Descends b d d') (hn : n.height ≤ b + 1) (h : W.Stands file K here q) :
    W.Alike file K (d.typeStep n here) (d'.typeStep n (here.respelled q)) := by
  unfold Descent.typeStep
  cases TypeForm.ofNode n with
  | name => exact typeReference h n
  | qualified => exact (hd.qualifiedReference hn rfl (by decide) h).discard
  | templated => exact hd.templateReference hn h
  | record =>
    exact (hd.record hn (fun _ ht => (Option.not_mem_none _ ht).elim) false h).discard
  | enumeration => exact (hd.enumeration hn h).discard
  | descriptor => exact hd.typeOf (le_of_child hn) h
  | nameless => exact .pure _
  | compound => exact .forM fun c hc => hd.type (le_of_named hc hn) h

theorem exprOf (hd : W.Descends b d d') {value : Option SyntaxNode}
    (hv : ∀ v ∈ value, v.height ≤ b) (h : W.Stands file K here q) :
    W.Alike file K (d.exprOf value here) (d'.exprOf value (here.respelled q)) := by
  unfold Descent.exprOf
  split
  · exact hd.expr (hv _ rfl) h
  · exact .pure _

theorem memberUse (hd : W.Descends b d d') (hn : n.height ≤ b + 1) (h : W.Stands file K here q) :
    W.Alike file K (d.memberUse n here) (d'.memberUse n (here.respelled q)) := by
  unfold Descent.memberUse
  split
  · exact .pure _
  · exact (hd.exprOf (le_of_child hn) h).seq fun _ =>
      useThen h rfl (by decide) fun _ => .pure _

theorem call (hd : W.Descends b d d') (hn : n.height ≤ b + 1) (h : W.Stands file K here q) :
    W.Alike file K (d.call n here) (d'.call n (here.respelled q)) := by
  unfold Descent.call
  split
  · exact .pure _
  · rename_i function hfunction
    exact (push h false none rfl (by decide) (.inr (.inr rfl))).bind fun id =>
      (hd.expr (le_of_child hn _ hfunction)
        (h.under (Fact.made_gives_receives id _ (by decide)))).discard.seq fun _ =>
      (hd.exprOf (le_of_child hn)
        (h.under (Fact.made_gives_receives id _ (by decide)))).discard

theorem rangeLoop (hd : W.Descends b d d') (hn : n.height ≤ b + 1) (h : W.Stands file K here q) :
    W.Alike file K (d.rangeLoop n here) (d'.rangeLoop n (here.respelled q)) := by
  have hrest : ∀ {K}, W.Stands file K here q → W.Alike file K
      (do
        discard (d.exprOf (n.child? .right) here)
        discard (d.exprOf (n.child? .body) here))
      (do
        discard (d'.exprOf (n.child? .right) (here.respelled q))
        discard (d'.exprOf (n.child? .body) (here.respelled q))) := fun h =>
    (hd.exprOf (le_of_child hn) h).discard.seq fun _ => (hd.exprOf (le_of_child hn) h).discard
  unfold Descent.rangeLoop
  simp only [Here.typeHint?_respelled]
  split
  · exact (declareNamed h true rfl rfl).bind fun id => (setType _ _).seq fun _ =>
      (hd.typeOf (le_of_child hn)
        (h.under (Fact.made_gives_receives id _ (by decide)))).seq fun _ => hrest h.also
  · exact hrest h

theorem exprStep (hd : W.Descends b d d') (hn : n.height ≤ b + 1) (h : W.Stands file K here q) :
    W.Alike file K (d.exprStep n here) (d'.exprStep n (here.respelled q)) := by
  unfold Descent.exprStep
  cases ExprForm.ofNode n with
  | name => exact nameUse h n
  | qualified => exact hd.qualifiedReference hn rfl (by decide) h
  | member => exact hd.memberUse hn h
  | call => exact (hd.call hn h).seq fun _ => .pure _
  | templated =>
    exact (hd.exprOf (le_of_child hn) h).seq fun _ => (hd.argumentsOf hn h).seq fun _ => .pure _
  | parenthesized =>
    exact .foldlM (fun _ _ => trivial) fun _ c hc L hL _ => hd.expr (le_of_named hc hn) (h.of hL)
  | element =>
    refine (hd.exprOf (le_of_child hn) h).seq fun value => Alike.seq ?_ fun _ =>
      (hd.exprOf (le_of_child hn) h).discard.seq fun _ => .pure _
    exact .forM fun i hi => (hd.expr (le_of_field hi hn) h).discard
  | rangeLoop => exact (hd.rangeLoop hn h).seq fun _ => .pure _
  | closure =>
    simp only
    split
    · rename_i body hbody
      exact (hd.block (Nat.le_succ_of_le (le_of_child hn _ hbody)) h).seq fun _ => .pure _
    · exact .pure _
  | block => exact (hd.block hn h).seq fun _ => .pure _
  | declaration =>
    exact (hd.declaration hn (fun _ ht => (Option.not_mem_none _ ht).elim) h).seq
      fun _ => .pure _
  | type => exact (hd.typeStep hn h).seq fun _ => .pure _
  | leaf => exact .pure _
  | compound =>
    exact (Alike.forM fun c hc => (hd.expr (le_of_named hc hn) h).discard).seq fun _ => .pure _

/-! ### Items -/

/-- A namespace whose scope is known. -/
theorem spaceIn (hd : W.Descends b d d') {name : String} {body : Option SyntaxNode}
    (hbody : ∀ body' ∈ body, body'.height ≤ b) {id : Nat}
    (hid : K.Gives (.made id .namespaceDecl name true)) (scope : Nat)
    (hin : W.Stands file K (here.within id scope) q) :
    W.Alike file K
      (do
        Lowering.setMembers id scope
        Lowering.declare here.scope name id
        match body with
        | some body => d.items body (here.within id scope)
        | none => pure ())
      (do
        Lowering.setMembers id scope
        Lowering.declare here.scope name id
        match body with
        | some body => d'.items body ((here.respelled q).within id scope)
        | none => pure ()) := by
  refine (setMembers _ _).seq fun _ => (declare _ hid rfl).seq fun _ => ?_
  split
  · exact hd.items (Nat.le_succ_of_le (hbody _ rfl)) hin
  · exact .pure _

theorem space (hd : W.Descends b d d') (hn : n.height ≤ b + 1) (h : W.Stands file K here q) :
    W.Alike file K (d.space n here) (d'.space n (here.respelled q)) := by
  have hname : ∀ token : Option SyntaxNode,
      (token.map here.spelling).getD "" = here.spelling (token.getD n) ∨
        (token.map here.spelling).getD "" = "" ∨ CursorKind.namespaceDecl = .callExpr :=
    fun token => by cases token <;> simp
  unfold Descent.space
  simp only [Here.scope_respelled, Here.spelling_respelled]
  refine (push h true none rfl (fun _ => rfl) (hname _)).bind fun id => .read fun s s' hs => ?_
  simp only [Descent.reopened?, W.paired.scopes hs, W.paired.memberScopes hs, W.paired.kind hs]
  have hid : (Fact.made id .namespaceDecl (((n.child? .name).map here.spelling).getD "")
      true).Gives (.receives id) := Fact.made_gives_receives id _ (by decide)
  split
  · exact (Alike.pure _).seq fun scope => hd.spaceIn (le_of_child hn) (Fact.gives_self _).right
      scope (h.within hid scope)
  · exact (openScope _ _).seq fun scope => hd.spaceIn (le_of_child hn) (Fact.gives_self _).right
      scope (h.within hid scope)

theorem itemStep (hd : W.Descends b d d') (hn : n.height ≤ b + 1) (h : W.Stands file K here q) :
    W.Alike file K (d.itemStep W.headers n here) (d'.itemStep W.headers' n (here.respelled q)) := by
  have hnone : ∀ t ∈ (none : Option SyntaxNode), t.height ≤ b :=
    fun _ ht => (Option.not_mem_none _ ht).elim
  unfold Descent.itemStep
  cases ItemForm.ofNode n with
  | inclusion => exact hd.inclusion n h
  | macroDefinition => exact macroDefinition h n
  | directive => exact directive n
  | group => exact hd.items hn h
  | linkage =>
    simp only
    split
    · rename_i body hbody
      have hb := le_of_child hn _ hbody
      exact .ite (hd.items (Nat.le_succ_of_le hb) h) (hd.item hb h)
    · exact .pure _
  | space => exact hd.space hn h
  | record => exact (hd.record hn hnone true h).discard
  | enumeration => exact (hd.enumeration hn h).discard
  | function => exact hd.functionDefinition hn hnone h
  | declaration => exact hd.declaration hn hnone h
  | typedefinition => exact hd.typedefinition hn h
  | typeAlias => exact hd.typeAlias hn h
  | template => exact hd.template hn h
  | other => exact .pure _

end Descends

/-! ## Files -/

/-- Descents that go down at least so many levels are alike on nodes of that height, whatever would
    be done below their lowest levels. -/
theorem belowFrom {lower lower' : Here → Lower Unit} (hincludes : W.IncludesAlike lower lower')
    (base base' : Descent) (b : Nat) {k k' : Nat} (hk : b ≤ k) (hk' : b ≤ k') :
    W.Descends b (base.belowFrom W.headers lower k) (base'.belowFrom W.headers' lower' k') := by
  induction b generalizing k k' with
  | zero =>
    have hpos : ∀ {n : SyntaxNode}, ¬ n.height ≤ 0 := fun {n} h =>
      absurd n.height_pos (Nat.not_lt.mpr h)
    exact ⟨fun hn => (hpos hn).elim, fun hn => (hpos hn).elim, fun hn => (hpos hn).elim,
      fun n h => hincludes n (base.belowFrom_file _ _ k) (base'.belowFrom_file _ _ k') h⟩
  | succ b ih =>
    obtain ⟨j, rfl⟩ := Nat.exists_eq_add_of_lt hk
    obtain ⟨j', rfl⟩ := Nat.exists_eq_add_of_lt hk'
    have hd := ih (Nat.le_add_right b j) (Nat.le_add_right b j')
    exact ⟨fun hn h => hd.itemStep hn h, fun hn h => hd.typeStep hn h,
      fun hn h => hd.exprStep hn h, fun n h => hincludes n rfl rfl h⟩

/-- Two lowerings of a file are alike, however deeply headers nest. -/
theorem fileAlike (hh : Headers.Alike W.P W.headers W.headers') (n : Nat)
    (h : W.Stands file K here q) :
    W.Alike file K (Lowering.file W.headers n here)
      (Lowering.file W.headers' n (here.respelled q)) := by
  have hmeets : W.MeetsBy W.R := fun depth hheader _ hs =>
    ⟨(W.paired.enter _ depth _ _ hs).2, hh.load hheader⟩
  induction n generalizing file K here q with
  | zero => exact .pure _
  | succ n ih =>
    have hincludes : W.IncludesAlike (Lowering.file W.headers n) (Lowering.file W.headers' n) :=
      includesAlike W.paired hh.find hmeets (fun _ _ h => h) fun h => ih h
    have hd := belowFrom hincludes .idle .idle here.source.tree.height (Nat.le_refl _)
      (Nat.le_refl _)
    rw [Descent.belowFrom_idle, Descent.belowFrom_idle] at hd
    exact hd.items (Nat.le_succ _) h

end Lockstep

namespace Lowering

/-- The main file, with nothing lowered yet. -/
def OpenFile.main (headers : Headers) (main : Source) : OpenFile :=
  { path := headers.files.canonicalPath main.path, source := main, depth := 0 }

/-- The state before anything of a main file is lowered. -/
abbrev start (headers : Headers) (main : Source) : Lowering :=
  .init main.path (headers.files.canonicalPath main.path)

end Lowering

open Lowering (start)

/-- Two lowerings of a main file end alike, if they are alike up to the last flush; and the first
    one is a run. -/
theorem Lockstep.main_ends (W : Lockstep) (main : Source) {q : Path} {m m' : Here → Lower Unit}
    {s' : Lowering} (hq : W.P main.path q) (hs : W.R (start W.headers main) s')
    (h : ∀ {here : Here}, W.Stands (OpenFile.main W.headers main) (.receives 0) here q →
      W.Alike (OpenFile.main W.headers main) (.receives 0) (m here) (m' (here.respelled q))) :
    W.Ends (OpenFile.main W.headers main) (fun _ => .always) (start W.headers main)
      ((do m ⟨main, 0, 0, Scopes.global⟩; Lowering.flushExpansions : Lower Unit).run
        (start W.headers main))
      ((do m' ⟨{ main with path := q }, 0, 0, Scopes.global⟩; Lowering.flushExpansions :
        Lower Unit).run s') := by
  have hstands : W.Stands (OpenFile.main W.headers main) (.receives 0)
      ⟨main, 0, 0, Scopes.global⟩ q := ⟨hq, rfl, rfl, Fact.gives_self _⟩
  exact ((h hstands).seq fun _ => flushExpansions) _ _ hs
    ⟨Nat.zero_lt_one, Category.noConfusion⟩

/-- **Two lowerings of a unit correspond** from the first item to the last one, if they correspond
    before anything is lowered. -/
theorem Paired.collect {R : Lowering → Lowering → Prop} {P : Path → Path → Prop} {q : Path}
    {headers headers' : Headers} (hR : Paired R P) (hh : Headers.Alike P headers headers')
    (main : Source) (hq : P main.path q)
    (h : R (.init main.path (headers.files.canonicalPath main.path))
      (.init q (headers'.files.canonicalPath q))) :
    R (Lowering.collect headers main) (Lowering.collect headers' { main with path := q }) := by
  have hnesting : Lowering.maxNesting headers' = Lowering.maxNesting headers := by
    rw [Lowering.maxNesting, Lowering.maxNesting, hh.files]
  let W : Lockstep := ⟨headers, headers', R, P, hR⟩
  rw [Lowering.collect, Lowering.collect, hnesting]
  exact (W.main_ends main hq h fun h => W.fileAlike hh _ h).states

/-- **What is steady and holds before anything is lowered holds of the whole unit**, as long as its
    uses are not bound. -/
theorem Steady.collect {I : Lowering → Prop} (hI : Steady I) (headers : Headers) (main : Source)
    (h : I (.init main.path (headers.files.canonicalPath main.path))) :
    I (Lowering.collect headers main) :=
  (hI.paired.collect (.refl headers) main rfl ⟨rfl, h⟩).2

/-- **A lowering makes nothing but its changes.** -/
theorem Lowering.reaches_collect (headers : Headers) (main : Source) :
    Reaches headers (OpenFile.main headers main) (start headers main) (collect headers main) :=
  ((Steady.always.lockstep headers headers).main_ends main rfl ⟨rfl, trivial⟩ fun h =>
    Lockstep.fileAlike (.refl headers) _ h).reaches

end SymbolAtlas
