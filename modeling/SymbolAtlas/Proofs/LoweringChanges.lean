import SymbolAtlas.LocatedUnit
import SymbolAtlas.Lowering.Unit

/-!
# The changes that a lowering makes

A lowering changes its state in a few ways only, and each of them in states that allow it: a cursor
is put at a token of the file that is being lowered, below a cursor that is no use; a name is bound
to a cursor that declares that name; a header is recorded, and opened, where a directive leads to it
for the first time.  So a lowering is a run of a machine with a stack of open files.  What each of
its steps keeps holds of all that a lowering makes.

* `TranslationUnit.Grows`, `Lowering.Grows` — what is made stays, up to the owners of functions.
* `Lowering.Change` — the changes of the state within one file.
* `Lowering.Step`, `Lowering.Runs` — a step of the machine, and a run with the directives it meets.

Principal results: `Step.grows` — a lowering only adds to what it has made; `Runs.keeps` — what
every step keeps holds at the end; `Reaches.nested` — a directive that opens a header, with all that
the header makes, is a run of the file that holds it.
-/

set_option autoImplicit false

namespace SymbolAtlas

namespace CursorKind

/-- Kinds of cursors that declare a name. -/
def isDeclaration : CursorKind → Bool
  | .namespaceDecl | .classDecl | .structDecl | .unionDecl | .enumDecl | .enumConstantDecl
  | .functionDecl | .method | .constructor | .destructor | .fieldDecl | .varDecl | .parmDecl
  | .typedefDecl | .classTemplate | .functionTemplate | .templateTypeParameter
  | .nonTypeTemplateParameter => true
  | _ => false

/-- Kinds of cursors that lowering makes without a use: declarations, macros, calls and blocks. -/
def isOwn : CursorKind → Bool
  | .macroDefinition | .callExpr | .compoundStmt => true
  | k => k.isDeclaration

theorem isOwn_of_isDeclaration {k : CursorKind} (h : k.isDeclaration = true) : k.isOwn = true := by
  cases k <;> first | rfl | cases h

theorem isDeclaration_of_isRecord {k : CursorKind} (h : k.isRecord = true) :
    k.isDeclaration = true := by
  cases k <;> first | rfl | cases h

theorem isReference_of_isOwn {k : CursorKind} (h : k.isOwn = true) : k.isReference = false := by
  cases k <;> first | rfl | cases h

theorem isReference_of_isDeclaration {k : CursorKind} (h : k.isDeclaration = true) :
    k.isReference = false :=
  isReference_of_isOwn (isOwn_of_isDeclaration h)

theorem isReference_of_isRecord {k : CursorKind} (h : k.isRecord = true) :
    k.isReference = false :=
  isReference_of_isDeclaration (isDeclaration_of_isRecord h)

end CursorKind

namespace TranslationUnit

variable {u v w : TranslationUnit}

theorem size_push (u : TranslationUnit) (p : Nat) (c : Cursor) : (u.push p c).size = u.size + 1 :=
  Array.size_push _

theorem size_modify (u : TranslationUnit) (j : Nat) (f : Cursor → Cursor) :
    (u.modify j f).size = u.size :=
  Array.size_modify

theorem cursor_push_eq (u : TranslationUnit) (p : Nat) (c : Cursor) (i : Nat) :
    (u.push p c).cursor i = if i = u.size then { c with parent := some p } else u.cursor i := by
  simp only [cursor, push, size, Array.getD_eq_getD_getElem?, Array.getElem?_push]
  split
  · rfl
  · rfl

theorem cursor_modify_eq (u : TranslationUnit) (j : Nat) (f : Cursor → Cursor) (i : Nat) :
    (u.modify j f).cursor i = if j = i ∧ i < u.size then f (u.cursor i) else u.cursor i := by
  simp only [cursor, modify, size, Array.getD_eq_getD_getElem?, Array.getElem?_modify]
  by_cases hj : j = i
  · rw [if_pos hj]
    by_cases hi : i < u.cursors.size
    · rw [if_pos ⟨hj, hi⟩, Array.getElem?_eq_getElem hi]
      rfl
    · rw [if_neg fun h => hi h.2, Array.getElem?_eq_none (Nat.le_of_not_lt hi)]
      rfl
  · rw [if_neg hj, if_neg fun h => hj h.1]

/-- The only new cursor behind a push. -/
theorem cursor_of_push {parent : Nat} {c : Cursor} (h : v.cursors = (u.push parent c).cursors)
    {i : Nat} (hge : u.size ≤ i) (hi : i < v.size) :
    i = u.size ∧ v.cursor i = { c with parent := some parent } := by
  have hsize : v.size = u.size + 1 := by
    rw [← size_push u parent c, size, h]
    rfl
  rw [hsize] at hi
  obtain rfl : i = u.size := Nat.le_antisymm (Nat.le_of_lt_succ hi) hge
  refine ⟨rfl, ?_⟩
  rw [← cursor_push, cursor, h]
  rfl

/-- The cursor with a number is there, with this kind and name. -/
structure Has (u : TranslationUnit) (id : Nat) (kind : CursorKind) (name : String)
    (isDefinition : Bool) : Prop where
  lt : id < u.size
  kind : u.kind id = kind
  name : u.spelling id = name
  isDefinition : u.isDefinition id = isDefinition

/-- The cursor with a number is there and no use, so that others may stand inside. -/
structure Receives (u : TranslationUnit) (id : Nat) : Prop where
  lt : id < u.size
  category : u.category id ≠ .reference

theorem Has.receives {id : Nat} {kind : CursorKind} {name : String} {isDefinition : Bool}
    (h : u.Has id kind name isDefinition)
    (hcategory : Category.ofCursor kind isDefinition ≠ .reference) : u.Receives id where
  lt := h.lt
  category := by
    rw [TranslationUnit.category, h.kind, h.isDefinition]
    exact hcategory

/-- Cursors and headers are added.  What was there stays as it is, but a function may get an
    owner. -/
structure Grows (u v : TranslationUnit) : Prop where
  size : u.size ≤ v.size
  cursor : ∀ i < u.size, ∃ owner, v.cursor i = { u.cursor i with semanticParent := owner }
  inclusions : u.inclusions <+: v.inclusions

namespace Grows

theorem refl (u : TranslationUnit) : u.Grows u :=
  ⟨Nat.le_refl _, fun _ _ => ⟨_, rfl⟩, List.prefix_rfl⟩

theorem trans (h : u.Grows v) (h' : v.Grows w) : u.Grows w where
  size := Nat.le_trans h.size h'.size
  cursor i hi := by
    obtain ⟨owner, howner⟩ := h.cursor i hi
    obtain ⟨owner', howner'⟩ := h'.cursor i (Nat.lt_of_lt_of_le hi h.size)
    exact ⟨owner', by rw [howner', howner]⟩
  inclusions := h.inclusions.trans h'.inclusions

theorem push (u : TranslationUnit) (p : Nat) (c : Cursor) : u.Grows (u.push p c) where
  size := by
    rw [size_push]
    exact Nat.le_succ _
  cursor i hi := ⟨_, cursor_push_of_lt u p c hi⟩
  inclusions := List.prefix_rfl

theorem addInclusion (u : TranslationUnit) (path : Path) (depth : Nat) :
    u.Grows (u.addInclusion path depth) :=
  ⟨Nat.le_refl _, fun _ _ => ⟨_, rfl⟩, List.prefix_append _ _⟩

theorem own (u : TranslationUnit) (id : Nat) (owner : Option Nat) :
    u.Grows (u.modify id fun f => { f with semanticParent := owner <|> f.semanticParent }) where
  size := Nat.le_of_eq (size_modify _ _ _).symm
  cursor i hi := by
    rw [cursor_modify_eq]
    split
    · exact ⟨_, rfl⟩
    · exact ⟨_, rfl⟩
  inclusions := List.prefix_rfl

theorem addExpansions (u : TranslationUnit) (expansions : Array Expansion) :
    u.Grows (expansions.foldl Lowering.addExpansion u) :=
  Array.foldl_induction (fun _ v => u.Grows v) (.refl u) fun _ v h => h.trans (.push v 0 _)

variable {i : Nat}

theorem kind (h : u.Grows v) (hi : i < u.size) : v.kind i = u.kind i := by
  obtain ⟨owner, howner⟩ := h.cursor i hi
  rw [TranslationUnit.kind, howner]
  rfl

theorem spelling (h : u.Grows v) (hi : i < u.size) : v.spelling i = u.spelling i := by
  obtain ⟨owner, howner⟩ := h.cursor i hi
  rw [TranslationUnit.spelling, howner]
  rfl

theorem position (h : u.Grows v) (hi : i < u.size) : v.position i = u.position i := by
  obtain ⟨owner, howner⟩ := h.cursor i hi
  rw [TranslationUnit.position, howner]
  rfl

theorem isDefinition (h : u.Grows v) (hi : i < u.size) : v.isDefinition i = u.isDefinition i := by
  obtain ⟨owner, howner⟩ := h.cursor i hi
  rw [TranslationUnit.isDefinition, howner]
  rfl

theorem category (h : u.Grows v) (hi : i < u.size) : v.category i = u.category i := by
  rw [TranslationUnit.category, TranslationUnit.category, h.kind hi, h.isDefinition hi]

theorem has {kind : CursorKind} {name : String} {isDefinition : Bool} (h : u.Grows v)
    (hu : u.Has i kind name isDefinition) : v.Has i kind name isDefinition where
  lt := Nat.lt_of_lt_of_le hu.lt h.size
  kind := (h.kind hu.lt).trans hu.kind
  name := (h.spelling hu.lt).trans hu.name
  isDefinition := (h.isDefinition hu.lt).trans hu.isDefinition

theorem receives (h : u.Grows v) (hu : u.Receives i) : v.Receives i where
  lt := Nat.lt_of_lt_of_le hu.lt h.size
  category := by
    rw [h.category hu.lt]
    exact hu.category

end Grows

/-- The cursor just added. -/
theorem has_push (u : TranslationUnit) (p : Nat) (c : Cursor) :
    (u.push p c).Has u.size c.kind c.spelling c.isDefinition where
  lt := by
    rw [size_push]
    exact Nat.lt_succ_self _
  kind := by
    rw [TranslationUnit.kind, cursor_push]
  name := by
    rw [TranslationUnit.spelling, cursor_push]
  isDefinition := by
    rw [TranslationUnit.isDefinition, cursor_push]

end TranslationUnit

namespace Lowering

/-- What is made stays. -/
structure Grows (s t : Lowering) : Prop where
  unit : s.unit.Grows t.unit
  included : s.included <:+ t.included
  sites : ∀ site ∈ s.sites, site ∈ t.sites
  forwards : ∀ f ∈ s.forwards, f ∈ t.forwards

theorem Grows.refl (s : Lowering) : s.Grows s :=
  ⟨.refl _, List.suffix_rfl, fun _ h => h, fun _ h => h⟩

theorem Grows.trans {s t r : Lowering} (h : s.Grows t) (h' : t.Grows r) : s.Grows r where
  unit := h.unit.trans h'.unit
  included := h.included.trans h'.included
  sites site hsite := h'.sites site (h.sites site hsite)
  forwards f hf := h'.forwards f (h.forwards f hf)

/-- A file that is being lowered: its canonical path, and how deeply it is included. -/
structure OpenFile where
  path : Path
  source : Source
  depth : Nat

/-- An include directive that a lowering meets in a file. -/
structure Directive where
  holder : OpenFile
  node : SyntaxNode
  token : SyntaxNode

namespace Directive

/-- The name that the directive spells. -/
def name (e : Directive) : String := Headers.spelledName (e.holder.source.spelling e.token)

/-- The header that the directive leads to. -/
def header? (headers : Headers) (e : Directive) : Option Path :=
  headers.find? e.name (e.token.kind = "string_literal") e.holder.source.path

/-- The cursor of the directive. -/
def cursor (e : Directive) : Cursor where
  kind := .inclusionDirective
  spelling := e.name
  position := e.holder.source.position e.node

/-- The directive leads to a header that was not met before. -/
def new? (headers : Headers) (s : Lowering) (e : Directive) : Option Path :=
  (e.header? headers).filter fun header => !s.included.contains header

/-- The file that the directive opens: a header that was not met before and can be read. -/
def opens? (headers : Headers) (s : Lowering) (e : Directive) : Option OpenFile :=
  (e.new? headers s).bind fun header => (headers.load header).map fun source =>
    { path := header, source, depth := e.holder.depth + 1 }

theorem new?_eq_some_iff {headers : Headers} {s : Lowering} {e : Directive} {header : Path} :
    e.new? headers s = some header ↔
      e.header? headers = some header ∧ s.included.contains header = false := by
  simp [new?, Option.filter_eq_some_iff]

theorem opens?_of_old {headers : Headers} {s : Lowering} {e : Directive}
    (h : e.new? headers s = none) : e.opens? headers s = none := by
  rw [opens?, h]
  rfl

theorem opens?_of_new {headers : Headers} {s : Lowering} {e : Directive} {header : Path}
    (h : e.new? headers s = some header) :
    e.opens? headers s = (headers.load header).map fun source =>
      { path := header, source, depth := e.holder.depth + 1 } := by
  rw [opens?, h]
  rfl

end Directive

/-- The state behind a directive: its cursor is made, and a header that was not met before is
    recorded. -/
def meet (headers : Headers) (s : Lowering) (parent : Nat) (e : Directive) : Lowering :=
  match e.new? headers s with
  | some header =>
    { s with
      included := header :: s.included
      unit := (s.unit.push parent e.cursor).addInclusion header (e.holder.depth + 1) }
  | none => { s with unit := s.unit.push parent e.cursor }

theorem meet_of_old {headers : Headers} {s : Lowering} {e : Directive}
    (h : e.new? headers s = none) (parent : Nat) :
    meet headers s parent e = { s with unit := s.unit.push parent e.cursor } := by
  rw [meet, h]

theorem meet_of_new {headers : Headers} {s : Lowering} {e : Directive} {header : Path}
    (h : e.new? headers s = some header) (parent : Nat) :
    meet headers s parent e =
      { s with
        included := header :: s.included
        unit := (s.unit.push parent e.cursor).addInclusion header (e.holder.depth + 1) } := by
  rw [meet, h]

/-- A directive adds its cursor; headers aside, all else stays. -/
theorem meet_eq (headers : Headers) (s : Lowering) (parent : Nat) (e : Directive) :
    ∃ included inclusions, meet headers s parent e =
      { s with included, unit := { s.unit.push parent e.cursor with inclusions } } := by
  unfold meet
  split
  · exact ⟨_, _, rfl⟩
  · exact ⟨_, _, rfl⟩

/-- One change that the lowering of a file makes, and what has to hold before it. -/
inductive Change (file : OpenFile) (s : Lowering) : Lowering → Prop where
  /-- A cursor is put at a token of the file. -/
  | push {parent : Nat} {kind : CursorKind} {name : String} (token : SyntaxNode)
      (isDefinition : Bool) (displayName : Option String) (hparent : s.unit.Receives parent)
      (hkind : kind.isOwn = true) (hbody : kind.isRecord = true → isDefinition = true)
      (hname : name = file.source.spelling token ∨ name = "" ∨ kind = .callExpr) :
      Change file s { s with
        unit := s.unit.push parent
          { kind, spelling := name, displayName, position := file.source.position token,
            isDefinition } }
  /-- A use is put at the token that names it, and waits for its declaration. -/
  | use {parent : Nat} {kind : CursorKind} (token : SyntaxNode) (scope : Nat) (binding : Binding)
      (hparent : s.unit.Receives parent) (hkind : kind.isReference = true)
      (hnotMacro : kind ≠ .macroExpansion) :
      Change file s { s with
        unit := s.unit.push parent
          { kind, spelling := file.source.spelling token, position := file.source.position token }
        sites := s.sites.push
          { cursor := s.unit.size, name := file.source.spelling token, scope, binding } }
  /-- A record without a body is put at its name, and waits for its definition. -/
  | forward {parent : Nat} {kind : CursorKind} (token : SyntaxNode) (scope : Nat)
      (hparent : s.unit.Receives parent) (hkind : kind.isRecord = true) :
      Change file s { s with
        unit := s.unit.push parent
          { kind, spelling := file.source.spelling token, position := file.source.position token }
        forwards := s.forwards.push
          { cursor := s.unit.size, name := file.source.spelling token, scope } }
  /-- A function gets an owner. -/
  | own (id : Nat) (owner : Option Nat) :
      Change file s { s with
        unit := s.unit.modify id fun f =>
          { f with semanticParent := owner <|> f.semanticParent } }
  /-- A name is bound to a cursor that declares it. -/
  | bind {id : Nat} {kind : CursorKind} {name : String} {isDefinition : Bool} (scope : Nat)
      (hid : s.unit.Has id kind name isDefinition) (hkind : kind.isDeclaration = true) :
      Change file s { s with scopes := s.scopes.bind scope name id }
  /-- A macro is defined. -/
  | define {id : Nat} {name : String} (hid : s.unit.Has id .macroDefinition name true) :
      Change file s { s with macros := (name, id) :: s.macros }
  /-- A macro is undefined. -/
  | undefine (name : String) :
      Change file s { s with macros := s.macros.filter fun m => m.1 != name }
  /-- A macro that is in effect is used. -/
  | expand {definition : Nat} (token : SyntaxNode)
      (hdefined : s.macros.lookup (file.source.spelling token) = some definition) :
      Change file s { s with
        expansions := s.expansions.push
          { position := file.source.position token, name := file.source.spelling token,
            definition } }
  /-- The uses of macros so far get their cursors. -/
  | flush :
      Change file s { s with
        unit := s.expansions.foldl addExpansion s.unit, expansions := #[] }
  /-- A scope is opened. -/
  | openScope (parent : Nat) (record : Option String) :
      Change file s { s with scopes := s.scopes.openIn parent record }
  /-- Scopes of members and types are noted. -/
  | note (memberScopes : List (Nat × Nat)) (types : List (Nat × TypeHint)) :
      Change file s { s with memberScopes, types }

/-- A directive that was met, and the file that it opened. -/
structure Met where
  directive : Directive
  opened : Option OpenFile

/-- The files that are being lowered, the innermost first, and the state. -/
abbrev Config : Type := List OpenFile × Lowering

/-- One step of a lowering, and the directives that it meets. -/
inductive Step (headers : Headers) : Config → List Met → Config → Prop where
  /-- The innermost file makes a change. -/
  | change {file : OpenFile} {files : List OpenFile} {s t : Lowering} (h : Change file s t) :
      Step headers (file :: files, s) [] (file :: files, t)
  /-- A directive is met, and the header that it leads to is opened if it is new and readable. -/
  | directive {files : List OpenFile} {s : Lowering} {parent : Nat} (e : Directive)
      (hparent : s.unit.Receives parent) :
      Step headers (e.holder :: files, s) [⟨e, e.opens? headers s⟩]
        ((e.opens? headers s).toList ++ e.holder :: files, meet headers s parent e)
  /-- The innermost file ends, and the one that includes it goes on. -/
  | leave (file : OpenFile) {above : OpenFile} {files : List OpenFile} {s : Lowering} :
      Step headers (file :: above :: files, s) [] (above :: files, s)

/-- One step after another, with all directives met on the way, in order. -/
inductive Runs (headers : Headers) (c : Config) : List Met → Config → Prop where
  | refl : Runs headers c [] c
  | tail {log met : List Met} {d e : Config} (hruns : Runs headers c log d)
      (hstep : Step headers d met e) : Runs headers c (log ++ met) e

variable {headers : Headers} {s t r : Lowering}

theorem Change.grows {file : OpenFile} (h : Change file s t) : s.Grows t := by
  cases h with
  | push => exact ⟨.push _ _ _, List.suffix_rfl, fun _ h => h, fun _ h => h⟩
  | use =>
    exact ⟨.push _ _ _, List.suffix_rfl, fun _ h => Array.mem_push_of_mem _ h, fun _ h => h⟩
  | forward =>
    exact ⟨.push _ _ _, List.suffix_rfl, fun _ h => h, fun _ h => Array.mem_push_of_mem _ h⟩
  | own => exact ⟨.own _ _ _, List.suffix_rfl, fun _ h => h, fun _ h => h⟩
  | flush => exact ⟨.addExpansions _ _, List.suffix_rfl, fun _ h => h, fun _ h => h⟩
  | bind | define | undefine | expand | openScope | note =>
    exact ⟨.refl _, List.suffix_rfl, fun _ h => h, fun _ h => h⟩

theorem meet_grows (headers : Headers) (s : Lowering) (parent : Nat) (e : Directive) :
    s.Grows (meet headers s parent e) := by
  unfold meet
  split
  · exact ⟨(TranslationUnit.Grows.push _ _ _).trans (.addInclusion _ _ _), List.suffix_cons _ _,
      fun _ h => h, fun _ h => h⟩
  · exact ⟨.push _ _ _, List.suffix_rfl, fun _ h => h, fun _ h => h⟩

theorem Step.grows {c d : Config} {met : List Met} (h : Step headers c met d) :
    c.2.Grows d.2 := by
  cases h with
  | change h => exact h.grows
  | directive e => exact meet_grows headers _ _ e
  | leave => exact .refl _

namespace Runs

variable {c d e : Config} {log met : List Met}

/-- What every step keeps holds of all that is reached. -/
theorem keeps {I : List Met → Config → Prop} (h : Runs headers c log d)
    (hstep : ∀ log d met e, Step headers d met e → I log d → I (log ++ met) e) (hc : I [] c) :
    I log d := by
  induction h with
  | refl => exact hc
  | tail _ step ih => exact hstep _ _ _ _ step ih

theorem trans (h : Runs headers c log d) (h' : Runs headers d met e) :
    Runs headers c (log ++ met) e := by
  induction h' with
  | refl =>
    rw [List.append_nil]
    exact h
  | tail _ step ih =>
    rw [← List.append_assoc]
    exact ih.tail step

theorem single (h : Step headers c met d) : Runs headers c met d := by
  have hruns := (refl : Runs headers c [] c).tail h
  exact hruns

end Runs

/-- The lowering of a file takes one state to the other, whatever files are open around it. -/
def Reaches (headers : Headers) (file : OpenFile) (s t : Lowering) : Prop :=
  s.Grows t ∧ ∀ files, ∃ log, Runs headers (file :: files, s) log (file :: files, t)

namespace Reaches

variable {file : OpenFile}

theorem refl (s : Lowering) : Reaches headers file s s := ⟨.refl s, fun _ => ⟨[], .refl⟩⟩

theorem trans (h : Reaches headers file s t) (h' : Reaches headers file t r) :
    Reaches headers file s r := by
  refine ⟨h.1.trans h'.1, fun files => ?_⟩
  obtain ⟨log, hlog⟩ := h.2 files
  obtain ⟨met, hmet⟩ := h'.2 files
  exact ⟨log ++ met, hlog.trans hmet⟩

theorem change (h : Change file s t) : Reaches headers file s t :=
  ⟨h.grows, fun _ => ⟨[], .single (.change h)⟩⟩

/-- A directive that opens no file. -/
theorem pass {parent : Nat} {e : Directive} (hparent : s.unit.Receives parent)
    (hopens : e.opens? headers s = none) :
    Reaches headers e.holder s (meet headers s parent e) := by
  refine ⟨meet_grows headers s parent e, fun files => ⟨[⟨e, none⟩], .single ?_⟩⟩
  have hstep : Step headers (e.holder :: files, s) _ _ := .directive e hparent
  rw [hopens] at hstep
  exact hstep

/-- A directive that opens a header, and the lowering of that header. -/
theorem nested {parent : Nat} {e : Directive} {inner : OpenFile}
    (hparent : s.unit.Receives parent) (hopens : e.opens? headers s = some inner)
    (h : Reaches headers inner (meet headers s parent e) t) :
    Reaches headers e.holder s t := by
  refine ⟨(meet_grows headers s parent e).trans h.1, fun files => ?_⟩
  have hstep : Step headers (e.holder :: files, s) _ _ := .directive e hparent
  rw [hopens] at hstep
  obtain ⟨log, hlog⟩ := h.2 (e.holder :: files)
  exact ⟨_, ((Runs.single hstep).trans hlog).tail (.leave inner)⟩

end Reaches

end Lowering

end SymbolAtlas
