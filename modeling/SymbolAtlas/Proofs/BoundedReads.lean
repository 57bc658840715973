import SymbolAtlas.Proofs.LoweringPositions

/-!
# Reading by number

A lowering looks names up through the numbers of cursors and scopes that its state holds.  Here each
look-up has a twin that is refused where a number is not there, and that goes out through no more
scopes than there are.  In a state in order no twin is refused, and it finds what the look-up finds;
and a lowering, with the binding behind it, is in order at every step.

* `Reading` — a reading by number: refused, or with an answer.
* `Scopes.climb`, `Lowering.readOwner`, `.readQualified`, `.readRecordScope`, `.readMember`,
  `.readTarget` — the twins of the look-ups.
* `Lowering.readAll` — the twin of the binding of all uses.
* `Lowering.Readable` — a state in order, with all that can be looked up in it.

Principal results: `InOrder.readable` — look-ups in a state in order end, and read nothing that is
not there; `InOrder.bindSite`, `InOrder.linkForward` — each step of the binding keeps a state in
order; `Lowering.numbers_there` — so it is from the first step of a lowering to the last of the
binding.
-/

set_option autoImplicit false

namespace SymbolAtlas

/-- A reading by number: it is refused if a number is not there, and may find nothing otherwise. -/
abbrev Reading := OptionT Option

namespace Reading

variable {α β : Type} {r : Reading α} {answer : Option α}

/-- Reads what is held under a number below a bound. -/
def place (i bound : Nat) (held : Option α) : Reading α :=
  .mk (if i < bound then some held else none)

/-- What is known without a number. -/
def known (held : Option α) : Reading α := .mk (some held)

/-- The reading is not refused, and this is what it finds. -/
def Finds (r : Reading α) (answer : Option α) : Prop := r.run = some answer

theorem finds_place {i bound : Nat} (h : i < bound) (held : Option α) :
    (place i bound held).Finds held :=
  if_pos h

theorem finds_known (held : Option α) : (known held).Finds held := rfl

theorem Finds.bind {f : α → Reading β} {g : α → Option β} (h : r.Finds answer)
    (hf : ∀ a, answer = some a → (f a).Finds (g a)) : (r >>= f).Finds (answer.bind g) := by
  rw [Finds, OptionT.run_bind, show r.run = some answer from h]
  cases answer with
  | none => rfl
  | some a => exact hf a rfl

theorem Finds.orElse {r' : Reading α} {answer' : Option α} (h : r.Finds answer)
    (h' : r'.Finds answer') : (r <|> r').Finds (answer <|> answer') := by
  rw [Finds, OptionT.run_orElse, show r.run = some answer from h]
  cases answer with
  | none => exact h'
  | some a => rfl

theorem finds_foldlM {f : β → α → Reading β} {g : β → α → Option β} (l : List α)
    (hf : ∀ b a, (f b a).Finds (g b a)) (b : β) : (l.foldlM f b).Finds (l.foldlM g b) := by
  induction l generalizing b with
  | nil => rfl
  | cons a l ih =>
    rw [List.foldlM_cons, List.foldlM_cons]
    exact (hf b a).bind fun c _ => ih c

end Reading

open Reading (place known finds_place finds_known finds_foldlM)

/-- What a name is bound to in a scope or the nearest scope around it, out through at most so many
    scopes. -/
def Scopes.climb (s : Scopes) : Nat → Nat → String → Reading Nat
  | 0, _, _ => .mk none
  | n + 1, i, name => .mk <|
    if i < s.size then
      match s.named? i name with
      | some cursor => some (some cursor)
      | none =>
        match (s.scope i).parent with
        | some p => (s.climb n p name).run
        | none => some none
    else none

/-- Out through the scopes, each inside an earlier one, no number is read that is not there. -/
theorem Scopes.Rooted.finds_climb {s : Scopes} (h : s.Rooted) {n i : Nat} (hi : i < s.size)
    (hn : i < n) (name : String) : (s.climb n i name).Finds (s.lookup i name) := by
  induction n generalizing i with
  | zero => exact absurd hn (Nat.not_lt_zero i)
  | succ n ih =>
    show (if i < s.size then _ else none) = _
    rw [if_pos hi, Scopes.lookup]
    cases hnamed : s.named? i name with
    | some cursor => rfl
    | none =>
      simp only
      by_cases hglobal : i = Scopes.global
      · rw [hglobal, h.top]
      · obtain ⟨p, hlt, hparent⟩ := h.parents i hi hglobal
        rw [hparent]
        simp only
        rw [if_pos hlt]
        exact ih (Nat.lt_trans hlt hi) (Nat.lt_of_lt_of_le hlt (Nat.le_of_lt_succ hn))

namespace Lowering

variable {s t : Lowering} {scope : Nat}

/-! ## The twins of the look-ups -/

/-- What a name means in a scope. -/
def readName (s : Lowering) (scope : Nat) (name : String) : Reading Nat :=
  s.scopes.climb s.scopes.size scope name

/-- What a name is bound to in one scope. -/
def readNamed (s : Lowering) (scope : Nat) (name : String) : Reading Nat :=
  place scope s.scopes.size (s.scopes.named? scope name)

/-- The record or namespace that names lead to from a scope. -/
def readOwner (s : Lowering) (scope : Nat) : List String → Reading Nat
  | [] => known none
  | first :: rest => do
    let start ← s.readName scope first
    rest.foldlM
      (fun owner name => do
        let inner ← known (s.memberScopes.lookup owner)
        s.readNamed inner name)
      start

/-- The scope that names lead to from a scope. -/
def readQualified (s : Lowering) (scope : Nat) (path : List String) : Reading Nat :=
  if path.isEmpty then pure Scopes.global
  else do
    let owner ← s.readOwner scope path
    known (s.memberScopes.lookup owner)

/-- The cursor that a hint names. -/
def readHinted (s : Lowering) : TypeHint → Reading Nat
  | .named name scope => s.readName scope name
  | .cursor id => pure id

/-- The scope with the members of the record that a hint leads to, over at most so many cursors. -/
def readHint (s : Lowering) : Nat → TypeHint → Reading Nat
  | 0, _ => known none
  | n + 1, hint => do
    let id ← s.readHinted hint
    let kind ← place id s.unit.size (some (s.unit.kind id))
    if kind.isRecord then known (s.memberScopes.lookup id)
    else do
      let next ← known (s.types.lookup id)
      s.readHint n next

/-- The scope with the members of a value's record. -/
def readRecordScope (s : Lowering) (value : Nat) : Reading Nat := do
  let hint ← known (s.types.lookup value)
  s.readHint maxAliases hint

/-- The member that is meant by a name behind a value. -/
def readMember (s : Lowering) (base : Option Nat) (name : String) : Reading Nat :=
  (do
    let cursor ← known base
    let value ← place cursor s.unit.size (s.unit.referenced cursor)
    let scope ← s.readRecordScope value
    s.readNamed scope name) <|>
  known (s.scopes.anyMember? name)

/-- The declaration that a use names. -/
def readTarget (s : Lowering) (site : UseSite) : Reading Nat :=
  match site.binding with
  | .lexical => s.readName site.scope site.name
  | .qualified path => do
    let scope ← s.readQualified site.scope path
    s.readNamed scope site.name
  | .member base => s.readMember base site.name

/-- Binds a use to its declaration, if both are there. -/
def readSite (s : Lowering) (site : UseSite) : Option Lowering := do
  let target ← (s.readTarget site).run
  if site.cursor < s.unit.size ∧ target.all (· < s.unit.size) then some (s.bindSite site) else none

/-- Links a record without a body to its definition, if both are there. -/
def readForward (s : Lowering) (f : Forward) : Option Lowering := do
  let found ← (s.readName f.scope f.name).run
  if f.cursor < s.unit.size ∧ found.all (· < s.unit.size) then some (s.linkForward f) else none

/-- Binds all uses in the order they were met, then links the records without a body. -/
def readAll (s : Lowering) : Option Lowering := do
  let bound ← s.sites.toList.foldlM readSite s
  s.forwards.toList.foldlM readForward bound

/-! ## Look-ups in a state in order -/

/-- The state is in order, and what can be looked up in it is looked up by numbers that are
    there. -/
structure Readable (s : Lowering) : Prop where
  inOrder : s.InOrder
  name : ∀ scope < s.scopes.size, ∀ name,
    (s.readName scope name).Finds (s.scopes.lookup scope name)
  owner : ∀ scope < s.scopes.size, ∀ path, (s.readOwner scope path).Finds (s.owner? scope path)
  qualified : ∀ scope < s.scopes.size, ∀ path,
    (s.readQualified scope path).Finds (s.qualifiedScope? scope path)
  record : ∀ value, (s.readRecordScope value).Finds (s.recordScope? value)
  member : ∀ base, (∀ cursor ∈ base, cursor < s.unit.size) → ∀ name,
    (s.readMember base name).Finds (s.member? base name)

namespace InOrder

theorem finds_name (h : s.InOrder) (hscope : scope < s.scopes.size) (name : String) :
    (s.readName scope name).Finds (s.scopes.lookup scope name) :=
  h.scopes.finds_climb hscope hscope name

theorem finds_owner (h : s.InOrder) (hscope : scope < s.scopes.size) (path : List String) :
    (s.readOwner scope path).Finds (s.owner? scope path) := by
  cases path with
  | nil => rfl
  | cons first rest =>
    refine (h.finds_name hscope first).bind fun start _ => finds_foldlM rest (fun _ _ => ?_) start
    exact (finds_known _).bind fun _ hinner => finds_place (h.memberScope_lt hinner) _

theorem finds_qualified (h : s.InOrder) (hscope : scope < s.scopes.size) (path : List String) :
    (s.readQualified scope path).Finds (s.qualifiedScope? scope path) := by
  unfold readQualified qualifiedScope?
  split
  · rfl
  · exact (h.finds_owner hscope path).bind fun _ _ => finds_known _

/-- The type that is noted for a cursor holds numbers that are there. -/
theorem within_type (h : s.InOrder) {id : Nat} {hint : TypeHint}
    (hlookup : s.types.lookup id = some hint) : hint.Within s.unit.size s.scopes.size := by
  obtain ⟨_, _, hmem, -⟩ := List.lookup_eq_some_iff.mp hlookup
  exact (h.within.types (id, hint) (hmem ▸ List.mem_append_right _ List.mem_cons_self)).2

/-- From hint to hint, also around a cycle of aliases. -/
theorem finds_hint (h : s.InOrder) (n : Nat) {hint : TypeHint}
    (hhint : hint.Within s.unit.size s.scopes.size) :
    (s.readHint n hint).Finds (s.hintScope? n hint) := by
  induction n generalizing hint with
  | zero => rfl
  | succ n ih =>
    have hcursor : ∀ id : Nat, id < s.unit.size →
        (do
          let kind ← place id s.unit.size (some (s.unit.kind id))
          if kind.isRecord then known (s.memberScopes.lookup id)
          else do
            let next ← known (s.types.lookup id)
            s.readHint n next : Reading Nat).Finds
          (if (s.unit.kind id).isRecord then s.memberScopes.lookup id
            else (s.types.lookup id).bind (s.hintScope? n)) := fun id hid => by
      refine Reading.Finds.bind (finds_place hid (some (s.unit.kind id)))
        (g := fun kind => if kind.isRecord then s.memberScopes.lookup id
          else (s.types.lookup id).bind (s.hintScope? n)) fun kind _ => ?_
      split
      · exact finds_known _
      · exact (finds_known _).bind fun next hnext => ih (h.within_type hnext)
    cases hint with
    | named name scope =>
      exact (h.finds_name hhint name).bind fun id hid => hcursor id (h.lookup_lt hid)
    | cursor id => exact hcursor id hhint

theorem finds_record (h : s.InOrder) (value : Nat) :
    (s.readRecordScope value).Finds (s.recordScope? value) :=
  (finds_known _).bind fun _ hhint => h.finds_hint _ (h.within_type hhint)

/-- The scope of members that a hint leads to is there. -/
theorem hintScope?_lt (h : s.InOrder) {n : Nat} {hint : TypeHint}
    (hscope : s.hintScope? n hint = some scope) : scope < s.scopes.size := by
  induction n generalizing hint with
  | zero => cases hscope
  | succ n ih =>
    obtain ⟨id, -, hscope⟩ := Option.bind_eq_some_iff.mp hscope
    split at hscope
    · exact h.memberScope_lt hscope
    · obtain ⟨next, -, hscope⟩ := Option.bind_eq_some_iff.mp hscope
      exact ih hscope

theorem qualifiedScope?_lt (h : s.InOrder) {path : List String} {inner : Nat}
    (hscope : s.qualifiedScope? scope path = some inner) : inner < s.scopes.size := by
  unfold qualifiedScope? at hscope
  split at hscope
  · cases hscope
    exact h.scopes.global
  · obtain ⟨_, -, hscope⟩ := Option.bind_eq_some_iff.mp hscope
    exact h.memberScope_lt hscope

theorem recordScope?_lt (h : s.InOrder) {value : Nat}
    (hscope : s.recordScope? value = some scope) : scope < s.scopes.size := by
  obtain ⟨_, -, hscope⟩ := Option.bind_eq_some_iff.mp hscope
  exact h.hintScope?_lt hscope

theorem finds_member (h : s.InOrder) {base : Option Nat}
    (hbase : ∀ cursor ∈ base, cursor < s.unit.size) (name : String) :
    (s.readMember base name).Finds (s.member? base name) := by
  refine Reading.Finds.orElse ?_ (finds_known _)
  rw [Option.bind_assoc]
  refine (finds_known base).bind fun cursor hcursor => ?_
  refine (finds_place (hbase cursor hcursor) _).bind fun value _ => ?_
  exact (h.finds_record value).bind fun scope hscope => finds_place (h.recordScope?_lt hscope) _

theorem readable (h : s.InOrder) : s.Readable where
  inOrder := h
  name _ hscope name := h.finds_name hscope name
  owner _ hscope path := h.finds_owner hscope path
  qualified _ hscope path := h.finds_qualified hscope path
  record value := h.finds_record value
  member _ hbase name := h.finds_member hbase name

end InOrder

/-! ## Binding in a state in order -/

theorem InOrder.anyMember?_lt (h : s.InOrder) {name : String} {id : Nat}
    (hmember : s.scopes.anyMember? name = some id) : id < s.unit.size := by
  obtain ⟨inner, hinner, hname⟩ := List.exists_of_findSome?_eq_some hmember
  split at hname
  · obtain ⟨i, hi, hat⟩ := List.getElem_of_mem hinner
    obtain ⟨_, _, hmem, -⟩ := List.lookup_eq_some_iff.mp hname
    have hscope : s.scopes.scope i = inner := by
      rw [Scopes.scope, Array.getD_eq_getD_getElem?, ← Array.getElem?_toList,
        List.getElem?_eq_getElem hi, hat]
      rfl
    exact h.within.names i (name, id)
      (hscope ▸ hmem ▸ List.mem_append_right _ List.mem_cons_self)
  · cases hname

/-- The declaration that a use names is there. -/
theorem InOrder.target?_lt (h : s.InOrder) {site : UseSite} {id : Nat}
    (htarget : s.target? site = some id) : id < s.unit.size := by
  unfold target? at htarget
  split at htarget
  · exact h.lookup_lt htarget
  · obtain ⟨_, -, hnamed⟩ := Option.bind_eq_some_iff.mp htarget
    exact h.named_lt hnamed
  · rcases Option.or_eq_some_iff.mp ((Option.orElse_eq_or ..).symm.trans htarget) with
      htyped | ⟨-, hany⟩
    · obtain ⟨_, -, hscope⟩ := Option.bind_eq_some_iff.mp htyped
      obtain ⟨_, -, hnamed⟩ := Option.bind_eq_some_iff.mp hscope
      exact h.named_lt hnamed
    · exact h.anyMember?_lt hany

/-- To bind a use or to link a record keeps the state in order, with the cursors and scopes that
    there are. -/
structure KeepsNumbers (s t : Lowering) : Prop where
  inOrder : t.InOrder
  size : t.unit.size = s.unit.size
  scopes : t.scopes.size = s.scopes.size
  forwards : t.forwards = s.forwards

/-- Other links are set in a cursor. -/
theorem InOrder.relink (h : s.InOrder) (i : Nat) {f : Cursor → Cursor}
    (hf : ∀ c : Cursor, c.LinksBelow s.unit.size → (f c).LinksBelow s.unit.size) :
    s.KeepsNumbers { s with unit := s.unit.modify i f } := by
  have hsize : (s.unit.modify i f).size = s.unit.size := TranslationUnit.size_modify ..
  refine ⟨⟨hsize ▸ h.root, h.scopes, ?_⟩, hsize, rfl, rfl⟩
  show Within { s with unit := s.unit.modify i f } (s.unit.modify i f).size s.scopes.size
  rw [hsize]
  refine { h.within with links := fun j => ?_ }
  rw [TranslationUnit.cursor_modify_eq]
  split
  · exact hf _ (h.within.links j)
  · exact h.within.links j

/-- **To bind a use keeps the state in order.** -/
theorem InOrder.bindSite (h : s.InOrder) (site : UseSite) : s.KeepsNumbers (s.bindSite site) := by
  unfold Lowering.bindSite
  split
  · rename_i target htarget
    exact h.relink _ fun c hc => { hc with
      referenced := by
        rintro _ ⟨⟩
        exact h.target?_lt htarget }
  · exact h.relink _ fun c hc => { hc with }

/-- **To link a record keeps the state in order.** -/
theorem InOrder.linkForward (h : s.InOrder) {f : Forward} (hcursor : f.cursor < s.unit.size) :
    s.KeepsNumbers (s.linkForward f) := by
  have hfound : ∀ d ∈ (s.scopes.lookup f.scope f.name).filter fun d =>
      (s.unit.kind d).isRecord && s.unit.isDefinition d, d < s.unit.size :=
    fun d hd => h.lookup_lt (Option.filter_eq_some_iff.mp hd).1
  unfold Lowering.linkForward
  generalize (s.scopes.lookup f.scope f.name).filter _ = found at hfound
  have hnamed : ∀ i ∈ some (found.getD f.cursor), i < s.unit.size := by
    rintro _ ⟨⟩
    cases found with
    | none => exact hcursor
    | some d => exact hfound d rfl
  exact h.relink _ fun c hc => { hc with
    referenced := by
      split
      · exact hc.referenced
      · exact hc.referenced
      · exact hnamed
    definition := by
      cases found with
      | none => exact hc.definition
      | some d => exact hfound }

/-- Steps of the binding one after another: none of their twins is refused. -/
theorem InOrder.foldl {α : Type} {step : Lowering → α → Lowering}
    {read : Lowering → α → Option Lowering} {P : α → Nat → Nat → Prop}
    (hstep : ∀ s a, s.InOrder → P a s.unit.size s.scopes.size →
      read s a = some (step s a) ∧ s.KeepsNumbers (step s a))
    {l : List α} (h : s.InOrder) (hl : ∀ a ∈ l, P a s.unit.size s.scopes.size) :
    l.foldlM read s = some (l.foldl step s) ∧ s.KeepsNumbers (l.foldl step s) := by
  induction l generalizing s with
  | nil => exact ⟨rfl, h, rfl, rfl, rfl⟩
  | cons a l ih =>
    obtain ⟨hread, hkeeps⟩ := hstep s a h (hl a List.mem_cons_self)
    obtain ⟨hreads, hrest⟩ := ih hkeeps.inOrder fun b hb => by
      rw [hkeeps.size, hkeeps.scopes]
      exact hl b (List.mem_cons_of_mem a hb)
    refine ⟨?_, hrest.inOrder, hrest.size.trans hkeeps.size, hrest.scopes.trans hkeeps.scopes,
      hrest.forwards.trans hkeeps.forwards⟩
    rw [List.foldlM_cons, hread]
    exact hreads

theorem InOrder.readSite_eq (h : s.InOrder) {site : UseSite}
    (hsite : site.Within s.unit.size s.scopes.size) :
    s.readSite site = some (s.bindSite site) ∧ s.KeepsNumbers (s.bindSite site) := by
  have htarget : (s.readTarget site).Finds (s.target? site) := by
    unfold readTarget target?
    cases hbinding : site.binding with
    | lexical => exact h.finds_name hsite.scope _
    | qualified path =>
      exact (h.finds_qualified hsite.scope path).bind fun _ hscope =>
        finds_place (h.qualifiedScope?_lt hscope) _
    | member base =>
      exact h.finds_member (fun cursor hcursor => hsite.base cursor (hcursor ▸ hbinding)) _
  have hall : (s.target? site).all (· < s.unit.size) = true := by
    cases hcase : s.target? site with
    | none => rfl
    | some target => exact decide_eq_true (h.target?_lt hcase)
  refine ⟨?_, h.bindSite site⟩
  rw [readSite, show (s.readTarget site).run = _ from htarget]
  exact if_pos ⟨hsite.cursor, hall⟩

theorem InOrder.readForward_eq (h : s.InOrder) {f : Forward}
    (hf : f.cursor < s.unit.size ∧ f.scope < s.scopes.size) :
    s.readForward f = some (s.linkForward f) ∧ s.KeepsNumbers (s.linkForward f) := by
  have hall : (s.scopes.lookup f.scope f.name).all (· < s.unit.size) = true := by
    cases hcase : s.scopes.lookup f.scope f.name with
    | none => rfl
    | some found => exact decide_eq_true (h.lookup_lt hcase)
  refine ⟨?_, h.linkForward hf.1⟩
  rw [readForward, show (s.readName f.scope f.name).run = _ from h.finds_name hf.2 f.name]
  exact if_pos ⟨hf.1, hall⟩

/-- Some of the uses are bound. -/
theorem InOrder.bindSites (h : s.InOrder) {sites : List UseSite} (hsites : sites ⊆ s.sites.toList) :
    sites.foldlM readSite s = some (sites.foldl Lowering.bindSite s) ∧
      s.KeepsNumbers (sites.foldl Lowering.bindSite s) :=
  h.foldl (P := UseSite.Within) (fun _ _ h hsite => h.readSite_eq hsite) fun site hsite =>
    h.within.sites site (Array.mem_toList_iff.mp (hsites hsite))

/-- Some of the records are linked, behind all uses. -/
theorem InOrder.linkForwards (h : s.InOrder) {forwards : List Forward}
    (hforwards : forwards ⊆ s.forwards.toList) :
    let bound := s.sites.toList.foldl Lowering.bindSite s
    forwards.foldlM readForward bound = some (forwards.foldl Lowering.linkForward bound) ∧
      bound.KeepsNumbers (forwards.foldl Lowering.linkForward bound) := by
  intro bound
  obtain ⟨-, hbound⟩ := h.bindSites (List.Subset.refl s.sites.toList)
  refine hbound.inOrder.foldl (P := fun f cursors scopes => f.cursor < cursors ∧ f.scope < scopes)
    (fun _ _ h hf => h.readForward_eq hf) fun f hf => ?_
  rw [hbound.size, hbound.scopes]
  exact h.within.forwards f (Array.mem_toList_iff.mp (hforwards hf))

/-- **At every step numbers are there.**  A lowering is a row of acts in range; behind each of them,
    at each node it comes to, behind each use that is bound and each record that is linked, scopes
    lie in earlier scopes, no number is held of a cursor or a scope that is not there, and all
    look-ups end and read by numbers that are there. -/
theorem numbers_there (headers : Headers) (main : Source) :
    let s := collect headers main
    let bound := s.sites.foldl bindSite s
    (∃ acts, Passes (start headers main) acts s ∧ s.unit.declarations = declared acts ∧
      ∀ n, ((start headers main).after (acts.take n)).Readable) ∧
    (∀ elsewhere, collectHeeding elsewhere headers main = s) ∧
    (∀ n, ((s.sites.toList.take n).foldl bindSite s).Readable) ∧
    (∀ n, ((s.forwards.toList.take n).foldl linkForward bound).Readable) ∧
    s.readAll = some s.bindAll := by
  intro s bound
  have hstart : (start headers main).InOrder := inOrder_init _ _
  obtain ⟨acts, hpasses, hdeclared⟩ := passes_collect headers main
  have hs : s.InOrder := hpasses.inOrder hstart
  have hbound : bound = s.sites.toList.foldl bindSite s := (Array.foldl_toList ..).symm
  refine ⟨⟨acts, hpasses, hdeclared, fun n => ((hpasses.take n).inOrder hstart).readable⟩,
    fun elsewhere => collectHeeding_eq elsewhere headers main, fun n => ?_, fun n => ?_, ?_⟩
  · exact (hs.bindSites (List.take_subset n _)).2.inOrder.readable
  · rw [hbound]
    exact (hs.linkForwards (List.take_subset n _)).2.inOrder.readable
  · obtain ⟨hsites, -⟩ := hs.bindSites (List.Subset.refl s.sites.toList)
    obtain ⟨hforwards, -⟩ := hs.linkForwards (List.Subset.refl s.forwards.toList)
    rw [readAll, hsites]
    show s.forwards.toList.foldlM readForward _ = some (s.forwards.foldl linkForward bound)
    rw [hforwards, hbound, Array.foldl_toList]

end Lowering

end SymbolAtlas
