import SymbolAtlas.Proofs.LoweringPositions
import SymbolAtlas.Proofs.MacroUses

/-!
# What a scope knows of a name

Each scope knows a name by one cursor, of all that are declared under it there.  The first one keeps
the name, unless it is a record without a body: that one gives way to the first definition that
comes later, whatever it defines.

* `Lowering.declaredUnder` — the cursors declared under a name in a scope, in turn.
* `TranslationUnit.keeper` — which of some cursors keeps the name.
* `Lowering.Kept` — what each scope knows, told from what was declared so far.

Principal results: `Kept.apply`, `Kept.passes` — each act, and so each row of acts, leaves it so;
`Lowering.scope_entries` — what scopes know at every point of a lowering.
-/

set_option autoImplicit false

namespace SymbolAtlas

namespace TranslationUnit

variable {u v : TranslationUnit}

/-- The cursor that keeps the name, of those declared under it in turn: the first one; or if that is
    a record without a body, the first of the others that takes over, if there is one. -/
def keeper (u : TranslationUnit) (takes : Nat → Bool) : List Nat → Option Nat
  | [] => none
  | first :: later =>
    if (u.kind first).isRecord && !u.isDefinition first then (later.find? takes).or (some first)
    else some first

/-- One more declaration: the name is free, or it may be taken over. -/
theorem keeper_append (u : TranslationUnit) (declared : List Nat) (id : Nat) :
    u.keeper u.isDefinition (declared ++ [id]) =
      match u.keeper u.isDefinition declared with
      | none => some id
      | some old => if Lowering.takesOver u old id then some id else some old := by
  cases declared with
  | nil =>
    show u.keeper u.isDefinition [id] = some id
    simp [keeper]
  | cons first later =>
    rw [List.cons_append, keeper, keeper, List.find?_append]
    cases hforward : (u.kind first).isRecord && !u.isDefinition first with
    | false => simp [Lowering.takesOver, hforward]
    | true =>
      cases hfind : later.find? u.isDefinition with
      | none =>
        cases hid : u.isDefinition id <;> simp [Lowering.takesOver, hforward, hid]
      | some found =>
        -- a definition has taken the name over, and keeps it
        have hdefinition : u.isDefinition found = true := List.find?_some hfind
        simp [Lowering.takesOver, hdefinition]

/-- What is made later does not matter. -/
theorem Grows.keeper (h : u.Grows v) {declared : List Nat} (hmade : ∀ id ∈ declared, id < u.size) :
    v.keeper v.isDefinition declared = u.keeper u.isDefinition declared := by
  cases declared with
  | nil => rfl
  | cons first later =>
    obtain ⟨hfirst, hlater⟩ := List.forall_mem_cons.mp hmade
    have hfind : later.find? v.isDefinition = later.find? u.isDefinition := by
      rw [← List.head?_filter, ← List.head?_filter,
        List.filter_congr fun id hid => h.isDefinition (hlater id hid)]
    rw [TranslationUnit.keeper, TranslationUnit.keeper, h.kind hfirst, h.isDefinition hfirst, hfind]

end TranslationUnit

namespace Lowering

variable {s t : Lowering} {a : Act} {past acts : List Act} {scope : Nat} {name : String}

/-- The cursors that the acts declare under a name in a scope, in turn.  A nameless thing is not
    declared. -/
def declaredUnder (acts : List Act) (scope : Nat) (name : String) : List Nat :=
  acts.filterMap fun
    | .declare scope' name' cursor =>
      if scope' = scope ∧ name' = name ∧ name ≠ "" then some cursor else none
    | _ => none

theorem declaredUnder_append (acts acts' : List Act) (scope : Nat) (name : String) :
    declaredUnder (acts ++ acts') scope name =
      declaredUnder acts scope name ++ declaredUnder acts' scope name :=
  List.filterMap_append

theorem declaredUnder_declare (scope : Nat) (name : String) (cursor other : Nat)
    (spelled : String) :
    declaredUnder [.declare scope name cursor] other spelled =
      if scope = other ∧ name = spelled ∧ spelled ≠ "" then [cursor] else [] := by
  rw [declaredUnder, List.filterMap_cons, List.filterMap_nil]
  split <;> simp_all

/-- Each scope knows each name by the cursor that keeps it, of those declared so far. -/
structure Kept (s : Lowering) (past : List Act) : Prop where
  named : ∀ scope name, s.scopes.named? scope name =
    s.unit.keeper s.unit.isDefinition (declaredUnder past scope name)
  made : ∀ scope name, ∀ id ∈ declaredUnder past scope name, id < s.unit.size

/-- The scopes behind a declaration. -/
theorem scopes_declare (scope : Nat) (name : String) (cursor : Nat) (s : Lowering) :
    ((declare scope name cursor).run s).2.scopes =
      if name.isEmpty then s.scopes
      else if (match s.scopes.named? scope name with
          | none => true
          | some old => takesOver s.unit old cursor) then s.scopes.bind scope name cursor
      else s.scopes := by
  show (if name.isEmpty then s else _).scopes = _
  refine (apply_ite scopes _ _ _).trans (if_congr Iff.rfl rfl ?_)
  exact apply_ite scopes _ _ _

/-- What a scope knows of a name behind a declaration of the name there. -/
theorem named?_declare {cursor : Nat} (hscope : scope < s.scopes.size) (hname : name ≠ "") :
    ((declare scope name cursor).run s).2.scopes.named? scope name =
      match s.scopes.named? scope name with
      | none => some cursor
      | some old => if takesOver s.unit old cursor then some cursor else some old := by
  rw [scopes_declare, if_neg (by simpa using hname)]
  cases hnamed : s.scopes.named? scope name with
  | none => exact Scopes.named?_bind _ hscope name cursor
  | some old =>
    simp only
    split
    · exact Scopes.named?_bind _ hscope name cursor
    · exact hnamed

/-- A declaration leaves other names and other scopes alone. -/
theorem named?_declare_of_other {cursor other : Nat} {spelled : String}
    (h : ¬(scope = other ∧ name = spelled ∧ spelled ≠ "")) :
    ((declare scope name cursor).run s).2.scopes.named? other spelled =
      s.scopes.named? other spelled := by
  have hbind (hname : name ≠ "") :
      (s.scopes.bind scope name cursor).named? other spelled = s.scopes.named? other spelled := by
    by_cases hscopes : scope = other
    · subst hscopes
      exact Scopes.named?_bind_of_ne _ scope (fun hsame => h ⟨rfl, hsame.symm, hsame ▸ hname⟩)
        cursor
    · exact Scopes.named?_bind_of_apart _ (Ne.symm hscopes) name cursor
  rw [scopes_declare]
  split_ifs with hempty htakes
  · rfl
  · exact hbind (by simpa using hempty)
  · rfl

namespace Kept

/-- An act that declares nothing and leaves to all scopes what they know. -/
theorem still (h : s.Kept past) (hacts : ∀ scope name, declaredUnder [a] scope name = [])
    (hnamed : ∀ scope name,
      (a.apply s).scopes.named? scope name = s.scopes.named? scope name) :
    (a.apply s).Kept (past ++ [a]) where
  named scope name := by
    rw [hnamed, h.named, declaredUnder_append, hacts, List.append_nil,
      (a.later s).unit.keeper (h.made scope name)]
  made scope name id hid := by
    rw [declaredUnder_append, hacts, List.append_nil] at hid
    exact (a.later s).cursor_lt (h.made scope name id hid)

/-- **One more act leaves each name with the cursor that keeps it.** -/
theorem apply (h : s.Kept past) (ha : a.InRange s) : (a.apply s).Kept (past ++ [a]) := by
  cases a with
  | declare scope name cursor =>
    have hgrows := ((Act.declare scope name cursor).later s).unit
    have hmade : ∀ other spelled, ∀ id ∈ declaredUnder past other spelled ++
        declaredUnder [.declare scope name cursor] other spelled, id < s.unit.size :=
      fun other spelled id hid => by
        rcases List.mem_append.mp hid with hid | hid
        · exact h.made other spelled id hid
        · rw [declaredUnder_declare] at hid
          split at hid
          · exact List.mem_singleton.mp hid ▸ ha.2.1
          · cases hid
    refine ⟨fun other spelled => ?_, fun other spelled id hid => ?_⟩
    · rw [declaredUnder_append, hgrows.keeper (hmade other spelled), declaredUnder_declare]
      by_cases hthis : scope = other ∧ name = spelled ∧ spelled ≠ ""
      · obtain ⟨rfl, rfl, hname⟩ := hthis
        rw [if_pos ⟨rfl, rfl, hname⟩, TranslationUnit.keeper_append, ← h.named]
        exact named?_declare ha.1 hname
      · rw [if_neg hthis, List.append_nil, ← h.named]
        exact named?_declare_of_other hthis
    · rw [declaredUnder_append] at hid
      exact Nat.lt_of_lt_of_le (hmade other spelled id hid) hgrows.size
  | openScope parent record =>
    exact h.still (fun _ _ => rfl) fun scope name => Scopes.named?_openIn ..
  | push | own | setMembers | addSite | addForward | setType | expand | flush | define | undefine
  | meet => exact h.still (fun _ _ => rfl) fun _ _ => rfl

/-- **A row of acts leaves each name with the cursor that keeps it.** -/
theorem passes (hpasses : Passes s acts t) (h : s.Kept past) : t.Kept (past ++ acts) := by
  induction hpasses generalizing past with
  | nil => rwa [List.append_nil]
  | @cons s t a acts ha _ ih =>
    have hrest := ih (h.apply ha)
    rwa [List.append_assoc] at hrest

end Kept

/-- Before anything is lowered no scope knows a name. -/
theorem kept_init (mainFile canonical : Path) : (init mainFile canonical).Kept [] where
  named scope name := by
    cases scope with
    | zero => rfl
    | succ scope => rfl
  made _ _ _ hid := by cases hid

/-- **What scopes know of names.**  A lowering is a row of acts in range, which declare one after
    the other the cursors that declare something.  At every point of it each scope knows each name
    by the first cursor declared under it there; or if that is a record without a body, by the first
    definition declared under it there later, if there is one. -/
theorem scope_entries (headers : Headers) (main : Source) :
    ∃ acts, Passes (start headers main) acts (collect headers main) ∧
      (collect headers main).unit.declarations = declared acts ∧
      ∀ n scope name, let s := (start headers main).after (acts.take n)
        s.scopes.named? scope name =
          s.unit.keeper s.unit.isDefinition (declaredUnder (acts.take n) scope name) := by
  obtain ⟨acts, hpasses, hdeclared⟩ := passes_collect headers main
  exact ⟨acts, hpasses, hdeclared, fun n scope name =>
    (Kept.passes (hpasses.take n) (kept_init _ _)).named scope name⟩

/-- Where there is one scope only, the cursors declared under a name are those with this name. -/
theorem Passes.declaredUnder_global (h : Passes s acts t) (hflat : t.scopes.size ≤ 1)
    (hname : name ≠ "") :
    declaredUnder acts Scopes.global name =
      (declared acts).filter fun id => t.unit.spelling id = name := by
  induction h with
  | nil => rfl
  | @cons s t a acts ha hrest ih =>
    have hlater := (a.later s).trans hrest.later
    have htail := ih hflat
    cases a with
    | declare scope spelled cursor =>
      obtain ⟨hscope, hcursor, -, hspelled⟩ := ha
      have hglobal : scope = Scopes.global :=
        Nat.lt_one_iff.mp (Nat.lt_of_lt_of_le (hlater.scope_lt hscope) hflat)
      have hcons : declared (.declare scope spelled cursor :: acts) = cursor :: declared acts := rfl
      have happend := declaredUnder_append [.declare scope spelled cursor] acts Scopes.global name
      rw [List.singleton_append, declaredUnder_declare, htail] at happend
      rw [happend, hcons, List.filter_cons, hlater.unit.spelling hcursor, hspelled, hglobal]
      by_cases hthis : spelled = name
      · rw [if_pos ⟨rfl, hthis, hname⟩, if_pos (by simpa using hthis)]
        rfl
      · rw [if_neg fun h => hthis h.2.1, if_neg (by simpa using hthis)]
        rfl
    | push | own | openScope | setMembers | addSite | addForward | setType | expand | flush | define
    | undefine | meet => exact htail

/-- A record without a body, a variable of the same name, and a use of the record. -/
def redeclared : Source where
  path := ⟨"/w/a.c"⟩
  text := "struct S;\nint S;\nstruct S *p;\n"
  tree :=
    .node "translation_unit" true 0 30 [] [] [
      .node "struct_specifier" true 0 8 [(.name, [0])] [] [
        .node "type_identifier" true 7 8 [] [] []],
      .node "declaration" true 10 16 [(.type, [0]), (.declarator, [1])] [] [
        .node "primitive_type" true 10 13 [] [] [],
        .node "identifier" true 14 15 [] [] []],
      .node "declaration" true 17 29 [(.type, [0]), (.declarator, [1])] [] [
        .node "struct_specifier" true 17 25 [(.name, [0])] [] [
          .node "type_identifier" true 24 25 [] [] []],
        .node "pointer_declarator" true 26 28 [(.declarator, [0])] [] [
          .node "identifier" true 27 28 [] [] []]]]

/-- The variable takes the name over from the record, and the use goes to the variable. -/
theorem scope_entry_displaced :
    let s := collect noHeaders redeclared
    s.unit.kind 1 = .structDecl ∧ s.unit.isDefinition 1 = false ∧ s.unit.kind 2 = .varDecl ∧
      (∃ acts, Passes (start noHeaders redeclared) acts s ∧ s.unit.declarations = declared acts ∧
        declaredUnder acts Scopes.global "S" = [1, 2]) ∧
      s.unit.keeper (fun i => (s.unit.kind i).isRecord && s.unit.isDefinition i) [1, 2] = some 1 ∧
      s.scopes.named? Scopes.global "S" = some 2 ∧
      (TranslationUnit.ofSource noHeaders redeclared).kind 4 = .typeRef ∧
      (TranslationUnit.ofSource noHeaders redeclared).referenced 4 = some 2 := by
  intro s
  obtain ⟨hforward, hbodiless, hvariable, hkeeper, hnamed, hflat, hbearers, huse, hreferenced⟩ :
      s.unit.kind 1 = .structDecl ∧ s.unit.isDefinition 1 = false ∧ s.unit.kind 2 = .varDecl ∧
        s.unit.keeper (fun i => (s.unit.kind i).isRecord && s.unit.isDefinition i) [1, 2] = some 1 ∧
        s.scopes.named? Scopes.global "S" = some 2 ∧ s.scopes.size ≤ 1 ∧
        s.unit.declarations.filter (fun id => s.unit.spelling id = "S") = [1, 2] ∧
        (TranslationUnit.ofSource noHeaders redeclared).kind 4 = .typeRef ∧
        (TranslationUnit.ofSource noHeaders redeclared).referenced 4 = some 2 := by
    decide +kernel
  obtain ⟨acts, hpasses, hdeclared⟩ := passes_collect noHeaders redeclared
  refine ⟨hforward, hbodiless, hvariable, ⟨acts, hpasses, hdeclared, ?_⟩, hkeeper, hnamed, huse,
    hreferenced⟩
  rw [hpasses.declaredUnder_global hflat (by decide), ← hdeclared]
  exact hbearers

end Lowering

end SymbolAtlas
