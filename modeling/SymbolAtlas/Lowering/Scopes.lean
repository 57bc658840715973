/-!
# Scopes

Declared names live in scopes, which form a tree under the global scope 0.  Every scope but that
one is opened inside an earlier scope, so looking a name up from the inside out always ends.

Main facts: a name just bound is found in its scope (`Scopes.named?_bind`) and hides nothing else
(`Scopes.named?_bind_of_ne`).
-/

set_option autoImplicit false

namespace SymbolAtlas

/-- A region of names, each bound to the number of a cursor. -/
structure Scope where
  /-- The scope around this one. -/
  parent : Option Nat := none
  /-- Bound names; a later binding of a name stands in front of an earlier one. -/
  names : List (String × Nat) := []
  /-- The record whose members the scope holds. -/
  record : Option String := none
deriving Inhabited

/-- All scopes of a unit; scope 0 is the global one. -/
structure Scopes where
  table : Array Scope := #[{}]

namespace Scopes

/-- The number of the global scope. -/
def global : Nat := 0

/-- Number of scopes. -/
def size (s : Scopes) : Nat := s.table.size

/-- The scope with a number. -/
def scope (s : Scopes) (i : Nat) : Scope := s.table.getD i {}

/-- Opens a scope inside another; it gets the next free number. -/
def openIn (s : Scopes) (parent : Nat) (record : Option String) : Scopes :=
  ⟨s.table.push { parent := some parent, record }⟩

/-- What a name is bound to in one scope. -/
def named? (s : Scopes) (i : Nat) (name : String) : Option Nat := (s.scope i).names.lookup name

/-- Binds a name in a scope, over any earlier binding. -/
def bind (s : Scopes) (i : Nat) (name : String) (cursor : Nat) : Scopes :=
  ⟨s.table.modify i fun scope => { scope with names := (name, cursor) :: scope.names }⟩

/-- What a name is bound to in a scope or the nearest scope around it. -/
def lookup (s : Scopes) (i : Nat) (name : String) : Option Nat :=
  match s.named? i name with
  | some cursor => some cursor
  | none =>
    match (s.scope i).parent with
    | some p => if p < i then lookup s p name else none
    | none => none
termination_by i

/-- The first member with a name in any record. -/
def anyMember? (s : Scopes) (name : String) : Option Nat :=
  s.table.toList.findSome? fun scope =>
    if scope.record.isSome then scope.names.lookup name else none

/-! ### Facts -/

theorem named?_bind (s : Scopes) {i : Nat} (h : i < s.size) (name : String) (cursor : Nat) :
    (s.bind i name cursor).named? i name = some cursor := by
  have h' : i < s.table.size := h
  simp [named?, scope, bind, h', Array.getElem_modify]

theorem named?_bind_of_ne (s : Scopes) (i : Nat) {name other : String} (h : other ≠ name)
    (cursor : Nat) : (s.bind i name cursor).named? i other = s.named? i other := by
  have hb : (other == name) = false := by simpa using h
  by_cases hi : i < s.table.size
  · simp [named?, scope, bind, hi, Array.getElem_modify, List.lookup_cons, hb]
  · simp [named?, scope, bind, hi]

end Scopes

end SymbolAtlas
