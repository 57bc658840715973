/-!
# TOML tables

Values of a TOML document, and tables while they are being read.  A table can be opened by a header,
come about as the parent of another one, or through a dotted key; a key is given once, and no table
is defined twice.

Main facts: a value just given is found under its key (`Toml.Table.find?_set`).
-/

set_option autoImplicit false

namespace SymbolAtlas.Toml

/-- A value.  Dates, times and floating point numbers are told apart from other values only. -/
inductive Value where
  | text (s : String)
  | integer (n : Int)
  | float
  | boolean (b : Bool)
  | moment
  | array (items : List Value)
  | table (entries : List (String × Value))
deriving Inhabited

mutual

/-- What stands under a key while a document is read. -/
inductive Item where
  | value (v : Value)
  | table (t : Table)
  /-- An array of tables, oldest first. -/
  | tables (ts : List Table)

/-- A table while a document is read. -/
inductive Table where
  /-- `implicit`: it only came about on the way to another table; `dotted`: by a dotted key. -/
  | mk (implicit dotted : Bool) (entries : List (String × Item))

end

namespace Table

/-- A table that nothing was put into. -/
def empty : Table := .mk false false []

instance : Inhabited Table := ⟨empty⟩

/-- The table only came about on the way to another one. -/
def isImplicit : Table → Bool
  | .mk i _ _ => i

/-- The table came about by a dotted key. -/
def isDotted : Table → Bool
  | .mk _ d _ => d

/-- What was put into the table. -/
def entries : Table → List (String × Item)
  | .mk _ _ es => es

/-- What stands under a key. -/
def find? (t : Table) (key : String) : Option Item := t.entries.lookup key

/-- Puts an item under a key in place of what is there. -/
def set : Table → String → Item → Table
  | .mk i d es, key, item => .mk i d (es.filter (·.1 != key) ++ [(key, item)])

/-- Works on the table that a path leads to; missing tables on the way come about.  A dotted path
    does not lead through a table that a header defines, and no path through a value. -/
def within (dotted : Bool) (f : Table → Option Table) : List String → Table → Option Table
  | [], t => f t
  | key :: rest, t =>
    match t.find? key with
    | none => (within dotted f rest (.mk true dotted [])).map fun sub => t.set key (.table sub)
    | some (.value _) => none
    | some (.table sub) =>
      if dotted && !sub.isImplicit then none
      else (within dotted f rest sub).map fun sub => t.set key (.table sub)
    | some (.tables ts) =>
      (within dotted f rest (ts.getLastD empty)).map fun sub =>
        t.set key (.tables (ts.dropLast ++ [sub]))

/-- Gives a value to a new key. -/
def insertNew (key : String) (v : Value) (t : Table) : Option Table :=
  match t.find? key with
  | none => some (t.set key (.value v))
  | some _ => none

/-- Gives a value to a dotted key.  The table it stands in must have come about that way. -/
def insertDotted (path : List String) (key : String) (v : Value) (t : Table) : Option Table :=
  within true
    (fun sub => if !path.isEmpty && !sub.isDotted then none else sub.insertNew key v) path t

/-- Opens the table of a header; it may have come about on the way to another header. -/
def openTable (key : String) (t : Table) : Option Table :=
  match t.find? key with
  | none => some (t.set key (.table empty))
  | some (.table sub) =>
    if sub.isImplicit && !sub.isDotted then some (t.set key (.table (.mk false false sub.entries)))
    else none
  | some _ => none

/-- Adds a table to the array of a header. -/
def openElement (key : String) (t : Table) : Option Table :=
  match t.find? key with
  | none => some (t.set key (.tables [empty]))
  | some (.tables ts) => some (t.set key (.tables (ts ++ [empty])))
  | some _ => none

mutual

/-- The values of a table that was read. -/
def toValue : Table → Value
  | .mk _ _ es => .table (entryValues es)

/-- The values of all entries. -/
def entryValues : List (String × Item) → List (String × Value)
  | [] => []
  | (key, item) :: rest => (key, itemValue item) :: entryValues rest

/-- The value of an item. -/
def itemValue : Item → Value
  | .value v => v
  | .table t => toValue t
  | .tables ts => .array (tableValues ts)

/-- The values of the tables in an array. -/
def tableValues : List Table → List Value
  | [] => []
  | t :: rest => toValue t :: tableValues rest

end

theorem find?_set (t : Table) (key : String) (item : Item) :
    (t.set key item).find? key = some item := by
  cases t with
  | mk i d es =>
    have hnone : (es.filter (·.1 != key)).lookup key = none := by
      rw [List.lookup_eq_none_iff]
      intro p hp
      have := (List.mem_filter.mp hp).2
      simp only [bne_iff_ne, ne_eq] at this
      simpa using fun h : key = p.1 => this h.symm
    show ((es.filter (·.1 != key)) ++ [(key, item)]).lookup key = some item
    rw [List.lookup_append, hnone]
    simp

end Table

namespace Value

/-- What a path of keys leads to. -/
def at? : List String → Value → Option Value
  | [], v => some v
  | key :: rest, .table es => (es.lookup key).bind (at? rest)
  | _ :: _, _ => none

end Value

end SymbolAtlas.Toml
