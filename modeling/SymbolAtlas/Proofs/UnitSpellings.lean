import SymbolAtlas.Indexer
import SymbolAtlas.Proofs.RespelledUnits
import SymbolAtlas.Proofs.TreeRefinement

/-!
# What indexing sees of a unit

The graph knows canonical paths only.  Two units that spell the files of their cursors differently
have the same locations, and beyond the locations nothing of a position counts: the same cursors are
visited, the same tree is rebuilt, and the same nodes are added for it.

* `LocatedUnit.Respells` — two located units that differ in the spelling of files only.

Principal results: `LocatedUnit.respells_ofUnit` — where the cursors of the two stand is the same;
`CursorTree.reconstruct_respelled`, `LocatedUnit.Respells.indexTree` — so are their trees, and what
indexing them does.
-/

set_option autoImplicit false

namespace SymbolAtlas

namespace Position.Respells

variable {p q : Position}

theorem isSome_file (h : p.Respells q) : q.file.isSome = p.file.isSome := by
  have hfile := h.file
  generalize p.file = f, q.file = f' at hfile
  cases hfile with
  | none => rfl
  | some _ => rfl

theorem present (h : p.Respells q) : q.present = p.present := by
  rw [Position.present, Position.present, h.isSome_file, h.line]

end Position.Respells

namespace TranslationUnit.Respells

variable {u v : TranslationUnit}

theorem displayName (h : u.Respells v) (i : Nat) : v.displayName i = u.displayName i := by
  rw [TranslationUnit.displayName, (h.cursor i).same]
  rfl

theorem definition (h : u.Respells v) (i : Nat) : v.definition i = u.definition i := by
  rw [TranslationUnit.definition, h.isDefinition, (h.cursor i).same]
  rfl

theorem semanticParent (h : u.Respells v) (i : Nat) :
    v.semanticParent i = u.semanticParent i := by
  rw [TranslationUnit.semanticParent, (h.cursor i).same]
  rfl

theorem category (h : u.Respells v) (i : Nat) : v.category i = u.category i := by
  rw [TranslationUnit.category, h.kind, h.isDefinition]
  rfl

theorem hasFile (h : u.Respells v) (i : Nat) : v.hasFile i = u.hasFile i :=
  (h.cursor i).position.isSome_file

theorem verdict (h : u.Respells v) (i : Nat) : v.verdict i = u.verdict i := by
  rw [TranslationUnit.verdict, h.hasFile, h.kind]
  rfl

theorem named (h : u.Respells v) (i : Nat) : v.named i = u.named i := by
  rw [TranslationUnit.named, h.referenced, h.kind, h.definition]
  rfl

theorem reportedParent (h : u.Respells v) (i : Nat) :
    (v.cursor i).reportedParent = (u.cursor i).reportedParent := by
  rw [(h.cursor i).same]

theorem branches (h : u.Respells v) : v.branches = u.branches := by
  have hparents : v.cursors.map (·.parent) = u.cursors.map (·.parent) := by
    refine Array.ext ?_ fun i hi hi' => ?_
    · rw [Array.size_map, Array.size_map]
      exact h.size.symm
    · rw [Array.size_map] at hi hi'
      have hcursor : (v.cursor i).parent = (u.cursor i).parent := by rw [(h.cursor i).same]
      rw [Array.getElem_map, Array.getElem_map]
      simpa [TranslationUnit.cursor, hi, hi'] using hcursor
  rw [TranslationUnit.branches, hparents]
  rfl

/-- The same cursors are visited, and report the same parents. -/
theorem visited (h : u.Respells v) : v.visited = u.visited := by
  unfold TranslationUnit.visited TranslationUnit.visit
  simp only [h.hasFile, h.verdict, h.branches, h.reportedParent]

theorem lookOrder (h : u.Respells v) : v.lookOrder = u.lookOrder := by
  have hsemantic : v.semanticParent = u.semanticParent := funext h.semanticParent
  have hnamed : v.named = u.named := funext h.named
  have hpresent : ∀ i, (v.position i).present = (u.position i).present :=
    fun i => (h.cursor i).position.present
  unfold TranslationUnit.lookOrder
  simp only [h.visited, h.category, hpresent, hsemantic, hnamed, h.size]

end TranslationUnit.Respells

/-! ## Locations -/

/-- Two memos that know the same of the same files, which may be spelled differently. -/
def PathMemo.Respells (memo memo' : PathMemo) : Prop :=
  List.Forall₂ (fun k k' => k.1.Respells k'.1 ∧ k.2 = k'.2) memo.known memo'.known

theorem PathMemo.find?_respelled {known known' : List (Path × Path)} {f f' : Path}
    (hf : f.Respells f')
    (h : List.Forall₂ (fun k k' => k.1.Respells k'.1 ∧ k.2 = k'.2) known known') :
    (known'.find? (·.1 == f')).map (·.2) = (known.find? (·.1 == f)).map (·.2) := by
  induction h with
  | nil => rfl
  | @cons k k' _ _ hk _ ih =>
    have heq : (k'.1 == f') = (k.1 == f) := by
      rw [Bool.eq_iff_iff, Path.beq_iff_parts, Path.beq_iff_parts, hk.1.parts, hf.parts]
    rw [List.find?_cons, List.find?_cons, heq]
    split
    · exact congrArg some hk.2.symm
    · exact ih

theorem PathMemo.canonicalPath_respelled (fs : FileSystem) {memo memo' : PathMemo}
    (h : memo.Respells memo') {f f' : Path} (hf : f.Respells f') :
    (memo'.canonicalPath fs f').1 = (memo.canonicalPath fs f).1 ∧
      (memo.canonicalPath fs f).2.Respells (memo'.canonicalPath fs f').2 := by
  have hfind := PathMemo.find?_respelled hf h
  unfold PathMemo.canonicalPath
  cases hk : memo.known.find? (·.1 == f) with
  | some k =>
    rw [hk] at hfind
    obtain ⟨k', hk', hpath⟩ := Option.map_eq_some_iff.mp hfind
    rw [hk']
    exact ⟨hpath, h⟩
  | none =>
    rw [hk] at hfind
    rw [Option.map_eq_none_iff.mp hfind]
    refine ⟨(hf.canonical fs).symm, List.rel_append h (.cons ⟨hf, hf.canonical fs⟩ .nil)⟩

theorem PathMemo.location_respelled (fs : FileSystem) {memo memo' : PathMemo}
    (h : memo.Respells memo') {p q : Position} (hp : p.Respells q) :
    (memo'.location fs q).1 = (memo.location fs p).1 ∧
      (memo.location fs p).2.Respells (memo'.location fs q).2 := by
  obtain ⟨hfile, hline, hcolumn⟩ := hp
  unfold PathMemo.location
  rw [hline, hcolumn]
  generalize p.file = f, q.file = f' at hfile
  cases hfile with
  | none => exact ⟨rfl, h⟩
  | some hf =>
    obtain ⟨hpath, hmemo⟩ := PathMemo.canonicalPath_respelled fs h hf
    simp only
    split
    · exact ⟨rfl, h⟩
    · exact ⟨by rw [hpath], hmemo⟩

namespace LocatedUnit

/-- Two located units that are the same but for the spelling of files. -/
structure Respells (lu lv : LocatedUnit) : Prop where
  unit : lu.unit.Respells lv.unit
  places : lv.places = lu.places

/-- The cursors stand at the same locations. -/
theorem respells_ofUnit (fs : FileSystem) {u v : TranslationUnit} (h : u.Respells v) :
    (ofUnit fs u).Respells (ofUnit fs v) := by
  refine ⟨h, ?_⟩
  have hmemo : ∀ (order : List Nat) {memo memo' : PathMemo}, memo.Respells memo' →
      (order.foldl (fun (memo : PathMemo) i => (memo.location fs (u.position i)).2) memo).Respells
        (order.foldl (fun (memo : PathMemo) i => (memo.location fs (v.position i)).2) memo') := by
    intro order
    induction order with
    | nil => exact fun h => h
    | cons i order ih =>
      exact fun hm => ih (PathMemo.location_respelled fs hm (h.cursor i).position).2
  unfold ofUnit
  rw [h.lookOrder]
  have hlooked := @hmemo u.lookOrder {} {} .nil
  refine Array.ext ?_ fun i hi hi' => ?_
  · simp only [Array.size_map]
    exact h.size.symm
  · simp only [Array.size_map] at hi hi'
    simp only [Array.getElem_map]
    have hcursor := (h.cursor i).position
    simp only [TranslationUnit.cursor, Array.getD_eq_getD_getElem?, Array.getElem?_eq_getElem hi,
      Array.getElem?_eq_getElem hi', Option.getD_some] at hcursor
    exact (PathMemo.location_respelled fs hlooked hcursor).1

theorem Respells.place {lu lv : LocatedUnit} (h : lu.Respells lv) (i : Nat) :
    lv.place i = lu.place i := by
  rw [LocatedUnit.place, h.places]
  rfl

theorem Respells.alike {lu lv : LocatedUnit} (h : lu.Respells lv) (a b : Nat) :
    lv.alike a b = lu.alike a b := by
  rw [LocatedUnit.alike, h.unit.kind, h.unit.kind, h.place, h.place]
  rfl

end LocatedUnit

/-! ## Trees -/

namespace CursorTree

variable {lu lv : LocatedUnit}

theorem attachPoint_respelled (h : lu.Respells lv) (nodes : Array TreeNode) (reported : Nat) :
    attachPoint lv nodes reported = attachPoint lu nodes reported := by
  unfold attachPoint looksLike
  simp only [h.alike]

theorem attachCursor_respelled (h : lu.Respells lv) {nodes nodes' : Array TreeNode}
    {seen : Nat × Nat} (hattach : attachCursor lu nodes seen = .ok nodes') :
    attachCursor lv nodes seen = .ok nodes' := by
  unfold attachCursor at hattach ⊢
  rw [attachPoint_respelled h]
  split at hattach
  · exact hattach
  · cases hattach

/-- The same tree is rebuilt. -/
theorem reconstruct_respelled (h : lu.Respells lv) {tree : CursorTree}
    (htree : reconstruct lu = .ok tree) : reconstruct lv = .ok tree := by
  have hfold : ∀ (seen : List (Nat × Nat)) {nodes done : Array TreeNode},
      seen.foldlM (attachCursor lu) nodes = .ok done →
      seen.foldlM (attachCursor lv) nodes = .ok done := by
    intro seen
    induction seen with
    | nil => exact fun h => h
    | cons e seen ih =>
      intro nodes done hdone
      rw [List.foldlM_cons] at hdone ⊢
      cases hattach : attachCursor lu nodes e with
      | error _ =>
        rw [hattach] at hdone
        cases hdone
      | ok mid =>
        rw [hattach] at hdone
        rw [attachCursor_respelled h hattach]
        exact ih hdone
  rw [reconstruct_eq_attachAll] at htree ⊢
  cases hall : attachAll lu with
  | error _ =>
    rw [hall] at htree
    cases htree
  | ok nodes =>
    have hall' : attachAll lv = .ok nodes := by
      rw [attachAll, h.unit.visited]
      exact hfold _ hall
    rw [hall']
    rw [hall] at htree
    exact htree

end CursorTree

/-! ## Nodes -/

namespace LocatedUnit.Respells

variable {lu lv : LocatedUnit}

theorem symbol (h : lu.Respells lv) (category : Category) (cursor : Nat) (location : Location) :
    lv.symbol category cursor location = lu.symbol category cursor location := by
  unfold LocatedUnit.symbol
  rw [h.unit.kind, h.unit.spelling, h.unit.displayName]

theorem semanticOwner (h : lu.Respells lv) (tree : CursorTree) (g : SymbolGraph) (id : Nat) :
    Declarations.semanticOwner lv tree g id = Declarations.semanticOwner lu tree g id := by
  unfold Declarations.semanticOwner
  simp only [h.unit.semanticParent, h.alike, h.place]

theorem siblingMacro (h : lu.Respells lv) (tree : CursorTree) (g : SymbolGraph)
    (siblings : List Nat) (name : String) :
    Declarations.siblingMacro lv tree g siblings name =
      Declarations.siblingMacro lu tree g siblings name := by
  unfold Declarations.siblingMacro
  simp only [h.unit.kind, h.unit.spelling, h.place]

theorem expandMacro (h : lu.Respells lv) (tree : CursorTree) (siblings : List Nat)
    (s : Declarations SymbolGraph) (cursor : Nat) (location : Location) :
    Declarations.expandMacro lv tree siblings s cursor location =
      Declarations.expandMacro lu tree siblings s cursor location := by
  unfold Declarations.expandMacro
  simp only [h.siblingMacro, h.unit.spelling, h.symbol]

theorem add (h : lu.Respells lv) (tree : CursorTree) (owner : Nat) (s : Declarations SymbolGraph)
    (id : Nat)
    (category : Category) (location : Location) :
    Declarations.add lv tree owner s id category location =
      Declarations.add lu tree owner s id category location := by
  unfold Declarations.add
  simp only [h.semanticOwner, h.symbol]

theorem enter (h : lu.Respells lv) (tree : CursorTree) (siblings : List Nat) (owner : Nat)
    (s : Declarations SymbolGraph) (id : Nat) :
    Declarations.enter lv tree siblings owner s id =
      Declarations.enter lu tree siblings owner s id := by
  have hexpand : Declarations.expandMacro lv tree siblings s (tree.cursor id) =
      Declarations.expandMacro lu tree siblings s (tree.cursor id) := funext (h.expandMacro _ _ _ _)
  unfold Declarations.enter
  simp only [h.unit.kind, h.unit.category, h.place, hexpand, h.add]

mutual

theorem visit (h : lu.Respells lv) (tree : CursorTree) (siblings : List Nat) (owner : Nat) :
    ∀ (b : Branch) (s : Declarations SymbolGraph), Declarations.visit lv tree siblings owner b s =
      Declarations.visit lu tree siblings owner b s
  | .node id below, s => by
    rw [Declarations.visit, Declarations.visit, h.enter]
    split
    · rfl
    · exact visitAll h tree _ _ below _

theorem visitAll (h : lu.Respells lv) (tree : CursorTree) (siblings : List Nat) (owner : Nat) :
    ∀ (bs : List Branch)
      (s : Declarations SymbolGraph), Declarations.visitAll lv tree siblings owner bs s =
      Declarations.visitAll lu tree siblings owner bs s
  | [], _ => rfl
  | b :: bs, s => by
    rw [Declarations.visitAll, Declarations.visitAll, visit h tree siblings owner b,
      visitAll h tree siblings owner bs]

end

theorem target (h : lu.Respells lv) (cursor : Nat) (location : Location) :
    References.target lv cursor location = References.target lu cursor location := by
  unfold References.target
  simp only [h.unit.kind, h.unit.referenced, h.unit.definition, h.place]

theorem insertBelow (h : lu.Respells lv) (s : References SymbolGraph) (cursor : Nat)
    (location : Location)
    (node : Nat) : References.insertBelow lv s cursor location node =
      References.insertBelow lu s cursor location node := by
  unfold References.insertBelow
  simp only [h.symbol]

theorem attach (h : lu.Respells lv) (tree : CursorTree) (s : References SymbolGraph) (id : Nat)
    (location : Location) :
    References.attach lv tree s id location = References.attach lu tree s id location := by
  unfold References.attach
  simp only [h.unit.kind, h.unit.spelling, h.target, h.place, h.insertBelow]

theorem site (h : lu.Respells lv) (tree : CursorTree) (s : References SymbolGraph) (id : Nat)
    (location : Option Location) :
    References.site lv tree s id location = References.site lu tree s id location := by
  unfold References.site
  simp only [h.unit.kind, h.unit.spelling, h.unit.category, h.attach]

mutual

theorem resolve (h : lu.Respells lv) (tree : CursorTree) (location : Option Location) :
    ∀ (b : Branch) (s : References SymbolGraph),
      References.resolve lv tree location b s = References.resolve lu tree location b s
  | .node id below, s => by
    rw [References.resolve, References.resolve, h.site]
    split
    · exact sweep h tree below _
    · rfl

theorem sweep (h : lu.Respells lv) (tree : CursorTree) :
    ∀ (bs : List Branch) (s : References SymbolGraph),
      References.sweep lv tree bs s = References.sweep lu tree bs s
  | [], _ => rfl
  | b :: bs, s => by
    rw [References.sweep, References.sweep, h.place, resolve h tree _ b, sweep h tree bs]

end

/-- **Indexing sees no difference between two spellings.** -/
theorem indexTree (h : lu.Respells lv) (tree : CursorTree) (g : SymbolGraph) :
    SymbolAtlas.indexTree lv tree g = SymbolAtlas.indexTree lu tree g := by
  have hbuild : Declarations.build lv tree g = Declarations.build lu tree g :=
    h.visit tree [] SymbolGraph.root tree.branch _
  unfold SymbolAtlas.indexTree indexTreeInto References.resolvePending
  simp only [hbuild, h.resolve]

end LocatedUnit.Respells

end SymbolAtlas
