import SymbolAtlas.Proofs.IncludeExpansion
import SymbolAtlas.Proofs.LoweredTrees
import SymbolAtlas.Proofs.Provenance

/-!
# Positions point at names

The name of a cursor and its position are worked out from the same token, but travel apart: through
nested headers, names inside of names, and uses of macros that are kept back.  Wherever a cursor
comes from, at its line and column the text of its file begins with its name.

* `Source.from?` — what is left of a text from a line and column on, read off the text alone.
* `Source.ReadsAt` — a position is in a file, and a name is what the text goes on with there.
* `Lowering.Named` — cursors stand at their names, and uses of macros do.

Principal results: `Source.from?_position` — a node's position leads to the byte where it begins;
`Named.step` — every step of a lowering keeps names at their positions;
`ofSource_positions_at_names` — so it is in lowered units, and for what indexing them adds.
-/

set_option autoImplicit false

namespace SymbolAtlas

/-! ## Lines and columns -/

namespace Source

/-- What is left of some bytes behind so many line breaks. -/
def afterBreaks : Nat → List UInt8 → Option (List UInt8)
  | 0, bytes => some bytes
  | _ + 1, [] => none
  | n + 1, b :: rest => if b = 10 then afterBreaks n rest else afterBreaks (n + 1) rest

/-- What is left of some bytes behind so many of the first line; nothing behind the end of all. -/
def afterBytes : Nat → List UInt8 → Option (List UInt8)
  | 0, bytes => some bytes
  | _ + 1, [] => some []
  | n + 1, b :: rest => if b = 10 then none else afterBytes n rest

/-- The bytes of a text. -/
def octets (s : Source) : List UInt8 := s.text.toUTF8.data.toList

/-- What is left of a text from a line and column on, both counted from 1. -/
def from? (s : Source) (line column : Nat) : Option (List UInt8) :=
  if line = 0 ∨ column = 0 then none
  else (afterBreaks (line - 1) s.octets).bind (afterBytes (column - 1))

theorem afterBreaks_succ (n : Nat) (bytes : List UInt8) :
    afterBreaks (n + 1) bytes = (afterBreaks n bytes).bind (afterBreaks 1) := by
  fun_induction afterBreaks n bytes with
  | case1 bytes => rfl
  | case2 => rfl
  | case3 n rest ih => rw [afterBreaks, if_pos rfl, ih]
  | case4 n b rest hb ih => rw [afterBreaks, if_neg hb, ih]

theorem afterBytes_succ (n : Nat) (bytes : List UInt8) :
    afterBytes (n + 1) bytes = (afterBytes n bytes).bind (afterBytes 1) := by
  fun_induction afterBytes n bytes with
  | case1 bytes => rfl
  | case2 n => rfl
  | case3 n rest => rfl
  | case4 n b rest hb ih => rw [afterBytes, if_neg hb, ih]

/-- Bytes of a line do not hold the break behind it. -/
theorem afterBreaks_of_afterBytes {n : Nat} {bytes rest : List UInt8}
    (h : afterBytes n bytes = some (10 :: rest)) : afterBreaks 1 bytes = some rest := by
  fun_induction afterBytes n bytes with
  | case1 bytes =>
    cases h
    rw [afterBreaks, if_pos rfl, afterBreaks]
  | case2 => cases h
  | case3 => cases h
  | case4 n b bytes hb ih => rw [afterBreaks, if_neg hb, ih h]

/-- **Line and column of a byte lead back to it.** -/
theorem afterBytes_lineColumn (bytes : ByteArray) (n : Nat) :
    ∃ line column, lineColumn bytes n = (line + 1, column + 1) ∧
      (afterBreaks line bytes.data.toList).bind (afterBytes column) =
        some (bytes.data.toList.drop n) := by
  induction n with
  | zero =>
    refine ⟨0, 0, rfl, ?_⟩
    rw [afterBreaks, Option.bind_some, afterBytes, List.drop_zero]
  | succ n ih =>
    obtain ⟨line, column, hpair, hrest⟩ := ih
    obtain ⟨front, hfront, hcolumn⟩ := Option.bind_eq_some_iff.mp hrest
    have hbyte : bytes[n]? = bytes.data.toList[n]? := Array.getElem?_toList.symm
    rw [lineColumn_succ, hpair, hbyte]
    cases hn : bytes.data.toList[n]? with
    | none =>
      -- behind the end of the text there is nothing to step over
      have hdrop := List.drop_eq_nil_of_le (List.getElem?_eq_none_iff.mp hn)
      rw [hdrop] at hcolumn
      refine ⟨line, column + 1, rfl, ?_⟩
      rw [hfront, Option.bind_some, afterBytes_succ, hcolumn,
        List.drop_eq_nil_of_le (Nat.le_succ_of_le (List.getElem?_eq_none_iff.mp hn))]
      rfl
    | some b =>
      obtain ⟨hlt, hb⟩ := List.getElem?_eq_some_iff.mp hn
      rw [List.drop_eq_getElem_cons hlt, hb] at hcolumn
      by_cases hbreak : b = 10
      · subst hbreak
        refine ⟨line + 1, 0, rfl, ?_⟩
        rw [afterBreaks_succ, hfront, Option.bind_some, afterBreaks_of_afterBytes hcolumn]
        rfl
      · refine ⟨line, column + 1, if_neg fun h => hbreak (Option.some.inj h), ?_⟩
        rw [hfront, Option.bind_some, afterBytes_succ, hcolumn, Option.bind_some, afterBytes,
          if_neg hbreak]
        rfl

/-- The position of a node leads to the byte where the node begins. -/
theorem from?_position (s : Source) (n : SyntaxNode) :
    s.from? (s.position n).line (s.position n).column = some (s.octets.drop n.start) := by
  obtain ⟨line, column, hpair, hrest⟩ := afterBytes_lineColumn s.text.toUTF8 n.start
  have hline : (s.position n).line = line + 1 := congrArg Prod.fst hpair
  have hcolumn : (s.position n).column = column + 1 := congrArg Prod.snd hpair
  rw [from?, hline, hcolumn, if_neg (by simp)]
  exact hrest

/-- What a node spells is what the text goes on with where the node begins. -/
theorem spelling_prefix (s : Source) (n : SyntaxNode) :
    (s.spelling n).toUTF8.data.toList <+: s.octets.drop n.start := by
  unfold spelling String.fromUTF8?
  split
  · show ((s.text.toUTF8.extract n.start n.stop).data.toList) <+: _
    rw [ByteArray.data_extract, Array.toList_extract, List.extract_eq_take_drop]
    exact List.take_prefix _ _
  · exact List.nil_prefix

/-- The position is in the file, and the text goes on with the name there. -/
structure ReadsAt (s : Source) (p : Position) (name : String) : Prop where
  file : p.file = some s.path
  text : ∃ rest, s.from? p.line p.column = some rest ∧ name.toUTF8.data.toList <+: rest

theorem readsAt_spelling (s : Source) (n : SyntaxNode) :
    s.ReadsAt (s.position n) (s.spelling n) :=
  ⟨rfl, _, s.from?_position n, s.spelling_prefix n⟩

/-- Nothing is named anywhere. -/
theorem readsAt_nameless (s : Source) (n : SyntaxNode) : s.ReadsAt (s.position n) "" :=
  ⟨rfl, _, s.from?_position n, List.nil_prefix⟩

end Source

/-! ## Lowerings -/

namespace Lowering

variable {headers : Headers} {main : Source} {file : OpenFile} {s t : Lowering}

/-- A file that a unit was made from: the main file, or a header that could be read. -/
def IsRead (headers : Headers) (main : Source) (u : TranslationUnit) (source : Source) : Prop :=
  source = main ∨ ∃ i ∈ u.inclusions, headers.load i.path = some source

/-- A position in one of the files, at which the text goes on with the name. -/
def AtName (headers : Headers) (main : Source) (u : TranslationUnit) (p : Position)
    (name : String) : Prop :=
  ∃ source, IsRead headers main u source ∧ source.ReadsAt p name

/-- A cursor that stands where its name is, or one of those that stand elsewhere. -/
def NamedAt (headers : Headers) (main : Source) (u : TranslationUnit) (c : Cursor) : Prop :=
  c.kind = .callExpr ∨ c.kind = .inclusionDirective ∨
    AtName headers main u c.position c.spelling

/-- All cursors stand where their names are, and so will those of macros. -/
structure Named (headers : Headers) (main : Source) (s : Lowering) : Prop where
  cursors : ∀ i, 0 < i → i < s.unit.size → NamedAt headers main s.unit (s.unit.cursor i)
  expansions : ∀ e ∈ s.expansions, AtName headers main s.unit e.position e.name

theorem IsRead.grows {u v : TranslationUnit} (hg : u.Grows v) {source : Source}
    (h : IsRead headers main u source) : IsRead headers main v source :=
  h.imp_right fun ⟨i, hi, hload⟩ => ⟨i, hg.inclusions.subset hi, hload⟩

theorem AtName.grows {u v : TranslationUnit} (hg : u.Grows v) {p : Position} {name : String}
    (h : AtName headers main u p name) : AtName headers main v p name := by
  obtain ⟨source, hread, hat⟩ := h
  exact ⟨source, hread.grows hg, hat⟩

namespace Named

/-- The cursors that were there stay where they are, so only the new ones have to be looked at. -/
theorem cursors_grows (hg : s.Grows t) (h : Named headers main s)
    (hnew : ∀ i, s.unit.size ≤ i → i < t.unit.size → NamedAt headers main t.unit (t.unit.cursor i))
    (i : Nat) (hpos : 0 < i) (hi : i < t.unit.size) :
    NamedAt headers main t.unit (t.unit.cursor i) := by
  rcases Nat.lt_or_ge i s.unit.size with hold | hge
  · obtain ⟨owner, howner⟩ := hg.unit.cursor i hold
    rw [howner]
    exact (h.cursors i hpos hold).imp_right fun h => h.imp_right fun h => h.grows hg.unit
  · exact hnew i hge hi

/-- A new cursor at the end of the unit. -/
theorem namedAt_of_push {parent : Nat} {c : Cursor}
    (hcursors : t.unit.cursors = (s.unit.push parent c).cursors)
    (hnamed : NamedAt headers main t.unit c) (i : Nat) (hge : s.unit.size ≤ i)
    (hi : i < t.unit.size) : NamedAt headers main t.unit (t.unit.cursor i) := by
  rw [(TranslationUnit.cursor_of_push hcursors hge hi).2]
  exact hnamed

theorem change (hchange : Change file s t) (hread : IsRead headers main s.unit file.source)
    (h : Named headers main s) : Named headers main t := by
  have hg := hchange.grows
  have hread' := hread.grows hg.unit
  refine ⟨h.cursors_grows hg ?_, ?_⟩
  · cases hchange with
    | push token _ _ _ _ _ hname =>
      refine namedAt_of_push rfl ?_
      rcases hname with rfl | rfl | hcall
      · exact .inr (.inr ⟨_, hread', file.source.readsAt_spelling token⟩)
      · exact .inr (.inr ⟨_, hread', file.source.readsAt_nameless token⟩)
      · exact .inl hcall
    | use token =>
      exact namedAt_of_push rfl (.inr (.inr ⟨_, hread', file.source.readsAt_spelling token⟩))
    | forward token =>
      exact namedAt_of_push rfl (.inr (.inr ⟨_, hread', file.source.readsAt_spelling token⟩))
    | flush =>
      intro i hge hi
      obtain ⟨e, he, hcursor⟩ := cursor_addExpansions s.unit s.expansions hge hi
      simp only [hcursor]
      exact .inr (.inr ((h.expansions e he).grows hg.unit))
    | own =>
      exact fun i hge hi => absurd hi
        (Nat.not_lt.mpr (Nat.le_trans (Nat.le_of_eq (TranslationUnit.size_modify ..)) hge))
    | bind | define | undefine | expand | openScope | note =>
      exact fun i hge hi => absurd hi (Nat.not_lt.mpr hge)
  · cases hchange with
    | expand token =>
      intro e he
      rcases Array.mem_push.mp he with hold | rfl
      · exact h.expansions e hold
      · exact ⟨_, hread, file.source.readsAt_spelling token⟩
    | flush => exact fun e he => absurd he (Array.not_mem_empty e)
    | push | use | forward | own | bind | define | undefine | openScope | note =>
      exact fun e he => (h.expansions e he).grows hg.unit

/-- A directive stands elsewhere than its name, and all else stays where it is. -/
theorem meet (h : Named headers main s) (parent : Nat) (e : Directive) :
    Named headers main (meet headers s parent e) := by
  have hg := meet_grows headers s parent e
  obtain ⟨included, inclusions, heq⟩ := meet_eq headers s parent e
  rw [heq] at hg ⊢
  exact ⟨h.cursors_grows hg (namedAt_of_push rfl (.inr (.inl rfl))),
    fun e he => (h.expansions e he).grows hg.unit⟩

end Named

/-- An open file has been read. -/
theorem Expanding.isRead {log : List Met} {c : Config}
    (h : Expanding headers (.main headers main) log c) (hfile : file ∈ c.1) :
    IsRead headers main c.2.unit file.source := by
  rcases h.open_ file hfile with rfl | hopened
  · exact .inl rfl
  · rw [h.expands.opened] at hopened
    obtain ⟨i, hi, hload⟩ := List.mem_filterMap.mp hopened
    obtain ⟨source, hsource, rfl⟩ := Option.map_eq_some_iff.mp hload
    exact .inr ⟨i, hi, hsource⟩

/-- **Every step of a lowering keeps names at their positions.** -/
theorem Named.step {log met : List Met} {c d : Config} (hstep : Step headers c met d)
    (hexpanding : Expanding headers (.main headers main) log c) (h : Named headers main c.2) :
    Named headers main d.2 := by
  cases hstep with
  | change hchange => exact h.change hchange (hexpanding.isRead List.mem_cons_self)
  | directive e => exact h.meet _ e
  | leave => exact h

/-- Names stand at their positions in all that a lowering has collected. -/
theorem named_collect (headers : Headers) (main : Source) :
    Named headers main (collect headers main) := by
  obtain ⟨log, hruns⟩ := (reaches_collect headers main).2 []
  refine (hruns.keeps (I := fun log c => Expanding headers (.main headers main) log c ∧
    Named headers main c.2) (fun _ _ _ _ hstep h => ⟨h.1.step hstep, h.2.step hstep h.1⟩)
    ⟨expanding_start headers main, ?_⟩).2
  exact ⟨fun i hpos hi => absurd hi (Nat.not_lt.mpr hpos),
    fun e he => absurd he (Array.not_mem_empty e)⟩

end Lowering

/-! ## Locations -/

namespace PathMemo

/-- What is remembered was worked out. -/
def Faithful (fs : FileSystem) (memo : PathMemo) : Prop :=
  ∀ e ∈ memo.known, e.2 = fs.canonicalPath e.1

variable {fs : FileSystem} {memo : PathMemo}

/-- A memo answers with the canonical path of a spelling that agrees by components. -/
theorem canonicalPath_of_faithful (h : memo.Faithful fs) (file : Path) :
    (memo.canonicalPath fs file).2.Faithful fs ∧
      ∃ spelled, (spelled == file) = true ∧
        (memo.canonicalPath fs file).1 = fs.canonicalPath spelled := by
  unfold canonicalPath
  cases hfound : memo.known.find? (·.1 == file) with
  | some e =>
    have hspelled := List.find?_some hfound
    exact ⟨h, e.1, hspelled, h e (List.mem_of_find?_eq_some hfound)⟩
  | none =>
    refine ⟨fun e he => ?_, file, BEq.refl file, rfl⟩
    rcases List.mem_append.mp he with he | he
    · exact h e he
    · rw [List.mem_singleton.mp he]

theorem location_faithful (h : memo.Faithful fs) (p : Position) :
    (memo.location fs p).2.Faithful fs := by
  unfold location
  split
  · split
    · exact h
    · exact (canonicalPath_of_faithful h _).1
  · exact h

theorem location_eq_some (h : memo.Faithful fs) {p : Position} {l : Location}
    (hl : (memo.location fs p).1 = some l) :
    l.line = p.line ∧ l.column = p.column ∧ ∃ file spelled, p.file = some file ∧
      (spelled == file) = true ∧ l.path = fs.canonicalPath spelled := by
  unfold location at hl
  split at hl
  · rename_i file hfile
    split at hl
    · cases hl
    · cases hl
      obtain ⟨-, spelled, hspelled, hpath⟩ := canonicalPath_of_faithful h file
      exact ⟨rfl, rfl, file, spelled, hfile, hspelled, hpath⟩
  · cases hl

end PathMemo

/-- The location of a cursor is its position, with the canonical path of the file. -/
theorem LocatedUnit.place_ofUnit {fs : FileSystem} {u : TranslationUnit} {i : Nat} {l : Location}
    (h : (ofUnit fs u).place i = some l) :
    i < u.size ∧ l.line = (u.position i).line ∧ l.column = (u.position i).column ∧
      ∃ file spelled, (u.position i).file = some file ∧ (spelled == file) = true ∧
        l.path = fs.canonicalPath spelled := by
  have hfaithful : (u.lookOrder.foldl
      (fun (memo : PathMemo) i => (memo.location fs (u.position i)).2) {}).Faithful fs :=
    List.foldlRecOn (motive := PathMemo.Faithful fs) _ _ (List.forall_mem_nil _)
      fun memo hmemo i _ => PathMemo.location_faithful hmemo _
  unfold place ofUnit at h
  simp only [Array.getElem?_map] at h
  cases hcursor : u.cursors[i]? with
  | none =>
    rw [hcursor] at h
    cases h
  | some c =>
    rw [hcursor] at h
    obtain ⟨hlt, hc⟩ := Array.getElem?_eq_some_iff.mp hcursor
    have hposition : u.position i = c.position := by
      rw [TranslationUnit.position, TranslationUnit.cursor, Array.getD_eq_getD_getElem?, hcursor]
      rfl
    rw [hposition]
    exact ⟨hlt, PathMemo.location_eq_some hfaithful h⟩

/-! ## Lowered units -/

open Lowering (IsRead AtName linkedHeaders macroUser macroUserUnit)

/-- Names stand at their positions in lowered units. -/
theorem TranslationUnit.atName_ofSource {headers : Headers} {main : Source} {i : Nat}
    (hpos : 0 < i) (hi : i < (ofSource headers main).size)
    (hcall : (ofSource headers main).kind i ≠ .callExpr)
    (hinclusion : (ofSource headers main).kind i ≠ .inclusionDirective) :
    AtName headers main (ofSource headers main) ((ofSource headers main).position i)
      ((ofSource headers main).spelling i) := by
  have hrebinds := rebinds_ofSource headers main
  have hnamed := (Lowering.named_collect headers main).cursors i hpos (hrebinds.size ▸ hi)
  rcases hnamed with hkind | hkind | hat
  · refine absurd ((hrebinds.kind ?_).trans hkind) hcall
    rw [kind, hkind]
    rfl
  · refine absurd ((hrebinds.kind ?_).trans hkind) hinclusion
    rw [kind, hkind]
    rfl
  · rw [hrebinds.position, hrebinds.spelling]
    obtain ⟨source, hread, hreads⟩ := hat
    refine ⟨source, hread.imp_right ?_, hreads⟩
    rintro ⟨i, hi, hload⟩
    exact ⟨i, hrebinds.inclusions ▸ hi, hload⟩

/-- A location in one of the files of a unit, at which the text goes on with the name. -/
def LocatedAtName (headers : Headers) (main : Source) (fs : FileSystem) (l : Location)
    (name : String) : Prop :=
  ∃ source, IsRead headers main (.ofSource headers main) source ∧
    (∃ spelled, (spelled == source.path) = true ∧ l.path = fs.canonicalPath spelled) ∧
    ∃ rest, source.from? l.line l.column = some rest ∧ name.toUTF8.data.toList <+: rest

section

variable {headers : Headers} {main : Source} {fs : FileSystem}

/-- A cursor with a location stands at its name, unless it is a call or a directive. -/
theorem locatedAtName_of_place {c : Nat} {l : Location}
    (hl : (LocatedUnit.ofUnit fs (.ofSource headers main)).place c = some l) (hpos : 0 < c)
    (hcall : (TranslationUnit.ofSource headers main).kind c ≠ .callExpr)
    (hinclusion : (TranslationUnit.ofSource headers main).kind c ≠ .inclusionDirective) :
    LocatedAtName headers main fs l ((TranslationUnit.ofSource headers main).spelling c) := by
  obtain ⟨hlt, hline, hcolumn, file, spelled, hfile, hspelled, hpath⟩ :=
    LocatedUnit.place_ofUnit hl
  obtain ⟨source, hread, hat⟩ := TranslationUnit.atName_ofSource hpos hlt hcall hinclusion
  cases hfile.symm.trans hat.file
  refine ⟨source, hread, ⟨spelled, hspelled, hpath⟩, ?_⟩
  rw [hline, hcolumn]
  exact hat.text

/-- What is of the category of something declared, or of a use, is no call and no directive. -/
theorem TranslationUnit.kind_ne_of_category {u : TranslationUnit} {c : Nat}
    (h : u.category c ≠ .invalid) :
    u.kind c ≠ .translationUnit ∧ u.kind c ≠ .callExpr ∧ u.kind c ≠ .inclusionDirective := by
  refine ⟨fun hkind => h ?_, fun hkind => h ?_, fun hkind => h ?_⟩ <;>
    rw [category, hkind] <;> rfl

/-- What never becomes a node names nothing of its own kind. -/
theorem Category.kind_of_invalid {k : CursorKind} {d : Bool} (h : ofCursor k d = .invalid) :
    k.isReference = false ∧ k.isRecord = false := by
  cases k <;> cases d <;> first | exact ⟨rfl, rfl⟩ | cases h

/-- What stands for something, at or inside a use of a bound unit, may become a node. -/
theorem category_ne_of_means {lu : LocatedUnit} {tree : CursorTree} (hbound : lu.unit.FullyBound)
    (hreports : lu.ReportsParents) (ht : CursorTree.reconstruct lu = .ok tree) {id t : Nat}
    (hu : tree.InsideUse lu id) (hm : lu.Means (tree.cursor id) t) :
    lu.unit.category (tree.cursor id) ≠ .invalid := by
  intro hinvalid
  obtain ⟨hreference, hrecord⟩ := Category.kind_of_invalid hinvalid
  rcases Branch.hangs_or_top (CursorTree.links tree.nodes) id with ⟨q, hq⟩ | htop
  · obtain ⟨hpos, hlt⟩ := (CursorTree.following_reconstruct hreports ht).cursor_bounds hq
    have hnone := (hbound.bound _ hpos hlt).rests.referenced_eq_none hreference hrecord
    cases hm with
    | definition hself =>
      rcases hself.1 with hkind | hkind
      · rw [hkind] at hrecord
        cases hrecord
      · rw [hkind] at hrecord
        cases hrecord
    | referenced _ href => cases hnone.symm.trans href
  · -- the root is no use, and inside none
    obtain ⟨a, ha, hcategory⟩ := hu
    rw [Branch.lineage_of_top htop, List.mem_singleton] at ha
    rw [ha, hinvalid] at hcategory
    cases hcategory

/-- Indexing a lowered unit adds symbols at their names. -/
theorem locatedAtName_of_cause {k : SymbolGraph} {p : Nat} {s : Symbol}
    (h : (LocatedUnit.ofUnit fs (.ofSource headers main)).Cause k p s) :
    ∃ l, s.location = some l ∧ LocatedAtName headers main fs l s.name := by
  obtain ⟨tree, ht, hcause⟩ := h
  have hbound := TranslationUnit.fullyBound_ofSource headers main
  have hreports : LocatedUnit.ReportsParents (.ofUnit fs (.ofSource headers main)) :=
    (TranslationUnit.plain_ofSource headers main).reportsParents _
  obtain ⟨_, hroot⟩ := hbound.root
  have hof : ∀ {c l}, (LocatedUnit.ofUnit fs (.ofSource headers main)).place c = some l →
      (TranslationUnit.ofSource headers main).category c ≠ .invalid →
      LocatedAtName headers main fs l ((TranslationUnit.ofSource headers main).spelling c) := by
    intro c l hl hc
    obtain ⟨hunit, hcall, hinclusion⟩ := TranslationUnit.kind_ne_of_category hc
    refine locatedAtName_of_place hl (Nat.pos_of_ne_zero fun hzero => hunit ?_) hcall hinclusion
    rw [hzero]
    exact hroot.kind
  rcases hcause with hdeclared | hused
  · cases hdeclared with
    | declared _ hl hd _ =>
      refine ⟨_, rfl, hof hl fun hinvalid => ?_⟩
      have hnone : (Category.invalid).declares = true := hinvalid ▸ hd
      cases hnone
    | expanded _ hk hl _ _ =>
      refine ⟨_, rfl, hof hl fun hinvalid => ?_⟩
      cases (Declarations.category_of_macroExpansion hk).symm.trans hinvalid
  · cases hused with
    | used _ hu hl hm _ _ _ =>
      exact ⟨_, rfl, hof hl (category_ne_of_means hbound hreports ht hu hm)⟩

end

/-- **Positions point at names.**  Every cursor of a lowered unit but that of the unit itself, calls
    and include directives stands in the main file or a header, where the text goes on with what the
    cursor spells.  So does every node that indexing the unit adds to a graph.  Which bytes the
    nodes of the syntax trees span does not matter, since what lies outside of a text spells
    nothing. -/
theorem ofSource_positions_at_names (headers : Headers) (main : Source) :
    (∀ i, 0 < i → i < (TranslationUnit.ofSource headers main).size →
      (TranslationUnit.ofSource headers main).kind i ≠ .callExpr →
      (TranslationUnit.ofSource headers main).kind i ≠ .inclusionDirective →
        AtName headers main (.ofSource headers main)
          ((TranslationUnit.ofSource headers main).position i)
          ((TranslationUnit.ofSource headers main).spelling i)) ∧
    ∀ (fs : FileSystem) (g : SymbolGraph), ∃ report g',
      indexUnit (.ofUnit fs (.ofSource headers main)) g = .ok (report, g') ∧
        ∀ i n, g.size ≤ i → g'.node? i = some n →
          ∃ l, n.location = some l ∧ LocatedAtName headers main fs l n.name := by
  refine ⟨fun i hpos hi hcall hinclusion =>
    TranslationUnit.atName_ofSource hpos hi hcall hinclusion, fun fs g => ?_⟩
  have hreports : LocatedUnit.ReportsParents (.ofUnit fs (.ofSource headers main)) :=
    (TranslationUnit.plain_ofSource headers main).reportsParents _
  obtain ⟨tree, ht⟩ := CursorTree.reconstruct_total hreports
  have hindexed := indexUnit_eq_ok_iff (g := g).mpr ⟨tree, ht, rfl⟩
  refine ⟨_, _, hindexed, fun i n hi hn => ?_⟩
  obtain ⟨k, p, -, hcause, -⟩ :=
    (indexUnit_growsBy hindexed).origin hi (SymbolGraph.core_eq_some_iff.mpr ⟨n, hn, rfl, rfl⟩)
  exact locatedAtName_of_cause hcause

/-- The macro that a header defines stands at its name there, and so does its node. -/
theorem positions_linkedHeaders :
    macroUserUnit.kind 3 = .macroDefinition ∧
      AtName linkedHeaders macroUser macroUserUnit (macroUserUnit.position 3) "A" ∧
      ∃ report g', indexUnit (.ofUnit linkedHeaders.files macroUserUnit) .empty = .ok (report, g') ∧
        ∃ n l, g'.node? 1 = some n ∧ n.location = some l ∧
          LocatedAtName linkedHeaders macroUser linkedHeaders.files l n.name := by
  obtain ⟨hcursors, hnodes⟩ := ofSource_positions_at_names linkedHeaders macroUser
  have hspelling : macroUserUnit.spelling 3 = "A" := by decide +kernel
  have hat := hcursors 3 (by decide) (by decide +kernel) (by decide +kernel) (by decide +kernel)
  obtain ⟨report, g', hdone, hlocated⟩ := hnodes linkedHeaders.files .empty
  have hindexed : indexUnit (.ofUnit linkedHeaders.files macroUserUnit) .empty =
      .ok (report, g') := hdone
  have hnode : ((indexUnit (.ofUnit linkedHeaders.files macroUserUnit) .empty).toOption.bind
      fun done => done.2.node? 1).isSome = true := by
    decide +kernel
  rw [hindexed] at hnode
  obtain ⟨n, hn⟩ := Option.isSome_iff_exists.mp hnode
  obtain ⟨l, hl, hname⟩ := hlocated 1 n (Nat.le_refl 1) hn
  exact ⟨by decide +kernel, hspelling ▸ hat, report, g', hindexed, n, l, hn, hl, hname⟩

end SymbolAtlas
