import SymbolAtlas.Proofs.CanonicalPaths

/-!
# Canonical paths that are remembered

A memo is asked for files and answers a second spelling of a file by what it worked out for the
first one.  Two spellings of the same components lead to the same place, with one exception: a
separator or a dot at the end asks for a directory, so such a spelling leads nowhere where another
one leads to a file.  What is left of the spelling then stands for the path, and if the file is
reached through a link, that is another path than the canonical one.

* `FileSystem.TurnedAway` — a spelling that asks for a directory, where another one leads to a file
  that stands elsewhere.
* `PathMemo.after` — the memo after positions were asked for.
* `PathMemo.firstSpelling?` — the spelling under which a file was asked for first.

Principal results: `FileSystem.trace_of_parts` — where one spelling leads, another one leads, unless
it asks for a directory and there is a file; `FileSystem.canonicalPath_beq_iff` — two spellings have
the same canonical path unless one of them is turned away; `PathMemo.location_after` — so a memo
answers as if it were not there, unless one of the two spellings in question is turned away.
-/

set_option autoImplicit false

namespace SymbolAtlas

/-! ## What components tell of a spelling -/

namespace Path

/-- What is no separator goes on with the first segment behind it. -/
theorem segments_cons {c : Char} (hc : c ≠ '/') (rest : List Char) :
    ∃ front more, segments rest = front :: more ∧ segments (c :: rest) = (c :: front) :: more := by
  have hne : segments rest ≠ [] := by
    cases rest with
    | nil => exact List.cons_ne_nil _ _
    | cons d rest =>
      rw [segments]
      split
      · exact List.cons_ne_nil _ _
      · split
        · exact List.cons_ne_nil _ _
        · exact List.cons_ne_nil _ _
  obtain ⟨front, more, hrest⟩ := List.exists_cons_of_ne_nil hne
  exact ⟨front, more, hrest, by rw [segments, if_neg hc, hrest]⟩

/-- What is no separator stands in a segment. -/
theorem mem_segments_iff {c : Char} (hc : c ≠ '/') (cs : List Char) :
    (∃ seg ∈ segments cs, c ∈ seg) ↔ c ∈ cs := by
  induction cs with
  | nil => simp [segments]
  | cons d rest ih =>
    by_cases hd : d = '/'
    · have hcd : c ≠ d := fun heq => hc (heq.trans hd)
      rw [segments, if_pos hd, List.mem_cons, or_iff_right hcd, ← ih]
      simp
    · obtain ⟨front, more, hrest, hsegs⟩ := segments_cons hd rest
      rw [hsegs, List.mem_cons, ← ih, hrest]
      simp only [List.mem_cons, exists_eq_or_imp, or_assoc]

/-- What is neither a separator nor a dot stands in a name. -/
theorem mem_text_iff {c : Char} (hslash : c ≠ '/') (hdot : c ≠ '.') (p : Path) :
    c ∈ p.text.toList ↔ ∃ s, Part.name s ∈ p.parts ∧ c ∈ s.toList := by
  rw [← mem_segments_iff hslash]
  constructor
  · rintro ⟨seg, hseg, hmem⟩
    have hpart : innerPart seg = some (.name (String.ofList seg)) := by
      refine innerPart_eq_name_iff.mpr ⟨rfl, ?_, ?_, ?_⟩
      · rintro rfl
        cases hmem
      · rintro rfl
        exact hdot (List.mem_singleton.mp hmem)
      · rintro rfl
        simp [hdot] at hmem
    refine ⟨String.ofList seg, name_mem_parts.mpr ⟨seg, hseg, hpart⟩, ?_⟩
    rwa [String.toList_ofList]
  · rintro ⟨s, hs, hmem⟩
    obtain ⟨seg, hseg, hpart⟩ := name_mem_parts.mp hs
    refine ⟨seg, hseg, ?_⟩
    rwa [(innerPart_eq_name_iff.mp hpart).1, String.toList_ofList] at hmem

theorem innerPart_eq_none_iff {seg : List Char} :
    innerPart seg = none ↔ seg = [] ∨ seg = ['.'] := by
  unfold innerPart
  split
  · rename_i h
    simp [h]
  · rename_i hempty
    split
    · rename_i h
      simp [h]
    · rename_i hdot
      split
      · simp [hempty, hdot]
      · simp [hempty, hdot]

/-- Only the empty path has no components. -/
theorem text_eq_empty_iff (p : Path) : p.text = "" ↔ p.parts = [] := by
  constructor
  · intro h
    unfold parts isAbsolute
    rw [h]
    rfl
  · intro h
    unfold parts at h
    simp only at h
    split at h
    · cases h
    · rename_i hrelative
      split at h
      · cases h
      · rename_i hhere
        cases htext : p.text.toList with
        | nil => exact String.toList_eq_nil_iff.mp htext
        | cons c rest =>
          have hc : c ≠ '/' := by
            rintro rfl
            exact hrelative (by rw [isAbsolute, htext]; rfl)
          obtain ⟨front, more, -, hsegs⟩ := segments_cons hc rest
          rw [htext, hsegs] at h hhere
          have hpart : innerPart (c :: front) = none :=
            List.filterMap_eq_nil_iff.mp h _ List.mem_cons_self
          rcases innerPart_eq_none_iff.mp hpart with hnil | hdot
          · cases hnil
          · exact absurd (congrArg (· :: more) hdot) (hhere more)

/-- A spelling moves where its components do. -/
theorem moves_steps_parts (p : Path) : moves p.steps = moves (p.parts.map stepOf) := by
  have hbelow : ∀ segs, moves (stepsOf false segs) =
      moves ((segs.filterMap innerPart).map stepOf) := fun segs => by
    rw [← moves_stepsOf false segs, moves, moves, List.filter_filter]
    simp only [Bool.and_self]
  unfold steps parts
  simp only
  split
  · exact congrArg (Step.root :: ·) (hbelow _)
  · split
    · rename_i rest hsegs
      rw [hsegs, stepsOf]
      exact hbelow rest
    · exact hbelow _

/-- The components tell where a spelling moves. -/
theorem moves_of_parts {p q : Path} (h : p.parts = q.parts) : moves p.steps = moves q.steps := by
  rw [moves_steps_parts, moves_steps_parts, h]

end Path

/-! ## Where two spellings lead -/

namespace FileSystem

open SymbolAtlas.Path (Arrives moves)

variable {fs : FileSystem} {p q : Path} {names : List String}

theorem trace_eq_ok_iff :
    fs.trace .existing p = .ok names ↔ '\x00' ∉ p.text.toList ∧ p.text ≠ "" ∧
      fs.walkLinks .existing maxLinks fs.cwd p.steps = .ok names := by
  unfold trace
  split
  · rename_i hnul
    simp [List.contains_iff_mem.mp hnul]
  · rename_i hnul
    split
    · rename_i hempty
      simp [String.isEmpty_iff.mp hempty]
    · rename_i hempty
      have hnul : '\x00' ∉ p.text.toList := fun h => hnul (List.contains_iff_mem.mpr h)
      have hempty : p.text ≠ "" := fun h => hempty (String.isEmpty_iff.mpr h)
      simp only [hnul, hempty, not_false_eq_true, ne_eq, true_and]

/-- Where one spelling leads, another one leads, unless it asks for a directory where there is a
    file; then it leads nowhere. -/
theorem trace_of_parts (h : p.parts = q.parts) (htrace : fs.trace .existing p = .ok names) :
    fs.trace .existing q = .ok names ∨
      fs.HoldsFile names ∧ ¬Arrives q.steps ∧ ∃ e, fs.trace .existing q = .error e := by
  obtain ⟨hnul, hempty, hwalk⟩ := trace_eq_ok_iff.mp htrace
  have hnul' : '\x00' ∉ q.text.toList := by
    rwa [Path.mem_text_iff (by decide) (by decide), ← h,
      ← Path.mem_text_iff (by decide) (by decide)]
  have hempty' : q.text ≠ "" := by
    rwa [ne_eq, Path.text_eq_empty_iff, ← h, ← Path.text_eq_empty_iff]
  have hmoves : fs.walkLinks .existing maxLinks fs.cwd (moves q.steps) = .ok names := by
    rw [← Path.moves_of_parts h]
    exact walkLinks_moves maxLinks fs.cwd [] p.steps hwalk
  by_cases hsettles : fs.HoldsFile names → Arrives q.steps
  · exact .inl (trace_eq_ok_iff.mpr ⟨hnul', hempty',
      walkLinks_of_moves maxLinks fs.cwd [] q.steps hsettles hmoves⟩)
  · obtain ⟨hfile, harrives⟩ := Classical.not_imp.mp hsettles
    cases hq : fs.trace .existing q with
    | error e => exact .inr ⟨hfile, harrives, e, rfl⟩
    | ok names' =>
      obtain ⟨-, -, hwalk'⟩ := trace_eq_ok_iff.mp hq
      have hmoves' := walkLinks_moves maxLinks fs.cwd [] q.steps hwalk'
      rw [List.nil_append, hmoves] at hmoves'
      exact .inl hmoves'.symm

/-- A spelling that asks for a directory and leads nowhere, where another one leads to a file, by
    a way that its spelling does not show. -/
structure TurnedAway (fs : FileSystem) (p q : Path) : Prop where
  asks : ¬Arrives p.steps
  nowhere : ∃ e, fs.trace .existing p = .error e
  file : ∃ names, fs.trace .existing q = .ok names ∧ fs.HoldsFile names
  elsewhere : (fs.canonicalPath q == fs.normalize q) = false

theorem canonicalPath_of_ok (h : fs.trace .existing p = .ok names) :
    fs.canonicalPath p = .ofNames names := by
  rw [canonicalPath, h]

theorem canonicalPath_of_error {e : FileError} (h : fs.trace .existing p = .error e) :
    fs.canonicalPath p = fs.normalize p := by
  rw [canonicalPath, h]

/-- A spelling that leads nowhere has the canonical path of one that leads somewhere unless it is
    turned away there. -/
theorem canonicalPath_beq_of_error (h : p.parts = q.parts) {e : FileError}
    (hp : fs.trace .existing p = .error e) (hq : fs.trace .existing q = .ok names) :
    (fs.canonicalPath q == fs.canonicalPath p) = true ↔ ¬fs.TurnedAway p q := by
  have hnormal : fs.canonicalPath p = fs.normalize q := by
    rw [canonicalPath_of_error hp, normalize, normalize, h]
  rw [hnormal]
  rcases trace_of_parts h.symm hq with hok | ⟨hfile, harrives, -⟩
  · rw [hp] at hok
    cases hok
  · cases helse : fs.canonicalPath q == fs.normalize q with
    | true =>
      refine iff_of_true rfl fun hturned => ?_
      rw [hturned.elsewhere] at helse
      cases helse
    | false =>
      have hturned : fs.TurnedAway p q := ⟨harrives, ⟨e, hp⟩, ⟨names, hq, hfile⟩, helse⟩
      exact iff_of_false Bool.false_ne_true (not_not_intro hturned)

/-- **Two spellings of one path have the same canonical path** unless one of them is turned away
    where the other one leads to a file. -/
theorem canonicalPath_beq_iff (h : p.parts = q.parts) :
    (fs.canonicalPath p == fs.canonicalPath q) = true ↔
      ¬fs.TurnedAway p q ∧ ¬fs.TurnedAway q p := by
  have hleads : ∀ {r s : Path} {names : List String}, fs.trace .existing r = .ok names →
      ¬fs.TurnedAway r s := fun hr hturned => by
    obtain ⟨e, he⟩ := hturned.nowhere
    rw [hr] at he
    cases he
  have hlost : ∀ {r s : Path} {e : FileError}, fs.trace .existing s = .error e →
      ¬fs.TurnedAway r s := fun hs hturned => by
    obtain ⟨_, hnames, -⟩ := hturned.file
    rw [hs] at hnames
    cases hnames
  cases hp : fs.trace .existing p with
  | ok names =>
    cases hq : fs.trace .existing q with
    | ok names' =>
      refine iff_of_true ?_ ⟨hleads hp, hleads hq⟩
      rcases trace_of_parts h hp with hok | ⟨-, -, e, he⟩
      · rw [canonicalPath_of_ok hp, canonicalPath_of_ok hok]
        exact BEq.rfl
      · rw [hq] at he
        cases he
    | error e =>
      rw [canonicalPath_beq_of_error h.symm hq hp]
      exact ⟨fun hnot => ⟨hleads hp, hnot⟩, And.right⟩
  | error e =>
    cases hq : fs.trace .existing q with
    | ok names =>
      rw [BEq.comm, canonicalPath_beq_of_error h hp hq]
      exact ⟨fun hnot => ⟨hnot, hleads hq⟩, And.left⟩
    | error e' =>
      refine iff_of_true ?_ ⟨hlost hq, hlost hp⟩
      rw [canonicalPath_of_error hp, canonicalPath_of_error hq, normalize, normalize, h]
      exact BEq.rfl

end FileSystem

/-! ## A memo that was asked before -/

/-- The file of a position, if it names a line of one. -/
def Position.lineOf? (p : Position) : Option Path := if p.line = 0 then .none else p.file

namespace PathMemo

/-- The memo after it was asked for positions. -/
def after (fs : FileSystem) (asked : List Position) : PathMemo :=
  asked.foldl (fun memo p => (memo.location fs p).2) {}

/-- The spelling under which a file was asked for first. -/
def firstSpelling? (asked : List Position) (file : Path) : Option Path :=
  (asked.filterMap Position.lineOf?).find? (· == file)

/-- The file of the position was asked for before, and one of the two spellings is turned away where
    the other one leads to a file. -/
def Misled (fs : FileSystem) (asked : List Position) (p : Position) : Prop :=
  ∃ file first, p.lineOf? = some file ∧ firstSpelling? asked file = some first ∧
    (fs.TurnedAway first file ∨ fs.TurnedAway file first)

variable {fs : FileSystem}

theorem location_eq (memo : PathMemo) (p : Position) :
    memo.location fs p = match p.lineOf? with
      | some file => (some ⟨(memo.canonicalPath fs file).1, p.line, p.column⟩,
          (memo.canonicalPath fs file).2)
      | none => (none, memo) := by
  unfold location Position.lineOf?
  cases p.file with
  | none => rw [ite_self]
  | some file =>
    by_cases hline : p.line = 0
    · simp only [if_pos hline]
    · simp only [if_neg hline]

theorem ofPosition?_eq (p : Position) :
    Location.ofPosition? fs p =
      p.lineOf?.map fun file => Location.canonical fs file p.line p.column := by
  unfold Location.ofPosition? Position.lineOf?
  cases p.file with
  | none => rw [ite_self, Option.map_none]
  | some file =>
    by_cases hline : p.line = 0
    · simp only [if_pos hline, Option.map_none]
    · simp only [if_neg hline, Option.map_some]

theorem firstSpelling?_append (asked asked' : List Position) (file : Path) :
    firstSpelling? (asked ++ asked') file =
      (firstSpelling? asked file).or (firstSpelling? asked' file) := by
  rw [firstSpelling?, List.filterMap_append, List.find?_append]
  rfl

/-- What a memo knows of a file after one more position: what it knew before, and otherwise the
    canonical path of the position's file, if it is the same one. -/
theorem known_location (memo : PathMemo) (p : Position) (file : Path) :
    (memo.location fs p).2.known.find? (·.1 == file) =
      (memo.known.find? (·.1 == file)).or
        ((firstSpelling? [p] file).map fun first => (first, fs.canonicalPath first)) := by
  rw [location_eq, firstSpelling?, List.filterMap_cons, List.filterMap_nil]
  cases p.lineOf? with
  | none => exact Option.or_none.symm
  | some asked =>
    simp only [canonicalPath]
    cases hfound : memo.known.find? (·.1 == asked) with
    | none =>
      simp only [List.find?_append]
      cases hsame : asked == file with
      | true => simp [hsame]
      | false => simp [hsame]
    | some known =>
      cases hsame : asked == file with
      | true =>
        have hknown : memo.known.find? (·.1 == file) = some known := by
          rw [← hfound]
          congr 1
          funext e
          exact (BEq.congr_right hsame).symm
        rw [hknown, Option.some_or]
      | false => simp [hsame]

/-- A memo knows of a file the canonical path of its first spelling. -/
theorem known_after (asked : List Position) (file : Path) :
    (after fs asked).known.find? (·.1 == file) =
      (firstSpelling? asked file).map fun first => (first, fs.canonicalPath first) := by
  have hrun : ∀ memo : PathMemo,
      (asked.foldl (fun memo p => (memo.location fs p).2) memo).known.find? (·.1 == file) =
        (memo.known.find? (·.1 == file)).or
          ((firstSpelling? asked file).map fun first => (first, fs.canonicalPath first)) := by
    induction asked with
    | nil => exact fun memo => Option.or_none.symm
    | cons p asked ih =>
      intro memo
      rw [List.foldl_cons, ih, known_location, Option.or_assoc,
        show p :: asked = [p] ++ asked from rfl, firstSpelling?_append, Option.map_or]
  exact hrun {}

/-- A memo answers with the canonical path of the first spelling. -/
theorem canonicalPath_after (asked : List Position) (file : Path) :
    ((after fs asked).canonicalPath fs file).1 =
      fs.canonicalPath ((firstSpelling? asked file).getD file) := by
  unfold canonicalPath
  rw [known_after]
  cases firstSpelling? asked file with
  | none => rfl
  | some first => rfl

/-- **A memo answers as if it were not there**, unless the file was asked for before and one of the
    two spellings is turned away where the other one leads to a file. -/
theorem location_after (fs : FileSystem) (asked : List Position) (p : Position) :
    (((after fs asked).location fs p).1 == Location.ofPosition? fs p) = true ↔
      ¬Misled fs asked p := by
  rw [location_eq, ofPosition?_eq]
  cases hfile : p.lineOf? with
  | none =>
    refine iff_of_true rfl ?_
    rintro ⟨_, _, hf, -⟩
    cases hfile.symm.trans hf
  | some file =>
    have hsame : (some (Location.mk ((after fs asked).canonicalPath fs file).1 p.line p.column) ==
        some (Location.canonical fs file p.line p.column)) = true ↔
          (fs.canonicalPath ((firstSpelling? asked file).getD file) == fs.canonicalPath file) =
            true := by
      rw [canonicalPath_after, Option.some_beq_some, Location.beq_iff, Path.beq_iff_parts]
      exact ⟨fun h => h.2.2, fun h => ⟨rfl, rfl, h⟩⟩
    refine hsame.trans ?_
    cases hfirst : firstSpelling? asked file with
    | none =>
      refine iff_of_true BEq.rfl ?_
      rintro ⟨_, _, hf, hg, -⟩
      cases hfile.symm.trans hf
      cases hfirst.symm.trans hg
    | some first =>
      have hspelled : (first == file) = true :=
        List.find?_some (p := fun first : Path => first == file) hfirst
      have hparts : first.parts = file.parts := (Path.beq_iff_parts _ _).mp hspelled
      rw [Option.getD_some, FileSystem.canonicalPath_beq_iff hparts, ← not_or]
      refine not_congr ⟨fun h => ⟨file, first, hfile, hfirst, h⟩, fun ⟨f, g, hf, hg, h⟩ => ?_⟩
      cases hfile.symm.trans hf
      cases hfirst.symm.trans hg
      exact h

open FileSystem (linkedHeader) in
/-- A header behind a link, asked for once more with a separator at the end, is remembered at the
    header, where the separator leads nowhere. -/
theorem location_misled :
    ¬∀ (fs : FileSystem) (asked : List Position) (p : Position),
      (((after fs asked).location fs p).1 == Location.ofPosition? fs p) = true := by
  intro hfaithful
  have hsame := hfaithful linkedHeader [⟨some ⟨"/w/link.h"⟩, 1, 5⟩] ⟨some ⟨"/w/link.h/"⟩, 2, 5⟩
  have hapart : (((after linkedHeader [⟨some ⟨"/w/link.h"⟩, 1, 5⟩]).location linkedHeader
      ⟨some ⟨"/w/link.h/"⟩, 2, 5⟩).1 ==
        Location.ofPosition? linkedHeader ⟨some ⟨"/w/link.h/"⟩, 2, 5⟩) = false := by
    decide +kernel
  rw [hapart] at hsame
  cases hsame

end PathMemo

end SymbolAtlas
