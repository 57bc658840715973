import SymbolAtlas.NativeLocation
import SymbolAtlas.Proofs.NativePaths

/-!
# Locations in writing

A location is written as its path, line and column, divided by colons, and a path may hold colons
itself.  So a text is divided at its last two colons, whatever stands before them.  The path is
written as it is shown; where that replaces something, another path is read.

* `Text.IsNumeral` — an optional plus sign and at least one decimal digit, with their value.
* `Location.Fields` — a text, divided at its last two colons.
* `NativeLocation.ReadAs` — the outcomes of reading a text, each with its reason.

Principal results: `Text.readNat?_eq_some_iff` — what is read are the numerals up to a bound;
`Location.fields_iff` — cutting twice divides a text at its last two colons;
`NativeLocation.parse_native` — a location at a path that is text is read alike by the program and
at native paths; `NativeLocation.parse_text` — what is written is read back where the path is text,
and each outcome of reading happens exactly where it should.
-/

set_option autoImplicit false

namespace SymbolAtlas

/-! ## Numerals -/

namespace Text

/-- The characters are an optional plus sign and at least one decimal digit, of this value. -/
def IsNumeral (cs : List Char) (n : Nat) : Prop :=
  ∃ digits, (cs = digits ∨ cs = '+' :: digits) ∧ digits ≠ [] ∧
    (∀ c ∈ digits, c.isDigit = true) ∧ Nat.ofDigitChars 10 digits 0 = n

theorem isDigit_iff (c : Char) : c.isDigit = true ↔ '0' ≤ c ∧ c ≤ '9' := by
  simp [Char.isDigit, Char.le_def]

theorem readDigits_eq_some_iff {acc n : Nat} {cs : List Char} :
    readDigits acc cs = some n ↔
      (∀ c ∈ cs, c.isDigit = true) ∧ Nat.ofDigitChars 10 cs acc = n := by
  induction cs generalizing acc with
  | nil => simp [readDigits]
  | cons c rest ih =>
    rw [readDigits, List.forall_mem_cons, Nat.ofDigitChars_cons, Nat.mul_comm 10 acc]
    split
    · rename_i hc
      rw [ih, and_iff_right ((isDigit_iff c).mpr hc)]
    · rename_i hc
      simp [mt (isDigit_iff c).mp hc]

/-- A numeral is its digits, with or without a sign in front. -/
theorem isNumeral_iff {cs : List Char} {n : Nat} :
    IsNumeral cs n ↔ unsigned cs ≠ [] ∧ (∀ c ∈ unsigned cs, c.isDigit = true) ∧
      Nat.ofDigitChars 10 (unsigned cs) 0 = n := by
  constructor
  · rintro ⟨digits, rfl | rfl, hne, hdigits, hvalue⟩
    · have hplain : unsigned cs = cs := by
        unfold unsigned
        split
        · exact absurd (hdigits '+' List.mem_cons_self) (by decide)
        · rfl
      rw [hplain]
      exact ⟨hne, hdigits, hvalue⟩
    · exact ⟨hne, hdigits, hvalue⟩
  · rintro ⟨hne, hdigits, hvalue⟩
    refine ⟨unsigned cs, ?_, hne, hdigits, hvalue⟩
    unfold unsigned
    split
    · exact .inr rfl
    · exact .inl rfl

/-- What is read are the numerals up to the bound. -/
theorem readNat?_eq_some_iff {bound n : Nat} {s : String} :
    readNat? bound s = some n ↔ IsNumeral s.toList n ∧ n ≤ bound := by
  rw [isNumeral_iff]
  unfold readNat?
  split
  · rename_i hnil
    simp [hnil]
  · rename_i digits hne
    rw [Option.filter_eq_some_iff, readDigits_eq_some_iff, decide_eq_true_iff,
      and_iff_right (show unsigned s.toList ≠ [] from hne)]

/-- The digits of a number are a numeral. -/
theorem isNumeral_toDigits (n : Nat) : IsNumeral (Nat.toDigits 10 n) n :=
  ⟨Nat.toDigits 10 n, .inl rfl, Nat.toDigits_ne_nil,
    fun _ => Nat.isDigit_of_mem_toDigits (by decide) (by decide), Nat.ofDigitChars_ten_toDigits⟩

end Text

/-! ## The last two colons -/

namespace Path

theorem cutLast_eq_none_iff {c : Char} {cs : List Char} : cutLast c cs = none ↔ c ∉ cs := by
  induction cs with
  | nil => simp [cutLast]
  | cons d rest ih =>
    rw [cutLast, List.mem_cons, not_or, ← ih]
    cases cutLast c rest with
    | some cut => simp
    | none =>
      by_cases hd : d = c
      · simp [hd]
      · simp [hd, Ne.symm hd]

theorem cutLast_append {c : Char} {back : List Char} (h : c ∉ back) (front : List Char) :
    cutLast c (front ++ c :: back) = some (front, back) := by
  induction front with
  | nil => rw [List.nil_append, cutLast, cutLast_eq_none_iff.mpr h, if_pos rfl]
  | cons d front ih => rw [List.cons_append, cutLast, ih]

theorem eq_append_of_cutLast {c : Char} {cs front back : List Char}
    (h : cutLast c cs = some (front, back)) : cs = front ++ c :: back ∧ c ∉ back := by
  induction cs generalizing front with
  | nil => cases h
  | cons d rest ih =>
    rw [cutLast] at h
    cases hcut : cutLast c rest with
    | some cut =>
      rw [hcut] at h
      cases h
      obtain ⟨hrest, hback⟩ := ih hcut
      exact ⟨congrArg (d :: ·) hrest, hback⟩
    | none =>
      rw [hcut] at h
      simp only at h
      split at h
      · rename_i hd
        cases h
        exact ⟨congrArg (· :: back) hd, cutLast_eq_none_iff.mp hcut⟩
      · cases h

/-- A list is cut where the last of its kind stands. -/
theorem cutLast_eq_some_iff {c : Char} {cs front back : List Char} :
    cutLast c cs = some (front, back) ↔ cs = front ++ c :: back ∧ c ∉ back :=
  ⟨eq_append_of_cutLast, fun ⟨hcs, hback⟩ => hcs ▸ cutLast_append hback front⟩

end Path

namespace Location

open Text (IsNumeral maxWord32 readNat?)

/-- A text, divided at its last two colons. -/
structure Fields (s : String) (path line column : List Char) : Prop where
  text : s.toList = path ++ ':' :: (line ++ ':' :: column)
  line_whole : ':' ∉ line
  column_whole : ':' ∉ column

variable {s : String} {path line column : List Char}

/-- Cutting twice divides a text at its last two colons. -/
theorem fields_iff :
    Fields s path line column ↔ ∃ front,
      Path.cutLast ':' s.toList = some (front, column) ∧
        Path.cutLast ':' front = some (path, line) := by
  simp only [Path.cutLast_eq_some_iff]
  constructor
  · intro h
    exact ⟨path ++ ':' :: line, ⟨by rw [h.text]; simp, h.column_whole⟩, rfl, h.line_whole⟩
  · rintro ⟨_, ⟨htext, hcolumn⟩, rfl, hline⟩
    exact ⟨by rw [htext]; simp, hline, hcolumn⟩

theorem Fields.two_le_count (h : Fields s path line column) : 2 ≤ s.toList.count ':' := by
  rw [h.text]
  simp only [List.count_append, List.count_cons_self]
  omega

/-- A text with two colons is divided at the last two. -/
theorem few_or_fields (s : String) :
    s.toList.count ':' < 2 ∨ ∃ path line column, Fields s path line column := by
  cases hcolumn : Path.cutLast ':' s.toList with
  | none =>
    rw [List.count_eq_zero_of_not_mem (Path.cutLast_eq_none_iff.mp hcolumn)]
    exact .inl Nat.two_pos
  | some cut =>
    obtain ⟨front, column⟩ := cut
    cases hline : Path.cutLast ':' front with
    | none =>
      obtain ⟨htext, hwhole⟩ := Path.cutLast_eq_some_iff.mp hcolumn
      have hfront := List.count_eq_zero_of_not_mem (Path.cutLast_eq_none_iff.mp hline)
      have hback := List.count_eq_zero_of_not_mem hwhole
      rw [htext, List.count_append, List.count_cons_self, hfront, hback]
      exact .inl Nat.one_lt_two
    | some cut =>
      obtain ⟨path, line⟩ := cut
      exact .inr ⟨path, line, column, fields_iff.mpr ⟨front, hcolumn, hline⟩⟩

/-! ## Reading -/

/-- The characters are a numeral of an unsigned 32-bit number. -/
def IsWord (cs : List Char) (n : Nat) : Prop := IsNumeral cs n ∧ n ≤ maxWord32

theorem readNat?_ofList {cs : List Char} {n : Nat} :
    readNat? maxWord32 (String.ofList cs) = some n ↔ IsWord cs n := by
  rw [Text.readNat?_eq_some_iff, String.toList_ofList]
  exact Iff.rfl

theorem readFields_of_few (h : s.toList.count ':' < 2) : readFields s = .error (.malformed s) := by
  unfold readFields
  cases hcolumn : Path.cutLast ':' s.toList with
  | none => rfl
  | some cut =>
    obtain ⟨front, column⟩ := cut
    cases hline : Path.cutLast ':' front with
    | none => simp only [hline]
    | some cut =>
      obtain ⟨path, line⟩ := cut
      exact absurd h (Nat.not_lt.mpr (fields_iff.mpr ⟨front, hcolumn, hline⟩).two_le_count)

theorem readFields_of_fields (h : Fields s path line column) :
    readFields s = if path = [] then .error (.malformed s) else
      match readNat? maxWord32 (String.ofList line), readNat? maxWord32 (String.ofList column) with
      | some m, some n => .ok (String.ofList path, m, n)
      | _, _ => .error (.invalidNumber s) := by
  obtain ⟨front, hcolumn, hline⟩ := fields_iff.mp h
  unfold readFields
  rw [hcolumn]
  simp only [hline]
  cases path with
  | nil => rfl
  | cons c path => exact (if_neg (List.cons_ne_nil c path)).symm

/-! ## Writing -/

/-- A path, a line and a column with colons between are divided into these. -/
theorem fields_written (path : String) (line column : Nat) :
    Fields (path ++ ":" ++ line.repr ++ ":" ++ column.repr) path.toList (Nat.toDigits 10 line)
      (Nat.toDigits 10 column) := by
  have hwhole : ∀ n, ':' ∉ Nat.toDigits 10 n := fun n hmem =>
    absurd (Nat.isDigit_of_mem_toDigits (by decide) (by decide) hmem) (by decide)
  exact ⟨by simp [Nat.toList_repr], hwhole _, hwhole _⟩

theorem isWord_toDigits {n : Nat} (h : n ≤ maxWord32) : IsWord (Nat.toDigits 10 n) n :=
  ⟨Text.isNumeral_toDigits n, h⟩

end Location

/-! ## Native paths -/

namespace NativeLocation

open Location (Fields IsWord)
open Text (maxWord32)

/-- What a text is read as. -/
inductive ReadAs (files : NativeFiles) (s : String) : Except LocationError NativeLocation → Prop
  | few (h : s.toList.count ':' < 2) : ReadAs files s (.error (.malformed s))
  /-- Nothing stands before the last colon but one. -/
  | noPath {line column : List Char} (h : Fields s [] line column) :
    ReadAs files s (.error (.malformed s))
  | noNumber {path line column : List Char} (h : Fields s path line column) (hpath : path ≠ [])
    (hnumbers : ¬((∃ m, IsWord line m) ∧ ∃ n, IsWord column n)) :
    ReadAs files s (.error (.invalidNumber s))
  | location {path line column : List Char} {m n : Nat} (h : Fields s path line column)
    (hpath : path ≠ []) (hline : IsWord line m) (hcolumn : IsWord column n) :
    ReadAs files s (.ok (canonical files (Path.native ⟨String.ofList path⟩) m n))

variable {files : NativeFiles} {s : String}

/-- **A text is read as what it is divided into**, and as nothing else. -/
theorem parse_eq_iff {r : Except LocationError NativeLocation} :
    parse files s = r ↔ ReadAs files s r := by
  unfold parse
  constructor
  · rintro rfl
    rcases Location.few_or_fields s with hfew | ⟨path, line, column, h⟩
    · rw [Location.readFields_of_few hfew]
      exact .few hfew
    · rw [Location.readFields_of_fields h]
      split
      · rename_i hpath
        exact .noPath (hpath ▸ h)
      · rename_i hpath
        split
        · rename_i hline hcolumn
          exact .location h hpath (Location.readNat?_ofList.mp hline)
            (Location.readNat?_ofList.mp hcolumn)
        · rename_i hnumbers
          refine .noNumber h hpath fun ⟨⟨m, hline⟩, n, hcolumn⟩ => ?_
          exact hnumbers m n (Location.readNat?_ofList.mpr hline)
            (Location.readNat?_ofList.mpr hcolumn)
  · rintro (hfew | h | ⟨h, hpath, hnumbers⟩ | ⟨h, hpath, hline, hcolumn⟩)
    · rw [Location.readFields_of_few hfew]
      rfl
    · rw [Location.readFields_of_fields h, if_pos rfl]
      rfl
    · rw [Location.readFields_of_fields h, if_neg hpath]
      split
      · rename_i m n hline hcolumn
        exact absurd ⟨⟨m, Location.readNat?_ofList.mp hline⟩, n,
          Location.readNat?_ofList.mp hcolumn⟩ hnumbers
      · rfl
    · rw [Location.readFields_of_fields h, if_neg hpath, Location.readNat?_ofList.mpr hline,
        Location.readNat?_ofList.mpr hcolumn]
      rfl

/-- A written location is read at the path that is shown of its own. -/
theorem parse_shown {l : NativeLocation} (hpath : l.path.bytes ≠ []) (hline : l.line ≤ maxWord32)
    (hcolumn : l.column ≤ maxWord32) :
    parse files l.text = .ok (canonical files l.path.lossy.native l.line l.column) := by
  have hfields : Fields l.text l.path.shown.toList _ _ :=
    Location.fields_written l.path.shown l.line l.column
  have hshown : l.path.shown.toList ≠ [] :=
    mt String.toList_eq_nil_iff.mp (NativePath.shown_ne_empty hpath)
  have hread : ReadAs files l.text _ := .location hfields hshown
    (Location.isWord_toDigits hline) (Location.isWord_toDigits hcolumn)
  rw [String.ofList_toList] at hread
  exact parse_eq_iff.mpr hread

/-- A canonical path is not empty. -/
theorem bytes_ne_nil_of_canonical {p : NativePath} (h : (files.canonicalPath p == p) = true) :
    p.bytes ≠ [] := by
  obtain ⟨names, hnames⟩ : ∃ names, files.canonicalPath p = .ofNames names := by
    unfold NativeFiles.canonicalPath
    split
    · exact ⟨_, rfl⟩
    · exact ⟨_, rfl⟩
  have hparts : (NativePath.ofNames names).parts = p.parts := by
    rw [← hnames]
    exact beq_iff_eq.mp h
  intro hempty
  have hnone : p.parts = [] := by
    unfold NativePath.parts NativePath.isAbsolute
    rw [hempty]
    rfl
  rw [hnone] at hparts
  cases hparts

/-- **What is written is read back where the path is text**, and each outcome of reading happens
    exactly where it should: a text is malformed if it has fewer than two colons or nothing before
    the last but one, its numbers are invalid if not both of the last two fields are numerals up to
    the bound, and otherwise it names the location at the path before them.  A path that is not text
    is read as what is shown of it. -/
theorem parse_text (files : NativeFiles) :
    (∀ l : NativeLocation, l.path.IsText → (files.canonicalPath l.path == l.path) = true →
      l.line ≤ maxWord32 → l.column ≤ maxWord32 →
        ∃ back, parse files l.text = .ok back ∧ (back == l) = true) ∧
    (∀ l : NativeLocation, l.path.bytes ≠ [] → l.line ≤ maxWord32 → l.column ≤ maxWord32 →
      parse files l.text = .ok (canonical files l.path.lossy.native l.line l.column)) ∧
    ∀ s r, parse files s = r ↔ ReadAs files s r := by
  refine ⟨fun l htext hpath hline hcolumn => ?_, fun l hpath hline hcolumn =>
    parse_shown hpath hline hcolumn, fun s r => parse_eq_iff⟩
  have hshown : l.path.lossy.native = l.path := NativePath.native_lossy_iff.mpr htext
  refine ⟨_, parse_shown (bytes_ne_nil_of_canonical hpath) hline hcolumn, ?_⟩
  rw [hshown]
  show (l.line == l.line && l.column == l.column && files.canonicalPath l.path == l.path) = true
  rw [hpath, beq_self_eq_true, beq_self_eq_true]
  rfl

theorem parse_text_colons :
    let files := FileSystem.native {}
    let l := Location.native ⟨⟨"/w:1/ä:2.h"⟩, 3, 4294967295⟩
    l.path.IsText ∧ (files.canonicalPath l.path == l.path) = true ∧ l.line ≤ maxWord32 ∧
      l.column ≤ maxWord32 ∧
      ∃ back, parse files "/w:1/ä:2.h:3:4294967295" = .ok back ∧ (back == l) = true := by
  intro files l
  have htext : l.path.IsText := by decide +kernel
  have hpath : (files.canonicalPath l.path == l.path) = true := by decide +kernel
  have hwritten : l.text = "/w:1/ä:2.h:3:4294967295" := by decide +kernel
  obtain ⟨back, hback, hsame⟩ := (parse_text files).1 l htext hpath (by decide) (by decide)
  exact ⟨htext, hpath, by decide, by decide, back, hwritten ▸ hback, hsame⟩

/-- A place in a file whose name holds a byte that is no text. -/
def strayByte : NativeLocation := ⟨⟨[0x2F, 0x77, 0x2F, 0xFF, 0x2E, 0x68]⟩, 1, 1⟩

/-- Its path is its own canonical form, and another path is read. -/
theorem parse_notText :
    ¬∀ (files : NativeFiles) (l : NativeLocation), (files.canonicalPath l.path == l.path) = true →
      l.line ≤ maxWord32 → l.column ≤ maxWord32 →
        ∃ back, parse files l.text = .ok back ∧ (back == l) = true := by
  intro hread
  obtain ⟨back, hback, hsame⟩ := hread (FileSystem.native {}) strayByte (by decide +kernel)
    (by decide) (by decide)
  rw [parse_shown (List.cons_ne_nil _ _) (by decide) (by decide)] at hback
  cases hback
  exact absurd hsame (by decide +kernel)

/-! ## Paths that are text -/

/-- A location at a path that is text is written alike. -/
theorem text_native (l : Location) : l.native.text = l.text := by
  unfold text Location.text Location.native
  rw [l.path.shown_native]

/-- What the program reads is what is read of paths that are text. -/
theorem parse_native (fs : FileSystem) (s : String) :
    parse fs.native s = (Location.parse fs s).map Location.native := by
  unfold parse Location.parse
  cases Location.readFields s with
  | error e => rfl
  | ok fields =>
    obtain ⟨path, line, column⟩ := fields
    have hpath := Path.canonicalPath_native fs ⟨path⟩
    exact congrArg (fun p => Except.ok (NativeLocation.mk p line column)) hpath

end NativeLocation

end SymbolAtlas
