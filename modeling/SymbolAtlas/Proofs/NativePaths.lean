import SymbolAtlas.NativePath
import Mathlib.Data.List.Basic

/-!
# Paths that are text, among native paths

The bytes of a text are shown as that text, so nothing is lost of a native path that is text, and
no two paths that are text have the same bytes.  All that is asked of a path carries over from the
text to the bytes: a separator is one byte, and that byte is part of no other character.

Principal results: `Utf8.decode_encode` — the bytes of a text are shown as it; `Path.shown_native`,
`NativePath.isText_iff` — what is text is shown as it is, and nothing else is;
`Path.canonicalPath_native` — a path that is text has one canonical form, taken as text or as bytes.
-/

set_option autoImplicit false

namespace SymbolAtlas

/-! ## Characters and bytes -/

namespace Utf8

theorem toNat_ofNat {n : Nat} (h : n < 256) : (UInt8.ofNat n).toNat = n := by
  rw [UInt8.toNat_ofNat']
  exact Nat.mod_eq_of_lt h

theorem decode_ascii {b : Nat} (h : b < 0x80) (rest : List UInt8) :
    decode none (UInt8.ofNat b :: rest) = Char.ofNat b :: decode none rest := by
  rw [decode, toNat_ofNat (by omega), next, first, if_pos h]
  rfl

theorem decode_begun {b : Nat} {c : Begun} (hb : b < 256) (hnot : ¬b < 0x80)
    (h : begun? b = some c) (rest : List UInt8) :
    decode none (UInt8.ofNat b :: rest) = decode (some c) rest := by
  rw [decode, toNat_ofNat hb, next, first, if_neg hnot, h]
  rfl

/-- A byte within the bounds that is not the last one of its character. -/
theorem decode_more {value low high more b : Nat} (hb : b < 256) (hlow : low ≤ b) (hhigh : b ≤ high)
    (rest : List UInt8) :
    decode (some ⟨value, low, high, more + 1⟩) (UInt8.ofNat b :: rest) =
      decode (some { value := value * 64 + (b - 0x80), more }) rest := by
  rw [decode, toNat_ofNat hb, next, if_pos ⟨hlow, hhigh⟩]
  rfl

/-- The last byte of a character, within the bounds. -/
theorem decode_last {value low high b : Nat} (hb : b < 256) (hlow : low ≤ b) (hhigh : b ≤ high)
    (rest : List UInt8) :
    decode (some ⟨value, low, high, 0⟩) (UInt8.ofNat b :: rest) =
      Char.ofNat (value * 64 + (b - 0x80)) :: decode none rest := by
  rw [decode, toNat_ofNat hb, next, if_pos ⟨hlow, hhigh⟩]
  rfl

theorem begun?_two : ∀ n ≤ 31, 2 ≤ n → begun? (n + 192) = some ⟨n, 0x80, 0xBF, 0⟩ := by decide

theorem begun?_three : ∀ n ≤ 15, begun? (n + 224) =
    some ⟨n, if n = 0 then 0xA0 else 0x80, if n = 13 then 0x9F else 0xBF, 1⟩ := by decide

theorem begun?_four : ∀ n ≤ 4, begun? (n + 240) =
    some ⟨n, if n = 0 then 0x90 else 0x80, if n = 4 then 0x8F else 0xBF, 2⟩ := by decide

/-- Two bytes, for the values that one byte does not hold. -/
theorem decode_two {v : Nat} (hlow : 0x80 ≤ v) (hhigh : v ≤ 0x7FF) (rest : List UInt8) :
    decode none (UInt8.ofNat (v / 64 % 32 + 192) :: UInt8.ofNat (v % 64 + 128) :: rest) =
      Char.ofNat v :: decode none rest := by
  rw [decode_begun (by omega) (by omega) (begun?_two _ (by omega) (by omega)),
    decode_last (by omega) (by omega) (by omega)]
  rw [show v / 64 % 32 * 64 + (v % 64 + 128 - 0x80) = v by omega]

/-- Three bytes, for the values that two do not hold and that are no surrogates. -/
theorem decode_three {v : Nat} (hlow : 0x800 ≤ v) (hhigh : v ≤ 0xFFFF)
    (hvalid : v < 0xD800 ∨ 0xDFFF < v) (rest : List UInt8) :
    decode none (UInt8.ofNat (v / 4096 % 16 + 224) :: UInt8.ofNat (v / 64 % 64 + 128) ::
      UInt8.ofNat (v % 64 + 128) :: rest) = Char.ofNat v :: decode none rest := by
  rw [decode_begun (by omega) (by omega) (begun?_three _ (by omega)),
    decode_more (by omega) (by split <;> omega) (by split <;> omega),
    decode_last (by omega) (by omega) (by omega)]
  rw [show (v / 4096 % 16 * 64 + (v / 64 % 64 + 128 - 0x80)) * 64 + (v % 64 + 128 - 0x80) = v by
    omega]

/-- Four bytes, for the values that three do not hold. -/
theorem decode_four {v : Nat} (hlow : 0x10000 ≤ v) (hhigh : v < 0x110000) (rest : List UInt8) :
    decode none (UInt8.ofNat (v / 262144 % 8 + 240) :: UInt8.ofNat (v / 4096 % 64 + 128) ::
      UInt8.ofNat (v / 64 % 64 + 128) :: UInt8.ofNat (v % 64 + 128) :: rest) =
      Char.ofNat v :: decode none rest := by
  rw [decode_begun (by omega) (by omega) (begun?_four _ (by omega)),
    decode_more (by omega) (by split <;> omega) (by split <;> omega),
    decode_more (by omega) (by omega) (by omega), decode_last (by omega) (by omega) (by omega)]
  rw [show ((v / 262144 % 8 * 64 + (v / 4096 % 64 + 128 - 0x80)) * 64 +
    (v / 64 % 64 + 128 - 0x80)) * 64 + (v % 64 + 128 - 0x80) = v by omega]

/-- The bytes of a character are read as that character. -/
theorem decode_char (c : Char) (rest : List UInt8) :
    decode none (String.utf8EncodeChar c ++ rest) = c :: decode none rest := by
  have hvalid : c.val.toNat < 0xD800 ∨ 0xDFFF < c.val.toNat ∧ c.val.toNat < 0x110000 := c.valid
  have hchar : Char.ofNat c.val.toNat = c := Char.ofNat_toNat c
  conv => rhs; rw [← hchar]
  unfold String.utf8EncodeChar
  generalize c.val.toNat = v at hvalid
  dsimp only
  split
  · rw [List.singleton_append, decode_ascii (by omega)]
  · split
    · exact decode_two (by omega) (by omega) rest
    · split
      · exact decode_three (by omega) (by omega) (by omega) rest
      · exact decode_four (by omega) (by omega) rest

/-- The bytes of characters are shown as those characters. -/
theorem decode_chars (cs : List Char) : decode none (cs.flatMap String.utf8EncodeChar) = cs := by
  induction cs with
  | nil => rfl
  | cons c cs ih => rw [List.flatMap_cons, decode_char, ih]

/-- The bytes of a text are shown as that text. -/
theorem decode_encode (s : String) : decode none (encode s) = s.toList := decode_chars s.toList

/-- No two sequences of characters have the same bytes. -/
theorem chars_inj {s t : List Char} :
    s.flatMap String.utf8EncodeChar = t.flatMap String.utf8EncodeChar ↔ s = t := by
  refine ⟨fun h => ?_, fun h => h ▸ rfl⟩
  rw [← decode_chars s, h, decode_chars]

theorem encode_append (s t : String) : encode (s ++ t) = encode s ++ encode t := by
  rw [encode, String.toList_append, List.flatMap_append]
  rfl

theorem encode_ofList (cs : List Char) :
    encode (String.ofList cs) = cs.flatMap String.utf8EncodeChar := by
  rw [encode, String.toList_ofList]

/-- A byte below 128 is a character by itself. -/
theorem toNat_of_mem {c : Char} {b : UInt8} (h : b ∈ String.utf8EncodeChar c)
    (hb : b.toNat < 0x80) : c.toNat = b.toNat := by
  have hsmall : ∀ n, b = UInt8.ofNat n → n < 256 → n < 0x80 := fun n hn hlt => by
    rw [hn, toNat_ofNat hlt] at hb
    exact hb
  unfold String.utf8EncodeChar at h
  dsimp only at h
  split at h
  · rw [List.mem_singleton.mp h, toNat_ofNat (by omega)]
    rfl
  · have hnone : ∀ n, b = UInt8.ofNat (n + 128) → n < 128 → False := fun n hn hlt =>
      absurd (hsmall _ hn (by omega)) (by omega)
    split at h
    · simp only [List.mem_cons, List.not_mem_nil, or_false] at h
      rcases h with h | h
      · exact (hnone (_ + 64) h (by omega)).elim
      · exact (hnone _ h (by omega)).elim
    · split at h
      · simp only [List.mem_cons, List.not_mem_nil, or_false] at h
        rcases h with h | h | h
        · exact (hnone (_ + 96) h (by omega)).elim
        · exact (hnone _ h (by omega)).elim
        · exact (hnone _ h (by omega)).elim
      · simp only [List.mem_cons, List.not_mem_nil, or_false] at h
        rcases h with h | h | h | h
        · exact (hnone (_ + 112) h (by omega)).elim
        · exact (hnone _ h (by omega)).elim
        · exact (hnone _ h (by omega)).elim
        · exact (hnone _ h (by omega)).elim

/-- A byte shows something or begins a character. -/
theorem next_shows (begun : Option Begun) (b : Nat) :
    (next begun b).1.isSome = true ∨ (next begun b).2 ≠ [] := by
  have hfirst : (first b).1.isSome = true ∨ (first b).2 ≠ [] := by
    unfold first
    split
    · exact .inr (List.cons_ne_nil _ _)
    · split
      · exact .inl rfl
      · exact .inr (List.cons_ne_nil _ _)
  cases begun with
  | none => exact hfirst
  | some c =>
    unfold next
    dsimp only
    split
    · split
      · exact .inr (List.cons_ne_nil _ _)
      · exact .inl rfl
    · exact .inr (List.cons_ne_nil _ _)

/-- Nothing is shown of no bytes only. -/
theorem decode_ne_nil {bytes : List UInt8} {begun : Option Begun}
    (h : begun.isSome = true ∨ bytes ≠ []) : decode begun bytes ≠ [] := by
  induction bytes generalizing begun with
  | nil =>
    cases begun with
    | none => simp at h
    | some c => exact List.cons_ne_nil _ _
  | cons b bytes ih =>
    have hdecode : decode begun (b :: bytes) =
        (next begun b.toNat).2 ++ decode (next begun b.toNat).1 bytes := by
      cases begun <;> rfl
    rw [hdecode]
    rcases next_shows begun b.toNat with hbegun | hshown
    · exact List.append_ne_nil_of_right_ne_nil _ (ih (.inl hbegun))
    · exact List.append_ne_nil_of_left_ne_nil hshown _

end Utf8

/-! ## Components -/

/-- A component of a path that is text, as one of a native path. -/
def Part.native : Part → NativePart
  | .root => .root
  | .here => .here
  | .up => .up
  | .name s => .name (Utf8.encode s)

theorem Part.native_inj {a b : Part} : a.native = b.native ↔ a = b := by
  refine ⟨fun h => ?_, fun h => h ▸ rfl⟩
  cases a with
  | name a =>
    cases b with
    | name b =>
      exact congrArg name (String.toList_inj.mp (Utf8.chars_inj.mp (NativePart.name.inj h)))
    | _ => cases h
  | _ =>
    cases b <;> first
      | rfl
      | cases h

namespace NativePath

/-- The separator is a character by itself, and part of no other. -/
theorem separator_mem_iff {c : Char} : separator ∈ String.utf8EncodeChar c ↔ c = '/' := by
  constructor
  · intro h
    have hc : c.toNat = '/'.toNat := Utf8.toNat_of_mem h (by decide)
    exact Char.toNat_inj.mp hc
  · rintro rfl
    decide

/-- Bytes without a separator belong to the segment behind them. -/
theorem segments_append {s t rest : List UInt8} {more : List (List UInt8)} (h : separator ∉ s)
    (hrest : segments rest = t :: more) : segments (s ++ rest) = (s ++ t) :: more := by
  induction s with
  | nil => exact hrest
  | cons b s ih =>
    obtain ⟨hb, hs⟩ := not_or.mp (mt List.mem_cons.mpr h)
    rw [List.cons_append, segments, if_neg (Ne.symm hb), ih hs]
    rfl

theorem exists_segments (cs : List Char) : ∃ s more, SymbolAtlas.segments cs = s :: more := by
  cases cs with
  | nil => exact ⟨[], [], rfl⟩
  | cons c cs =>
    rw [SymbolAtlas.segments]
    split
    · exact ⟨_, _, rfl⟩
    · split
      · exact ⟨_, _, rfl⟩
      · exact ⟨_, _, rfl⟩

/-- A text is divided at its separators, as characters and as bytes. -/
theorem segments_encode (cs : List Char) :
    segments (cs.flatMap String.utf8EncodeChar) =
      (SymbolAtlas.segments cs).map (·.flatMap String.utf8EncodeChar) := by
  induction cs with
  | nil => rfl
  | cons c cs ih =>
    rw [List.flatMap_cons, SymbolAtlas.segments]
    by_cases hc : c = '/'
    · rw [if_pos hc, List.map_cons, ← ih, hc]
      rfl
    · obtain ⟨s, more, hsegs⟩ := exists_segments cs
      rw [hsegs, List.map_cons] at ih
      rw [if_neg hc, hsegs, segments_append (mt separator_mem_iff.mp hc) ih]
      rfl

theorem innerPart_encode (cs : List Char) :
    innerPart (cs.flatMap String.utf8EncodeChar) = (Path.innerPart cs).map Part.native := by
  have hnone : cs.flatMap String.utf8EncodeChar = [] ↔ cs = [] := Utf8.chars_inj (t := [])
  have hdot : cs.flatMap String.utf8EncodeChar = [dot] ↔ cs = ['.'] := Utf8.chars_inj (t := ['.'])
  have hdots : cs.flatMap String.utf8EncodeChar = [dot, dot] ↔ cs = ['.', '.'] :=
    Utf8.chars_inj (t := ['.', '.'])
  unfold innerPart Path.innerPart
  simp only [hnone, hdot, hdots]
  split
  · rfl
  · split
    · rfl
    · split
      · rfl
      · rw [Option.map_some, Part.native, Utf8.encode_ofList]

end NativePath

/-! ## Paths -/

namespace Path

theorem isAbsolute_native (p : Path) : p.native.isAbsolute = p.isAbsolute := by
  unfold NativePath.isAbsolute isAbsolute native Utf8.encode
  cases p.text.toList with
  | nil => rfl
  | cons c cs =>
    rw [List.flatMap_cons]
    by_cases hc : c = '/'
    · rw [hc]
      rfl
    · obtain ⟨b, bs, hbytes⟩ : ∃ b bs, String.utf8EncodeChar c = b :: bs :=
        List.exists_cons_of_length_pos (String.length_utf8EncodeChar c ▸ c.utf8Size_pos)
      have hb : b ≠ NativePath.separator := fun hb =>
        mt NativePath.separator_mem_iff.mp hc (by rw [hbytes, hb]; exact List.mem_cons_self)
      rw [hbytes, List.cons_append, List.head?_cons, List.head?_cons]
      simp [hb, hc]

/-- A path that is text has one list of components, taken as text or as bytes. -/
theorem parts_native (p : Path) : p.native.parts = p.parts.map Part.native := by
  have hinner : ∀ segs : List (List Char),
      (segs.map (·.flatMap String.utf8EncodeChar)).filterMap NativePath.innerPart =
        (segs.filterMap innerPart).map Part.native := fun segs => by
    rw [List.filterMap_map, List.map_filterMap]
    exact List.filterMap_congr fun s _ => NativePath.innerPart_encode s
  have hsegments : NativePath.segments p.native.bytes =
      (segments p.text.toList).map (·.flatMap String.utf8EncodeChar) :=
    NativePath.segments_encode p.text.toList
  unfold NativePath.parts parts
  dsimp only
  rw [p.isAbsolute_native, hsegments, hinner]
  split
  · rfl
  · obtain ⟨s, more, hsegs⟩ := NativePath.exists_segments p.text.toList
    rw [hsegs, List.map_cons]
    by_cases hs : s = ['.']
    · subst hs
      exact congrArg (NativePart.here :: ·) (hinner more)
    · have hbytes : s.flatMap String.utf8EncodeChar ≠ [0x2E] :=
        fun h => hs (Utf8.chars_inj.mp (h.trans (show [0x2E] = ['.'].flatMap _ from rfl)))
      split
      · rename_i rest heq
        exact absurd (List.cons.inj heq).1 hbytes
      · split
        · rename_i rest heq
          exact absurd (List.cons.inj heq).1 hs
        · rfl

theorem native_beq (p q : Path) : (p.native == q.native) = (p == q) := by
  have hparts : p.native.parts = q.native.parts ↔ p.parts = q.parts := by
    rw [parts_native, parts_native]
    exact (List.map_injective_iff.mpr fun a b h => Part.native_inj.mp h).eq_iff
  rw [Bool.eq_iff_iff, beq_iff_parts, ← hparts]
  show (p.native.parts == q.native.parts) = true ↔ _
  exact beq_iff_eq

/-- What is text is shown as it is. -/
theorem shown_native (p : Path) : p.native.shown = p.text := by
  unfold NativePath.shown native
  rw [Utf8.decode_encode, String.ofList_toList]

end Path

theorem NativePath.shown_ne_empty {p : NativePath} (h : p.bytes ≠ []) : p.shown ≠ "" := by
  intro hshown
  have hchars : p.shown.toList = [] := by rw [hshown]; rfl
  rw [NativePath.shown, String.toList_ofList] at hchars
  exact Utf8.decode_ne_nil (.inr h) hchars

theorem Path.lossy_native (p : Path) : p.native.lossy = p := congrArg Path.mk p.shown_native

theorem Path.native_inj {p q : Path} : p.native = q.native ↔ p = q := by
  refine ⟨fun h => ?_, fun h => h ▸ rfl⟩
  rw [← p.lossy_native, h, q.lossy_native]

/-- A path is read as itself where it is shown exactly if it is text. -/
theorem NativePath.native_lossy_iff {p : NativePath} : p.lossy.native = p ↔ p.IsText :=
  ⟨fun h => congrArg NativePath.bytes h, fun h => congrArg NativePath.mk h⟩

/-- The paths of which nothing is replaced are those that are text. -/
theorem NativePath.isText_iff {p : NativePath} : p.IsText ↔ ∃ t : Path, t.native = p := by
  rw [← native_lossy_iff]
  constructor
  · exact fun h => ⟨p.lossy, h⟩
  · rintro ⟨t, rfl⟩
    rw [t.lossy_native]

theorem Path.text?_native (p : Path) : p.native.text? = some p := by
  unfold NativePath.text?
  rw [if_pos (NativePath.isText_iff.mpr ⟨p, rfl⟩), p.lossy_native]

/-! ## Canonical forms -/

theorem NativePath.cancelUps_native (names : List String) (parts : List Part) :
    NativePath.cancelUps (names.map Utf8.encode) (parts.map Part.native) =
      (FileSystem.cancelUps names parts).map Utf8.encode := by
  induction parts generalizing names with
  | nil => rfl
  | cons part parts ih =>
    cases part with
    | root => exact ih []
    | here => exact ih names
    | up =>
      rw [List.map_cons, Part.native, NativePath.cancelUps, FileSystem.cancelUps, ← ih,
        List.map_tail]
    | name s => exact ih (s :: names)

theorem Utf8.encode_intercalate (s : String) (names : List String) :
    encode (s.intercalate names) = (encode s).intercalate (names.map encode) := by
  have hchars : ∀ (sep : List Char) (segs : List (List Char)),
      (sep.intercalate segs).flatMap String.utf8EncodeChar =
        (sep.flatMap String.utf8EncodeChar).intercalate
          (segs.map (·.flatMap String.utf8EncodeChar)) := fun sep segs => by
    induction segs with
    | nil => rfl
    | cons seg segs ih =>
      cases segs with
      | nil => simp [List.intercalate_singleton]
      | cons seg' segs =>
        rw [List.map_cons, List.map_cons, List.intercalate_cons_cons, List.intercalate_cons_cons,
          List.flatMap_append, List.flatMap_append, ih, List.map_cons]
  rw [encode, String.toList_intercalate, hchars, List.map_map]
  rfl

theorem Path.native_ofNames (names : List String) :
    (Path.ofNames names).native = .ofNames (names.map Utf8.encode) := by
  unfold Path.ofNames Path.native NativePath.ofNames
  rw [Utf8.encode_append, Utf8.encode_intercalate]
  rfl

/-- A path that is text has one canonical form, taken as text or as bytes. -/
theorem Path.canonicalPath_native (fs : FileSystem) (p : Path) :
    fs.native.canonicalPath p.native = (fs.canonicalPath p).native := by
  unfold NativeFiles.canonicalPath FileSystem.canonicalPath
  have hreal : fs.native.real p.native =
      (fs.trace .existing p).toOption.map fun names => names.map Utf8.encode := by
    unfold FileSystem.native
    dsimp only
    rw [p.text?_native, Option.bind_some]
  rw [hreal]
  cases fs.trace .existing p with
  | ok names => exact (native_ofNames names).symm
  | error e =>
    show NativePath.ofNames (NativePath.cancelUps (fs.cwd.map Utf8.encode).reverse
      p.native.parts).reverse = (Path.ofNames _).native
    rw [native_ofNames, p.parts_native, ← List.map_reverse, NativePath.cancelUps_native,
      ← List.map_reverse]

end SymbolAtlas
