import SymbolAtlas.Glob.Reader
import SymbolAtlas.Regex.Scope

/-!
# Globs as regular expressions

Globs that are asked together are turned into regular expressions, unless a look at the name or at
an end of the path answers them.  A regular expression that is nested too deep makes the whole set
unusable.

Main facts: a glob of bare characters is compared with the path as it is, whatever its length
(`Glob.method_literals`).
-/

set_option autoImplicit false

namespace SymbolAtlas

namespace Glob

/-! ### The text of the regular expression -/

/-- A byte as it is written in a regular expression. -/
def byteText (b : UInt8) : String :=
  if b < 128 then
    let c := Char.ofNat b.toNat
    if Regex.metaCharacters.contains c then String.ofList ['\\', c] else String.ofList [c]
  else String.ofList ['\\', 'x', Text.hexDigit (b.toNat / 16), Text.hexDigit (b.toNat % 16)]

/-- A character as it is written in a regular expression, byte by byte. -/
def charText (c : Char) : String := String.join ((bytesOf c).map byteText)

/-- A range as it is written in a class. -/
def rangeText (lo hi : Char) : String :=
  if lo = hi then charText lo else charText lo ++ "-" ++ charText hi

mutual

/-- A token as a regular expression. -/
def Token.regexText (strict : Bool) : Token → String
  | .literal c => charText c
  | .any => if strict then "[^/]" else "."
  | .many => if strict then "[^/]*" else ".*"
  | .leading => "(?:/?|.*/)"
  | .trailing => "/.*"
  | .between => "(?:/|/.*/)"
  | .oneOf negated ranges =>
    (if negated then "[^" else "[") ++ String.join (ranges.map fun r => rangeText r.1 r.2) ++ "]"
  | .alternatives branches =>
    match branchTexts strict branches with
    | [] => ""
    | texts => "(?:" ++ "|".intercalate texts ++ ")"

/-- The branches of alternatives as regular expressions; empty ones do not count. -/
def branchTexts (strict : Bool) : List (List Token) → List String
  | [] => []
  | b :: bs =>
    let text := sequence strict b
    if text.isEmpty then branchTexts strict bs else text :: branchTexts strict bs

/-- Tokens as a regular expression. -/
def sequence (strict : Bool) : List Token → String
  | [] => ""
  | t :: ts => t.regexText strict ++ sequence strict ts

end

/-- The regular expression of a glob. -/
def regexText (g : Glob) : String :=
  match g.tokens with
  | [.leading] => "(?-u)^.*$"
  | tokens => "(?-u)^" ++ sequence g.strict tokens ++ "$"

/-! ### How a glob is asked -/

/-- What it takes to ask a glob. -/
inductive Method where
  /-- A look at the path, its name or its ends. -/
  | plain
  /-- A look at the extension, then the regular expression. -/
  | extension
  /-- The regular expression. -/
  | regex
deriving DecidableEq, Repr

/-- The token is a character. -/
def Token.isLiteral : Token → Bool
  | .literal _ => true
  | _ => false

/-- The token is this character. -/
def Token.isChar (c : Char) : Token → Bool
  | .literal d => d == c
  | _ => false

/-- The token is `*`, and it stands for any bytes. -/
def Token.isManyOfAll (strict : Bool) : Token → Bool
  | .many => !strict
  | _ => false

/-- The tokens are a dot and characters other than dots and separators. -/
def isExtension : List Token → Bool
  | dot :: rest =>
    let inside := fun t => t.isLiteral && !Token.isChar '.' t && !Token.isChar '/' t
    Token.isChar '.' dot && rest.all inside
  | [] => false

/-- All that counts is the name. -/
def asksName : List Token → Bool
  | .leading :: rest =>
    !rest.isEmpty && rest.all fun t => t.isLiteral && !Token.isChar '/' t
  | _ => false

/-- All that counts is the extension. -/
def asksExtension (strict : Bool) : List Token → Bool
  | .leading :: .many :: rest => isExtension rest
  | .many :: rest => !strict && isExtension rest
  | _ => false

/-- All that counts is the start of the path. -/
def asksStart (strict : Bool) (tokens : List Token) : Bool :=
  match tokens.getLast? with
  | some .trailing => tokens.dropLast.all Token.isLiteral
  | some .many => !strict && tokens.dropLast.all Token.isLiteral && 1 < tokens.length
  | some (.literal _) => tokens.all Token.isLiteral
  | _ => false

/-- All that counts is the end of the path. -/
def asksEnd (strict : Bool) (tokens : List Token) : Bool :=
  let (anchored, rest) := match tokens with
    | .leading :: rest => (rest.head?.any Token.isLiteral, rest)
    | _ => (false, tokens)
  match rest with
  | [] => false
  | t :: more =>
    let rest := if t.isManyOfAll strict then more else rest
    rest.all Token.isLiteral && !rest.isEmpty
      && (anchored || rest.map (Token.isChar '/') != [true])

/-- The glob ends in an extension of bare characters. -/
def endsInExtension (tokens : List Token) : Bool :=
  let tail := tokens.reverse.takeWhile fun t => t.isLiteral && !Token.isChar '.' t
  let dot := tokens.reverse[tail.length]?
  dot.any (Token.isChar '.') && !tail.any (Token.isChar '/')

/-- What it takes to ask a glob. -/
def method (g : Glob) : Method :=
  if asksName g.tokens || asksExtension g.strict g.tokens || asksStart g.strict g.tokens
      || asksEnd g.strict g.tokens then .plain
  else if endsInExtension g.tokens then .extension
  else .regex

/-- The regular expression of the glob is nested too deep. -/
def isTooDeep (g : Glob) : Bool :=
  match Regex.parse g.regexText with
  | .error _ => true
  | .ok _ => false

end Glob

/-- Why globs cannot be asked together. -/
inductive GlobSetFault where
  /-- The regular expression of a glob that ends in an extension is nested too deep. -/
  | extension (text : String)
  /-- A regular expression is nested too deep; its place among those without an extension. -/
  | regex (index : Nat)
deriving DecidableEq, Repr

/-- The wording of the fault. -/
def GlobSetFault.message : GlobSetFault → String
  | .extension text => s!"error parsing glob '{text}': error parsing pattern 0"
  | .regex index => s!"error parsing pattern {index}"

namespace GlobSet

/-- Why some globs cannot be asked together.  Those that end in an extension come first. -/
def fault? (globs : List Glob) : Option GlobSetFault :=
  match (globs.filter (·.method = .extension)).find? (·.isTooDeep) with
  | some g => some (.extension g.regexText)
  | none => ((globs.filter (·.method = .regex)).findIdx? (·.isTooDeep)).map .regex

end GlobSet

/-- Bare characters are compared with the path. -/
theorem Glob.method_literals (cs : List Char) (strict : Bool) (h : cs ≠ []) :
    ({ tokens := cs.map .literal, strict } : Glob).method = .plain := by
  have hall : (cs.map Glob.Token.literal).all Token.isLiteral = true := by
    simp [Glob.Token.isLiteral]
  obtain ⟨c, hc⟩ : ∃ c, (cs.map Glob.Token.literal).getLast? = some (.literal c) := by
    obtain ⟨c, hc⟩ := Option.isSome_iff_exists.mp (List.getLast?_isSome.mpr h)
    exact ⟨c, by rw [List.getLast?_map, hc]; rfl⟩
  simp [Glob.method, Glob.asksStart, hc, hall]

end SymbolAtlas
