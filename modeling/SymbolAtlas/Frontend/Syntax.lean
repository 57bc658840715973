import SymbolAtlas.Frontend
import SymbolAtlas.Frontend.Manifest
import SymbolAtlas.Lowering.Unit

/-!
# The syntax frontend

Parses a file by a grammar and lowers the syntax tree into a unit.  A preamble is a manifest that
lists headers: building one reads them into a cache, and a parse that starts from one refreshes the
cache from it.  A cached header counts as long as the modification time of its file stays the same;
a parse without a preamble reads every header afresh.

Main facts: a parse without a preamble leaves the cache alone
(`SyntaxFrontend.parse_state_of_no_preamble`).
-/

set_option autoImplicit false

namespace SymbolAtlas

/-- The syntax trees that a parser makes of texts. -/
abbrev Grammar := Language → String → SyntaxNode

namespace SyntaxFrontend

/-- A header in the cache. -/
structure CachedHeader where
  path : Path
  language : Language
  source : Source
  /-- The modification time that the file had when it was read. -/
  modified : Stamp

/-- The headers read through preambles. -/
structure State where
  headers : List CachedHeader := []

namespace State

/-- The cached header of a file in a language. -/
def find? (s : State) (path : Path) (language : Language) : Option CachedHeader :=
  s.headers.find? fun h => h.path == path && h.language = language

/-- Puts a header into the cache, in place of the one of the same file and language. -/
def insert (s : State) (h : CachedHeader) : State :=
  ⟨s.headers.filter (fun x => !(x.path == h.path && x.language = h.language)) ++ [h]⟩

/-- Number of cached headers. -/
def size (s : State) : Nat := s.headers.length

end State

/-- Reads and parses a file, unless it is too large for lines and columns of 32 bits. -/
def readSource (grammar : Grammar) (fs : FileSystem) (path : Path) (language : Language) :
    Except FrontendError (Source × Stamp) :=
  match fs.readText path with
  | .error e => .error (.io e)
  | .ok text =>
    if Text.maxWord32 < text.utf8ByteSize then .error (.parse path "file too large to index")
    else
      match fs.modified path with
      | .error e => .error (.io e)
      | .ok stamp => .ok ({ path, text, tree := grammar language text }, stamp)

/-- A header from the cache, or read afresh and cached if its file has another modification
    time. -/
def header (grammar : Grammar) (fs : FileSystem) (s : State) (path : Path) (language : Language) :
    Except FrontendError Source × State :=
  match fs.modified path with
  | .error e => (.error (.io e), s)
  | .ok stamp =>
    match (s.find? path language).filter (·.modified = stamp) with
    | some cached => (.ok cached.source, s)
    | none =>
      match readSource grammar fs path language with
      | .error e => (.error e, s)
      | .ok (source, modified) => (.ok source, s.insert { path, language, source, modified })

/-- Reads headers through the cache for its sake. -/
def refresh (grammar : Grammar) (fs : FileSystem) (language : Language) (s : State)
    (paths : List Path) : State :=
  paths.foldl (fun s p => (header grammar fs s p language).2) s

/-- Checks a preamble artifact and refreshes the cache from it. -/
def loadPreamble (grammar : Grammar) (fs : FileSystem) (s : State) (path : Path)
    (language : Language) : Except FrontendError State :=
  match fs.readBytes path with
  | .error e => .error (.preamble path e.message)
  | .ok bytes =>
    match PreambleManifest.ofBytes bytes with
    | .error e => .error (.preamble path e.message)
    | .ok m =>
      if m.language = language then .ok (refresh grammar fs language s m.headers)
      else .error (.preamble path s!"built for {m.language.name}, not {language.name}")

/-- Parses a file and every header it reaches, in a language.  With a preamble the headers come
    through the cache. -/
def parseIn (grammar : Grammar) (fs : FileSystem) (s : State) (file : Path) (o : ParseOptions)
    (language : Language) : Except FrontendError TranslationUnit × State :=
  let ready := match o.preamble with
    | some path => loadPreamble grammar fs s path language
    | none => .ok s
  match ready with
  | .error e => (.error e, s)
  | .ok s =>
    match readSource grammar fs (fs.canonicalPath file) language with
    | .error e => (.error e, s)
    | .ok (main, _) =>
      let shared := o.preamble.isSome
      let load := fun path =>
        if shared then (header grammar fs s path language).1.toOption
        else (readSource grammar fs path language).toOption.map (·.1)
      let u := TranslationUnit.ofSource { files := fs, includePaths := o.includePaths, load } main
      let s := if shared then refresh grammar fs language s (u.inclusions.map (·.path)) else s
      (.ok u, s)

/-- Parses a file by an option list; the language comes from the options or the extension. -/
def parse (grammar : Grammar) (file : Path) (options : List String) (w : World State) :
    Except FrontendError TranslationUnit × World State :=
  let o := ParseOptions.ofList options
  match o.language <|> Language.ofPath? file with
  | none => (.error (.unsupported file), w)
  | some language =>
    let (r, state) := parseIn grammar w.files w.state file o language
    (r, { w with state })

/-- Reads the headers of a preamble, and tells those that can be read. -/
def collectHeaders (grammar : Grammar) (language : Language) (paths : List Path)
    (w : World State) : List Path × World State :=
  paths.foldl
    (fun (found, w) p =>
      match header grammar w.files w.state p language with
      | (.ok _, state) => (found ++ [p], { w with state })
      | (.error e, state) => (found, World.tell { w with state } (.headerLeftOut p e)))
    ([], w)

/-- Builds a preamble: reads its headers and writes the manifest of those that can be read. -/
def buildPreamble (grammar : Grammar) (inputs : PreambleInputs) (options : List String)
    (output : Path) (w : World State) : Except FrontendError Unit × World State :=
  let language := ((ParseOptions.ofList options).language).getD .cxx
  let (headers, w) := collectHeaders grammar language inputs.all w
  if headers.isEmpty then
    (.error (.preamble output "none of the collected headers could be parsed"), w)
  else
    let manifest : PreambleManifest := { language, options, headers }
    let (written, files) := w.files.writeBelow output manifest.toJson.pretty.toUTF8
    (written.mapError .io, { w with files })

/-- The frontend of a grammar. -/
def frontend (grammar : Grammar) : Frontend State where
  parse := parse grammar
  buildPreamble := buildPreamble grammar

/-! ### Facts -/

theorem parse_state_of_no_preamble (grammar : Grammar) (file : Path) (options : List String)
    (w : World State) (h : (ParseOptions.ofList options).preamble = none) :
    (parse grammar file options w).2 = w := by
  unfold parse
  simp only
  split
  · rfl
  · rename_i language _
    have : (parseIn grammar w.files w.state file (ParseOptions.ofList options) language).2
        = w.state := by
      unfold parseIn
      simp only [h]
      split <;> rfl
    simp [this]

end SyntaxFrontend

end SymbolAtlas
