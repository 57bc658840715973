import SymbolAtlas.Frontend
import SymbolAtlas.Text.Sha256

/-!
# Preambles

Files compiled with the same options mostly include the same headers.  For every option list the
coordinator collects those headers, and once enough parses have contributed, one preamble is built
that later parses with the same options start from.

Main facts: asking for an option list twice gives the same entry (`PreambleCoordinator.find?_get`).
-/

set_option autoImplicit false

namespace SymbolAtlas

/-- How preambles are used. -/
structure PreambleConfig where
  enabled : Bool := true
  /-- Only files of this language use preambles. -/
  language : Language := .cxx
  /-- Where artifacts are written. -/
  directory : Path
  /-- How many parses contribute headers before a preamble is built. -/
  buildAfter : Nat := 2
deriving Inhabited

namespace PreambleConfig

/-- Artifacts go below the directory for temporary files. -/
def standard : PreambleConfig := { directory := ⟨"/tmp/cxgraph-preambles"⟩ }

/-- No preambles at all. -/
def disabled : PreambleConfig := { standard with enabled := false }

end PreambleConfig

/-- Why an entry has no preamble. -/
inductive PreambleError where
  | noHeaders (path : Path)
  | buildFailed (path : Path) (text : String)

/-- The wording of a preamble error. -/
def PreambleError.message : PreambleError → String
  | .noHeaders path => s!"no headers collected for preamble {path.text}"
  | .buildFailed path text => s!"preamble build failed for {path.text}: {text}"

/-- What is known about the preamble of one option list. -/
structure PreambleEntry where
  options : List String
  /-- Where the artifact is written. -/
  path : Path
  headers : PreambleInputs := {}
  /-- Number of parses that added headers. -/
  contributions : Nat := 0
  /-- How the build ended, once it was tried. -/
  outcome : Option (Except PreambleError Path) := none

/-- Adds paths that are not yet in a list, in order. -/
def addPaths (known : List Path) (new : List Path) : List Path :=
  new.foldl (fun ps p => if ps.any (· == p) then ps else ps ++ [p]) known

namespace PreambleEntry

/-- No build was tried yet. -/
def collecting (e : PreambleEntry) : Bool := e.outcome.isNone

/-- Adds the headers of one parse, as long as no build was tried. -/
def add (e : PreambleEntry) (direct all : List Path) : PreambleEntry :=
  if e.collecting then
    { e with
      headers := ⟨addPaths e.headers.direct direct, addPaths e.headers.all all⟩
      contributions := e.contributions + 1 }
  else e

/-- The artifact, if the build succeeded and the artifact is still there. -/
def builtPath (fs : FileSystem) (e : PreambleEntry) : Option Path :=
  match e.outcome with
  | some (.ok p) => if fs.exists? p then some p else none
  | _ => none

/-- Builds the preamble unless that was tried before; without headers nothing is built. -/
def ensureBuilt {σ : Type}
    (build : PreambleInputs → List String → Path → World σ → Except FrontendError Unit × World σ)
    (e : PreambleEntry) (w : World σ) : PreambleEntry × World σ :=
  match e.outcome with
  | some _ => (e, w)
  | none =>
    if e.headers.all.isEmpty && e.headers.direct.isEmpty then
      ({ e with outcome := some (.error (.noHeaders e.path)) }, w)
    else
      match build e.headers e.options e.path w with
      | (.ok (), w') => ({ e with outcome := some (.ok e.path) }, w')
      | (.error err, w') =>
        ({ e with outcome := some (.error (.buildFailed e.path err.message)) },
          w'.tell (.preambleFailed err))

end PreambleEntry

/-- The entries of all option lists, in the order they were first asked for. -/
structure PreambleCoordinator where
  config : PreambleConfig
  entries : List PreambleEntry := []

namespace PreambleCoordinator

/-- Files of a language use preambles. -/
def appliesTo (c : PreambleCoordinator) (l : Language) : Bool :=
  c.config.enabled && c.config.language = l

/-- The artifact of an option list is named by the first 16 digits of a digest of the list, every
    option followed by a zero byte. -/
def artifactPath (c : PreambleCoordinator) (options : List String) : Path :=
  let message := options.flatMap fun o => o.toUTF8.toList ++ [0]
  c.config.directory.join
    ⟨String.ofList ((Text.Sha256.hex message).take 16) ++ ".pch"⟩

/-- The entry of an option list. -/
def find? (c : PreambleCoordinator) (options : List String) : Option PreambleEntry :=
  c.entries.find? (·.options == options)

/-- The entry of an option list, made if there is none yet; nothing without preambles. -/
def get (c : PreambleCoordinator) (options : List String) :
    Option PreambleEntry × PreambleCoordinator :=
  if !c.config.enabled then (none, c)
  else
    match c.find? options with
    | some e => (some e, c)
    | none =>
      let e : PreambleEntry := { options, path := c.artifactPath options }
      (some e, { c with entries := c.entries ++ [e] })

/-- Replaces the entry of the same option list. -/
def update (c : PreambleCoordinator) (e : PreambleEntry) : PreambleCoordinator :=
  { c with entries := c.entries.map fun x => if x.options = e.options then e else x }

/-- Enough parses have contributed, and no build was tried yet. -/
def readyToBuild (c : PreambleCoordinator) (e : PreambleEntry) : Bool :=
  e.collecting && e.contributions ≥ max c.config.buildAfter 1

/-- The entries in the order of their option lists. -/
def sorted (c : PreambleCoordinator) : List PreambleEntry :=
  c.entries.mergeSort fun a b => !decide (b.options < a.options)

end PreambleCoordinator

/-! ### Facts -/

theorem PreambleCoordinator.find?_get {c c' : PreambleCoordinator} {options : List String}
    {e : PreambleEntry} (h : c.get options = (some e, c')) : c'.find? options = some e := by
  unfold PreambleCoordinator.get at h
  split at h
  · simp at h
  · split at h
    · rename_i e' he
      obtain ⟨h₁, h₂⟩ := Prod.mk.inj h
      rw [← h₂, he, h₁]
    · rename_i hnone
      obtain ⟨h₁, h₂⟩ := Prod.mk.inj h
      have hn : c.entries.find? (fun x => x.options == options) = none := hnone
      rw [← h₂, ← h₁]
      simp [PreambleCoordinator.find?, List.find?_append, hn]

end SymbolAtlas
