import SymbolAtlas.Language
import SymbolAtlas.NativePath

/-!
# Compile options

`CompileOptions` is what one file is compiled with.  `optionList` spells it as the ordered list
of options a parse is called with, which also decides which files share a preamble;
`ParseOptions.ofList` reads such a list back.  Options are text, so the include paths that are read
are text, whatever the ones that were written.
-/

set_option autoImplicit false

namespace SymbolAtlas

/-- What one file is compiled with. -/
structure CompileOptions where
  language : Language
  includePaths : List NativePath := []
  defines : List String := []
  extra : List String := []
deriving Inhabited

namespace CompileOptions

/-- The options of a file by its extension, as C++ when the extension is not known. -/
def forFile (file : Path) : CompileOptions :=
  { language := (Language.ofPath? file).getD .cxx }

/-- The ordered option list; include paths are written as they are shown. -/
def optionList (o : CompileOptions) : List String :=
  ["-x", o.language.name]
    ++ o.includePaths.map (fun dir => "-I" ++ dir.shown)
    ++ o.defines.map (fun define => "-D" ++ define)
    ++ o.extra

/-- The invocation that a person would type for these options. -/
def commandLine (o : CompileOptions) (options : List String) (file : Path) : String :=
  " ".intercalate (o.language.compiler :: options ++ [file.text])

end CompileOptions

/-- The option that names a preamble to start from. -/
def preambleFlag : String := "-include-pch"

/-- What a parse reads from an option list. -/
structure ParseOptions where
  language : Option Language := none
  includePaths : List Path := []
  preamble : Option Path := none
deriving Inhabited

namespace ParseOptions

/-- Reads an option that carries its value itself. -/
def readJoined (o : ParseOptions) (opt : String) : ParseOptions :=
  match opt.toList with
  | '-' :: 'I' :: dir => { o with includePaths := o.includePaths ++ [⟨String.ofList dir⟩] }
  | _ => o

/-- Reads options in order: the last language and the last preamble win, include paths add up,
    everything else is left to the compiler.  A flag at the end of the list lacks its value. -/
def readFrom (o : ParseOptions) : List String → ParseOptions
  | [] => o
  | [opt] =>
    if opt = "-x" then { o with language := none }
    else if opt = "-I" then o
    else if opt = preambleFlag then { o with preamble := none }
    else o.readJoined opt
  | opt :: value :: rest =>
    if opt = "-x" then
      readFrom { o with language := (Language.ofName value).toOption } rest
    else if opt = "-I" then
      readFrom { o with includePaths := o.includePaths ++ [⟨value⟩] } rest
    else if opt = preambleFlag then
      readFrom { o with preamble := some ⟨value⟩ } rest
    else readFrom (o.readJoined opt) (value :: rest)

/-- What an option list asks for. -/
def ofList (options : List String) : ParseOptions := ParseOptions.readFrom {} options

end ParseOptions

end SymbolAtlas
