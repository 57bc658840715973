import SymbolAtlas.CommandLine.Run
import SymbolAtlas.Snapshot

/-!
# The program

Reads a snapshot of the workspace from standard input, runs the command line on it, prints what the
run left to say, and writes the files that it made.
-/

set_option autoImplicit false

namespace SymbolAtlas

/-- Reads the rest of a stream. -/
partial def readRest (stream : IO.FS.Stream) (before : String) : IO String := do
  let line ← stream.getLine
  if line.isEmpty then return before
  readRest stream (before ++ line)

/-- The variables of the environment that the program looks at. -/
def knownVariables : List String :=
  ["HOME", "CXGRAPH_CONFIG", "CXGRAPH_NO_PREAMBLE", "CXGRAPH_DUMP"]

end SymbolAtlas

open SymbolAtlas in
/-- Runs the command line that the arguments make up. -/
def main (arguments : List String) : IO UInt32 := do
  let text ← readRest (← IO.getStdin) ""
  match Snapshot.parse? text with
  | none =>
    (← IO.getStderr).putStrLn "error: standard input holds no snapshot of a workspace"
    return 2
  | some snapshot =>
    let known ← knownVariables.filterMapM fun name => do
      return (← IO.getEnv name).map (name, ·)
    let result := runCommandLine snapshot.grammar snapshot.files (fun name => known.lookup name)
      snapshot.workspace arguments
    for (path, bytes) in snapshot.written result.files do
      if let some above := path.parent? then IO.FS.createDirAll above.text
      IO.FS.writeBinFile path.text bytes
    let stderr ← IO.getStderr
    for message in result.log do stderr.putStrLn message
    (← IO.getStdout).putStr result.output
    stderr.putStr result.complaints
    return result.status.toUInt32
