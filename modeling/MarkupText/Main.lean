import MarkupText.Console.Run

/-!
# The command line

Renders a tree in JSON to text of fixed width: reads the arguments and the source, and prints what
`Invocation.run` gives.
-/

namespace MarkupText.Console

/-- The text of a source, if it can be read. -/
def readSource : Source → IO (Option Text)
  | .standardInput => do
    let bytes ← (← IO.getStdin).readBinToEnd
    return (String.fromUTF8? bytes).map String.toList
  | .file path => do
    try return some (← IO.FS.readFile (String.ofList path)).toList
    catch _ => return none

end MarkupText.Console

open MarkupText.Console

def main (arguments : List String) : IO UInt32 := do
  let columns := (← IO.getEnv "COLUMNS").map String.toList
  let output ← match Request.ofArguments? (arguments.map String.toList) columns with
    | none => pure Output.badUsage
    | some (.notice n) => pure (Output.ofNotice columns n)
    | some (.render i) => i.run <$> readSource i.source
  (← IO.getStdout).putStr (String.ofList output.stdout)
  (← IO.getStderr).putStr (String.ofList output.stderr)
  return output.exitCode.toUInt32
