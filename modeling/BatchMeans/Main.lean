import BatchMeans.Command.Run
import BatchMeans.Command.Texts

/- The program: it reads the files that an invocation names, runs it, and prints the outcome. -/
open BatchMeans BatchMeans.Command

/-- What a path stands for when the program is started. -/
def loadSource (path : String) : IO Source := do
  match ← (IO.FS.Handle.mk path .read).toBaseIO with
  | .error _ => return .missing
  | .ok handle => match ← handle.readBinToEnd.toBaseIO with
    | .error _ => return .unreadable
    | .ok bytes => return .content bytes.toList

/-- Everything on the standard input. -/
def loadStdin : IO (List UInt8) := do
  let bytes ← (← IO.getStdin).readBinToEnd
  return bytes.toList

/-- Everything that an invocation may read. -/
def loadInputs (invocation : Invocation) : IO Inputs := do
  let paths := invocation.paths
  let sources ← paths.mapM fun path => do return (path, ← loadSource path)
  let stdin ← if paths.contains "-" then loadStdin else pure []
  return ⟨fun path => (sources.lookup path).getD .missing, stdin⟩

def main (args : List String) : IO UInt32 := do
  match Request.ofArgs args with
  | .misused =>
    IO.eprint helpText
    return 2
  | .shows .help =>
    IO.print helpText
    return 0
  | .shows .version =>
    IO.print versionText
    return 0
  | .run _ invocation =>
    let outcome := invocation.run .full (← loadInputs invocation)
    IO.print outcome.output
    if let some failure := outcome.failure then
      IO.eprintln ("Error: " ++ failure.message DataFault.words)
    return UInt32.ofNat outcome.exitStatus
