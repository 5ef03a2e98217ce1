import MiniLex.Program

/-!
# The executable

The outermost layer: arguments, environment and the file are fetched, `Program.run` decides, and
what it says is written.
-/

namespace MiniLex

/-- The reason of a failed system call, with its number where the system gives one. -/
def reason (e : IO.Error) : String :=
  match e with
  | .noFileOrDirectory _ code details | .permissionDenied _ code details
  | .inappropriateType _ code details | .invalidArgument _ code details
  | .resourceExhausted _ code details =>
    details ++ " (os error " ++ toString code ++ ")"
  | .otherError code details | .unsupportedOperation code details
  | .illegalOperation code details | .hardwareFault code details =>
    details ++ " (os error " ++ toString code ++ ")"
  | e => toString e

/-- Opens the file at a path and reads all of it. -/
def readSource (path : String) : IO (Opened) := do
  match ← (IO.FS.Handle.mk path .read).toBaseIO with
  | .error e => return .error (reason e)
  | .ok handle =>
    match ← handle.readBinToEnd.toBaseIO with
    | .error e => return .ok [.failed (reason e)]
    | .ok bytes => return .ok [.chunk bytes.toList]

/-- Writes one piece of output. -/
def write (output : Output) : IO Unit := do
  let stdout ← IO.getStdout
  stdout.putStr output.stdout
  stdout.flush
  (← IO.getStderr).putStr output.stderr

end MiniLex

/-- Runs the program on its arguments. -/
def main (args : List String) : IO UInt32 := do
  let settings :=
    MiniLex.Log.Settings.ofEnvironment (← IO.getEnv "CSCAN_LOG") (← IO.getEnv "RUST_LOG")
  let request := MiniLex.CommandLine.parse args
  let opened ← match request with
    | .ok (.scan settings) => MiniLex.readSource settings.file
    | _ => pure (.ok [])
  let run := MiniLex.Program.run settings (fun _ => opened) request
  for output in run.outputs do
    MiniLex.write output
  return UInt32.ofNat run.status
