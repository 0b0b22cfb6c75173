import QueryBlend.CommandLine.Run
/-!
# The program

Runs the command line on the machine that the program is started on.
-/
namespace QueryBlend

/-- What has kept a file from being read. -/
def ReadFailure.ofError : IO.Error → ReadFailure
  | .noFileOrDirectory .. => .notFound
  | .inappropriateType _ code _ => if code = 21 then .isDirectory else .notADirectory
  | .invalidArgument .. => .nameTooLong
  | e => .other (toString e)

def readTextFile (path : String) : IO (Except ReadFailure String) := do
  if let some failure := ReadFailure.ofPath? path then return .error failure
  match ← (IO.FS.readBinFile path).toBaseIO with
  | .error e => return .error (.ofError e)
  | .ok content =>
    match String.fromUTF8? content with
    | some s => return .ok s
    | none => return .error .notText

def isThere (path : String) : IO Bool := do
  match ← (IO.FS.Handle.mk path .read).toBaseIO with
  | .ok _ => return true
  | .error e =>
    match ReadFailure.ofError e with
    | .notFound | .notADirectory | .nameTooLong => return false
    | _ => return true

def configDirectory? : IO (Option String) := do
  match ← IO.getEnv "XDG_CONFIG_HOME" with
  | some dir => if dir.startsWith "/" then return some dir else homeConfig?
  | none => homeConfig?
where
  homeConfig? : IO (Option String) := do
    return (← IO.getEnv "HOME").map fun home => joinPath home ".config"

/-- The machine that the program is started on. -/
def thisMachine : Machine IO where
  readText := readTextFile
  isThere := isThere
  environment? name := IO.getEnv name
  configDirectory? := configDirectory?

end QueryBlend

open QueryBlend in
/-- Runs the program, which has no formatter: the output goes to the standard output, the messages to the standard error, and the
exit code to whoever has started the program. -/
def main (args : List String) : IO UInt32 := do
  let outcome ← CommandLine.run Sql.asWritten thisMachine args
  IO.print (String.ofList outcome.output)
  for message in outcome.messages do
    IO.eprintln message
  return UInt32.ofNat outcome.exitCode
