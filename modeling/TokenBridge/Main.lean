import TokenBridge.CommandLine.Run

open TokenBridge TokenBridge.CommandLine

def readFile (path : String) : IO (Except FileError String) := do
  match ← (IO.FS.readBinFile path).toBaseIO with
  | .error (.inappropriateType _ code _) =>
    return .error (if code = 21 then .isDirectory else .notDirectory)
  | .error (.invalidArgument _ code _) =>
    return .error (if code = 22 then .nullInName else .nameTooLong)
  | .error (.permissionDenied ..) => return .error .denied
  | .error _ => return .error .notFound
  | .ok bytes =>
    match String.fromUTF8? bytes with
    | some text => return .ok text
    | none => return .error .notText

def readFiles (command : Command) : IO Files := do
  match command.configPath? with
  | none => return fun _ ↦ .error .notFound
  | some path =>
    let text ← readFile path
    return fun p ↦ if p = path then text else .error .notFound

def main (args : List String) : IO UInt32 := do
  match Invocation.ofArgs args with
  | .error .help =>
    IO.print usageText
    return 0
  | .error .misuse =>
    IO.eprint usageText
    return 1
  | .ok i =>
    match i.run (← readFiles i.command) with
    | .error e =>
      IO.eprint e.text
      return 1
    | .ok (_, report) =>
      IO.print report.text
      return 0
