import StateCheck.Project.Command
/-!
The command line.
-/
open StateCheck

/-- The files of the computer that the program runs on. -/
def hostFiles : Files IO where
  read path := do
    try
      return .ok (← IO.FS.readFile path)
    catch
      | .inappropriateType _ 20 _ => return .error .notDirectory
      | .inappropriateType _ _ _ => return .error .directory
      | _ => return .error .missing

def main (arguments : List String) : IO UInt32 := do
  match Invocation.parse? arguments with
  | none =>
    IO.eprintln "error: invalid arguments"
    return 2
  | some invocation =>
    let fresh := (← IO.getRandomBytes 8).toUInt64LE!
    let result ← invocation.execute hostFiles (.counting fresh.toNat)
    IO.print result.output
    result.error.forM fun line => IO.eprintln line
    return UInt32.ofNat result.code
