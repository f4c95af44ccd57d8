import BlockFlow.Cli.Run

/-!
# The soak program on real files
-/

set_option autoImplicit false

namespace BlockFlow

/-- What the operating system reports. -/
def ioErrorOf : IO.Error → IoError
  | .noFileOrDirectory .. => .missing
  | .permissionDenied .. => .denied
  | .alreadyExists .. => .occupied
  | .inappropriateType _ code _ => if code = 21 then .isFolder else .notFolder
  | e => ⟨.other, some (toString e)⟩

/-- The result of a file operation. -/
def attemptFile (act : IO Unit) : IO (Except IoError Unit) := do
  try
    act
    return .ok ()
  catch e =>
    return .error (ioErrorOf e)

instance : Host IO where
  readFile? path := do
    try
      return some (← IO.FS.readBinFile path)
    catch _ =>
      return none
  createFolders path :=
    attemptFile (if path = "" then pure () else IO.FS.createDirAll path)
  writeFile path text := attemptFile (IO.FS.writeFile path text)
  printLine text := IO.println text
  milliseconds := do
    return (← IO.monoNanosNow).toFloat / 1000000

end BlockFlow

/-- Runs the soak program. -/
def main (arguments : List String) : IO UInt32 := do
  let ending ← BlockFlow.Cli.run arguments
  match ending.complaint with
  | some text => IO.eprintln text
  | none => pure ()
  return ending.code
