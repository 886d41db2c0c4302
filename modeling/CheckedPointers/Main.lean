import CheckedPointers.Cli.Run
/-! # The program

Runs the command line against the real file system: prints the standard output, writes each
error line to standard error, and exits with the run's status. -/

open CheckedPointers

/-- The system's wording of a failed file operation. -/
def describeFailure : IO.Error → String
  | .noFileOrDirectory _ _ _ => Cli.notFound
  | .inappropriateType _ _ _ => Cli.isDirectory
  | .permissionDenied _ _ _ => "Permission denied (os error 13)"
  | e => toString e

/-- Files on disk, with failures kept as values. -/
def diskFiles : Cli.FileAccess IO where
  read p := do
    try return .ok (← IO.FS.readFile p) catch e => return .error (describeFailure e)
  write p text := do
    try
      IO.FS.writeFile p text
      return .ok ()
    catch e => return .error (describeFailure e)

def main (args : List String) : IO UInt32 := do
  let out ← Cli.run diskFiles args
  IO.print out.stdout
  for line in out.errors do
    IO.eprintln line
  return out.status.toUInt32
