import CilListing.CommandLine.Run

namespace CilListing

/-- The wording for a file that cannot be read. -/
def ioErrorText : IO.Error → String
  | .noFileOrDirectory .. => "No such file or directory (os error 2)"
  | .permissionDenied .. => "Permission denied (os error 13)"
  | .inappropriateType .. => "Is a directory (os error 21)"
  | error => toString error

/-- Reads a file with its path beside the result. -/
def readPath (path : String) : IO (String × Except String (List UInt8)) := do
  try
    let bytes ← IO.FS.readBinFile path
    return (path, .ok bytes.toList)
  catch error =>
    return (path, .error (ioErrorText error))

/-- The files that the arguments ask for. -/
def gatherFiles (arguments : List String) : IO Files := do
  match Invocation.parse arguments with
  | .error _ => return fun _ => .error ""
  | .ok invocation =>
    let contents ← invocation.paths.mapM readPath
    return fun path => (contents.lookup path).getD (.error "")

end CilListing

def main (arguments : List String) : IO UInt32 := do
  let files ← CilListing.gatherFiles arguments
  let outcome := CilListing.runProgram arguments files
  IO.eprint outcome.errorOutput
  IO.print outcome.output
  return UInt32.ofNat outcome.exitCode
