import WireBindings.CommandLine.Execute

/-!
# The program

The command line on the machine. Everything is decided in `WireBindings.CommandLine.Execute`; here
is how the machine reads and writes files and prints.
-/

namespace WireBindings.CommandLine

/-- The number of an error, which some calls hand over with its sign reversed. -/
def errorNumber (code : UInt32) : Nat :=
  if code.toNat ≤ UInt32.size - code.toNat then code.toNat else UInt32.size - code.toNat

/-- The refusal that an error of the operating system stands for. -/
def refusal (error : IO.Error) : Files.Fault :=
  match error with
  | .noFileOrDirectory _ code details
  | .inappropriateType _ code details
  | .permissionDenied _ code details
  | .invalidArgument _ code details
  | .otherError code details => .ofCode (errorNumber code) details
  | other => .other 5 other.toString

/-- The files of the machine. -/
instance : FileAccess IO where
  readFile path := do
    try
      let contents ← IO.FS.readBinFile path
      return .ok contents.toList
    catch error => return .error (refusal error)
  writeFile path contents := do
    try
      IO.FS.writeBinFile path (ByteArray.mk contents.toArray)
      return .ok ()
    catch error => return .error (refusal error)

/-- The terminal of the machine. -/
instance : Terminal IO where
  print text := IO.print text
  printError text := IO.eprint text

end WireBindings.CommandLine

/-- Runs the program and ends with its exit code. -/
def main (arguments : List String) : IO UInt32 :=
  WireBindings.CommandLine.program arguments
