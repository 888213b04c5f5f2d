import WireBindings.CommandLine.Help
import WireBindings.CommandLine.Report
import WireBindings.Files.Tree

/-!
# Running a command

A run first settles what is asked for, then reads the input, then makes the text, then writes it if
there is an output, and only then prints. So a run that fails has changed nothing and printed
nothing but a report of what went wrong, which comes last.

The same program runs on the machine and in memory. What it needs of either is `FileAccess` for the
files and `Terminal` for what is printed. In memory the files are a tree, and what is printed is
gathered (`Printed`); what can be seen of such a run afterwards is its `Outcome`.
-/

namespace WireBindings.CommandLine

/-! ### Files and printing -/

/-- The means to read and write files by their paths. -/
class FileAccess (m : Type → Type) where
  /-- The contents of a file. -/
  readFile : String → m (Except Files.Fault (List UInt8))
  /-- Replaces or creates a file. -/
  writeFile : String → List UInt8 → m (Except Files.Fault Unit)

/-- The means to print. -/
class Terminal (m : Type → Type) where
  /-- Prints to standard output. -/
  print : String → m Unit
  /-- Prints to standard error. -/
  printError : String → m Unit

/-- Files in memory. A write that fails leaves the tree as it was. -/
instance : FileAccess (StateM Files.Tree) where
  readFile path := do return (← get).read path
  writeFile path contents := do
    match (← get).write path contents with
    | .ok tree => set tree; return .ok ()
    | .error fault => return .error fault

/-- What has been printed so far. -/
structure Printed where
  /-- To standard output. -/
  output : String := ""
  /-- To standard error. -/
  errors : String := ""
deriving DecidableEq, Repr

/-- Printing in memory adds to what has been printed. -/
instance {m : Type → Type} [Monad m] : Terminal (StateT Printed m) where
  print text := modify fun printed => { printed with output := printed.output ++ text }
  printError text := modify fun printed => { printed with errors := printed.errors ++ text }

/-- Files are the same when what is printed is gathered. -/
instance {m : Type → Type} [Monad m] [FileAccess m] : FileAccess (StateT Printed m) where
  readFile path := StateT.lift (FileAccess.readFile path)
  writeFile path contents := StateT.lift (FileAccess.writeFile path contents)

/-! ### Commands -/

section Commands

variable {m : Type → Type} [Monad m] [FileAccess m]

/-- The contents of a file, or the fault of the run. -/
def readInput (path : String) : ExceptT Fault m (List UInt8) :=
  ExceptT.mk do return (← FileAccess.readFile path).mapError .file

/-- Replaces or creates a file with the text. -/
def writeOutput (path text : String) : ExceptT Fault m Unit :=
  ExceptT.mk do return (← FileAccess.writeFile path (Text.Utf8.encode text)).mapError .file

/-- The bindings for the container in a file. -/
def compileFile (options : Options) (input : String) : ExceptT Fault m String := do
  let octets ← readInput input
  ExceptT.mk (pure (compile options octets))

variable [Terminal m]

/-- Prints the text to standard output. -/
def printOutput (text : String) : ExceptT Fault m Unit :=
  ExceptT.lift (Terminal.print text)

/-- Does what the command says. -/
def Command.perform : Command → ExceptT Fault m Unit
  | .generate input none options => do
    let code ← compileFile options input
    printOutput code
  | .generate input (some output) options => do
    let code ← compileFile options input
    writeOutput output code
    printOutput ("Schema written to " ++ output ++ "\n")
  | .decode input => do
    let octets ← readInput input
    let dump ← ExceptT.mk (pure (dumpText octets))
    printOutput (dump ++ "\n")

/-- The reminder of how the program is called. -/
def usage : String := "Usage: " ++ Topic.program.page.call ++ "\n"

/-- The program with the given arguments; the answer is its exit code. -/
def program (arguments : List String) : m UInt32 :=
  match Request.ofArguments? arguments with
  | none => do
    Terminal.printError usage
    return 2
  | some (.help topic) => do
    Terminal.print topic.text
    return 0
  | some (.command command) => do
    match ← command.perform.run with
    | .ok () => return 0
    | .error fault =>
      Terminal.printError ("Error: " ++ report fault ++ "\n")
      return 1

end Commands

/-! ### Outcomes -/

/-- What can be seen of a run from outside, files apart. -/
structure Outcome where
  /-- Zero for success, one for a fault, two for a misuse. -/
  exitCode : UInt32
  /-- What goes to standard output. -/
  output : String := ""
  /-- What goes to standard error. -/
  errors : String := ""
deriving DecidableEq, Repr

/-- Runs the program and gathers what it prints. -/
def execute {m : Type → Type} [Monad m] [FileAccess m] (arguments : List String) : m Outcome := do
  let (exitCode, printed) ← StateT.run (program arguments) ({} : Printed)
  return ⟨exitCode, printed.output, printed.errors⟩

end WireBindings.CommandLine
