import WireBindings.Compile
import WireBindings.Text.Literal

/-!
# Reports

What the command line says about a fault: the name of the kind of fault and its particulars, all on
one line. Texts are shown so that every character can be told, and a piece of a declaration, which
is quoted in the message itself, is quoted a second time.
-/

namespace WireBindings.CommandLine

open Text (literal quote)

/-- A refused file access as a report shows it. -/
def reportFile (fault : Files.Fault) : String :=
  "Io(Os \x7b code: " ++ toString fault.code ++ ", kind: " ++ fault.kind ++ ", message: "
    ++ literal fault.sentence ++ " \x7d)"

/-- A fault of a declaration as a report shows it. -/
def reportType : TypeFault → String
  | .malformed declaration why =>
    "MalformedTypeReference \x7b declaration: " ++ literal (quote declaration) ++ ", msg: "
      ++ literal why.message ++ " \x7d"
  | .unknownGeneric name => "UnknownGenericType(" ++ literal name ++ ")"
  | .arity head found =>
    "GenericArity \x7b name: " ++ literal head.name ++ ", expected: " ++ toString head.arity
      ++ ", found: " ++ toString found ++ " \x7d"

/-- A fault of generation as a report shows it. -/
def reportGeneration : GenerationFault → String
  | .type fault => reportType fault
  | .circular name => "CircularDependency(" ++ literal name ++ ")"
  | .unsupportedShape parent variant why =>
    "UnsupportedVariantShape \x7b parent: " ++ literal parent ++ ", variant: " ++ literal variant
      ++ ", msg: " ++ literal why.message ++ " \x7d"
  | .undeclarable name kind =>
    "UnknownDefinitionKind \x7b name: " ++ literal name ++ ", kind: " ++ literal kind.name ++
      " \x7d"

/-- A fault as a report shows it: the name of the kind of fault, and its particulars. -/
def report : Fault → String
  | .file fault => reportFile fault
  | .decode fault => "DecodeError(" ++ literal fault.report ++ ")"
  | .generation fault => reportGeneration fault

end WireBindings.CommandLine
