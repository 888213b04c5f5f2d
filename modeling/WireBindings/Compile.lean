import WireBindings.Files.Fault
import WireBindings.Generate
import WireBindings.Json.Dump
import WireBindings.Wire.Decode

/-!
# From octets to text

The two services of the library for a schema that comes as octets: bindings (`compile`) and a dump
(`dumpText`). A `Fault` is whatever may stand in the way between a file and such a text.
-/

namespace WireBindings

/-- Why there is no text for a file. -/
inductive Fault where
  /-- A file cannot be read or written. -/
  | file (fault : Files.Fault)
  /-- The octets are not a container. -/
  | decode (fault : Wire.Fault)
  /-- The container has no bindings. -/
  | generation (fault : GenerationFault)
deriving DecidableEq, Repr

/-- What went wrong in decoding, in words. -/
def Wire.Fault.report (fault : Wire.Fault) : String :=
  "Failed to decode schema container: " ++ fault.message

/-- The fault in words. -/
def Fault.message : Fault → String
  | file fault => "I/O error: " ++ fault.message
  | decode fault => "Schema decode error: " ++ fault.report
  | generation fault => fault.message

/-- The container that the octets encode. -/
def decodeContainer (octets : List UInt8) : Except Fault Container :=
  (Wire.decode octets).mapError .decode

/-- The bindings for the container that the octets encode. -/
def compile (options : Options) (octets : List UInt8) : Except Fault String := do
  let container ← decodeContainer octets
  (container.generate options).mapError .generation

/-- The dump of the container that the octets encode. -/
def dumpText (octets : List UInt8) : Except Fault String := do
  let container ← decodeContainer octets
  return container.dump.pretty 0

end WireBindings
