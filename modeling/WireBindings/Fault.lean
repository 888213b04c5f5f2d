import WireBindings.Schema.Basic
import WireBindings.TypeExpr.Fault

/-!
# Faults of generation

Generation fails in one of three stages. A declaration that is read denotes no type
(`GenerationFault.type`); the nominal definitions depend on each other in a circle (`circular`); or
some definition has a form for which there is no declaration (`unsupportedShape`, `undeclarable`).
The stages are gone through in this order, each for the whole schema.
-/

namespace WireBindings

namespace TypeFault

/-- The fault in words. -/
def message : TypeFault → String
  | malformed declaration why =>
    "Malformed type reference " ++ Text.quote declaration ++ ": " ++ why.message
  | unknownGeneric name => "Unknown generic type: " ++ name
  | arity head found =>
    "Generic type " ++ head.name ++ " expects " ++ toString head.arity
      ++ " argument(s) but got " ++ toString found

end TypeFault

/-- Why a definition or a variant has no form in the bindings. -/
inductive ShapeFault where
  /-- A struct without named fields stands on its own. -/
  | fieldsNotNamed
  /-- A variant carries a struct of several unnamed fields. -/
  | severalUnnamedFields (count : Nat)
  /-- A variant carries something that is defined, but not as a struct. -/
  | payloadKind (kind : Kind)
deriving DecidableEq, Repr

/-- The reason in words. -/
def ShapeFault.message : ShapeFault → String
  | fieldsNotNamed => "only structs with named fields can be declared on their own"
  | severalUnnamedFields count => toString count ++ " unnamed fields"
  | payloadKind kind => "payload is a " ++ kind.name ++ " definition"

/-- Why no bindings are generated for a schema. -/
inductive GenerationFault where
  /-- A declaration denotes no type. -/
  | type (fault : TypeFault)
  /-- The definition depends on itself. -/
  | circular (name : String)
  /-- A variant of `parent`, or `parent` itself, has no form in the bindings. -/
  | unsupportedShape (parent variant : String) (why : ShapeFault)
  /-- The definition is of a kind that is never declared. -/
  | undeclarable (name : String) (kind : Kind)
deriving DecidableEq, Repr

/-- The fault in words. -/
def GenerationFault.message : GenerationFault → String
  | type fault => fault.message
  | circular name => "Circular dependency found: " ++ name
  | unsupportedShape parent variant why =>
    "Unsupported variant shape for " ++ variant ++ " in " ++ parent ++ ": " ++ why.message
  | undeclarable name kind => "Unknown definition type for " ++ name ++ ": " ++ kind.name

end WireBindings
