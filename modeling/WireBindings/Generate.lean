import WireBindings.Binding.Build
import WireBindings.Binding.Print
import WireBindings.Dependency.Order
import WireBindings.Schema.Nominal

/-!
# Generating bindings

`Container.generate` takes a schema to the text of a module: the nominal names are found, put into
an order in which each stands after what it mentions, and declared in that order. The first fault is
the answer, and then there is no text at all.
-/

namespace WireBindings

namespace Container

/-- The text of the module that declares the given names, in the given order. -/
def emit (container : Container) (options : Options) (names : List String) :
    Except GenerationFault String :=
  printModule options <$> container.bindings names

/-- The text of the module that declares all nominal names of the schema. -/
def generate (container : Container) (options : Options) : Except GenerationFault String := do
  let names ← container.resolve container.nominalNames
  container.emit options names

end Container

end WireBindings
