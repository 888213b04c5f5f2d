import WireBindings.Schema.Definitions

/-!
# Containers

A container is a whole schema: the declaration of its root type and the definitions reachable from
it.
-/

namespace WireBindings

/-- A schema. -/
@[ext] structure Container where
  /-- The declaration of the root type. -/
  declaration : String
  /-- The definitions, in order of arrival. -/
  definitions : Definitions
deriving DecidableEq, Repr

namespace Container

/-- The container of a root type without definitions. -/
def ofDeclaration (declaration : String) : Container := ⟨declaration, ∅⟩

/-- Gives a name a definition, see `Definitions.insert`. -/
def insert (container : Container) (name : String) (definition : Definition) : Container :=
  { container with definitions := container.definitions.insert name definition }

/-- The definition of a name. -/
def get? (container : Container) (name : String) : Option Definition :=
  container.definitions.get? name

/-- Whether two containers have the same root and the same definitions, in whatever order. -/
def sameAs (a b : Container) : Bool :=
  a.declaration == b.declaration && a.definitions.sameEntries b.definitions

end Container

end WireBindings
