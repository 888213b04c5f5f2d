import WireBindings.Schema.Container

/-!
# Nominal definitions

A definition is *nominal* when the bindings declare it under its own name. All others are covered
without a declaration:

* *payloads*, named as what some variant carries, are written inside the enum that carries them;
* *synthetic* definitions belong to types that a declaration spells out (collections, tuples,
  options, numbers, text), or are mere octets.

An `Option<…>` is an enum on the wire, but its payload is an ordinary type, so options do not make
anything a payload.
-/

namespace WireBindings

/-- Whether the name is that of an option type. -/
def isOptionName (name : String) : Bool := "Option<".toList.isPrefixOf name.toList

/-- Whether the name is a small letter followed by digits only, as numbers are named. -/
def isNumberName (name : String) : Bool :=
  match name.toList with
  | [] => false
  | c :: digits => c.isLower && digits.all Char.isDigit

/-- Whether a definition of that name belongs to a type that is spelled out where it is used. -/
def isSynthetic (name : String) (definition : Definition) : Bool :=
  name.toList.contains '<'
    || name.toList.head? == some '('
    || isOptionName name
    || isNumberName name
    || name == "String"
    || definition.kind == .sequence
    || definition.kind == .primitive

namespace Container

/-- The declarations that some variant of an enum carries, options left aside. -/
def payloadNames (container : Container) : List String :=
  container.definitions.entries.flatMap fun (name, definition) =>
    if isOptionName name then [] else definition.carryingVariants.map Variant.declaration

/-- The names that get a declaration of their own, in the order of the definitions. -/
def nominalNames (container : Container) : List String :=
  -- a definition is a payload wherever the enum that carries it stands, before or after it
  let payloads := container.payloadNames
  (container.definitions.entries.filter fun (name, definition) =>
    !payloads.contains name && !isSynthetic name definition).map Prod.fst

end Container

end WireBindings
