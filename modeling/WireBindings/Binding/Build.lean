import WireBindings.Binding.Basic
import WireBindings.Fault
import WireBindings.Schema.Container
import WireBindings.TypeExpr.Parse

/-!
# From definitions to bindings

A struct with named fields becomes a struct, an enum becomes an enum, and nothing else can be
declared. What a variant carries is written inside the enum: the struct of that name if there is
one, or else the type that the declaration denotes.

| the variant carries | its payload is |
|---|---|
| `()`, or a struct without fields | the unit type |
| a struct with one unnamed field | the type of that field |
| a struct with named fields | these fields |
| a declaration without definition | the type it denotes |
-/

namespace WireBindings

/-- The type that a declaration denotes. -/
def readType (declaration : String) : Except GenerationFault TypeExpr :=
  (TypeExpr.parse declaration).mapError .type

/-- The fields with their types. -/
def readFields (fields : List NamedField) : Except GenerationFault (List TypedField) :=
  fields.mapM fun field => do return ⟨field.name, ← readType field.declaration⟩

namespace Container

/-- What a variant of the enum `parent` carries. -/
def payload (container : Container) (parent : String) (variant : Variant) :
    Except GenerationFault Payload :=
  -- `()` is the unit type even where there happens to be a definition of that name
  if variant.isUnit then .ok (.value .unit)
  else
    match container.get? variant.declaration with
    | none => .value <$> readType variant.declaration
    | some (.struct (.unnamed [])) => .ok (.value .unit)
    | some (.struct (.unnamed [only])) => .value <$> readType only
    | some (.struct (.unnamed several)) =>
      .error (.unsupportedShape parent variant.name (.severalUnnamedFields several.length))
    | some (.struct .empty) => .ok (.value .unit)
    | some (.struct (.named fields)) => .struct <$> readFields fields
    | some other => .error (.unsupportedShape parent variant.name (.payloadKind other.kind))

/-- The declaration of a definition under its own name. -/
def bindingForm (container : Container) (name : String) :
    Definition → Except GenerationFault BindingForm
  | .struct (.named fields) => .struct <$> readFields fields
  | .struct _ => .error (.unsupportedShape name name .fieldsNotNamed)
  | .enum _ variants =>
    .enum <$> variants.mapM fun variant => do
      return ⟨variant.name, ← container.payload name variant⟩
  | other => .error (.undeclarable name other.kind)

/-- The bindings of the names, in the given order. Names without a definition are passed over. -/
def bindings (container : Container) (names : List String) :
    Except GenerationFault (List Binding) :=
  (names.filterMap fun name => (container.get? name).map (name, ·)).mapM
    fun (name, definition) => do return ⟨name, ← container.bindingForm name definition⟩

end Container

end WireBindings
