import WireBindings.Schema.Container

/-!
# What fits the wire

Lengths of texts and lists travel in four octets. A value *fits* when each of its texts takes fewer
than 2^32 octets and each of its lists has fewer than 2^32 elements. Only what fits can be told from
what is written for it.
-/

namespace WireBindings.Wire

open Text

/-- A length that four octets can hold. -/
def LengthFits (length : Nat) : Prop := length < UInt32.size

/-- A text short enough. -/
def TextFits (text : String) : Prop := LengthFits (Utf8.encode text).length

/-- A list short enough, of elements that fit. -/
def ListFits {α : Type} (elementFits : α → Prop) (elements : List α) : Prop :=
  LengthFits elements.length ∧ ∀ element ∈ elements, elementFits element

/-- A named field that fits. -/
def NamedFieldFits (field : NamedField) : Prop := TextFits field.name ∧ TextFits field.declaration

/-- Fields that fit. -/
def FieldsFit : Fields → Prop
  | .named fields => ListFits NamedFieldFits fields
  | .unnamed declarations => ListFits TextFits declarations
  | .empty => True

/-- A variant that fits. -/
def VariantFits (variant : Variant) : Prop := TextFits variant.name ∧ TextFits variant.declaration

/-- A definition that fits. Numbers always do: each has as many octets as its type. -/
def DefinitionFits : Definition → Prop
  | .primitive _ => True
  | .sequence _ _ elements => TextFits elements
  | .tuple elements => ListFits TextFits elements
  | .enum _ variants => ListFits VariantFits variants
  | .struct fields => FieldsFit fields

/-- A definition that fits, under a name that fits. -/
def EntryFits (entry : String × Definition) : Prop := TextFits entry.1 ∧ DefinitionFits entry.2

/-- A container that fits. -/
def ContainerFits (container : Container) : Prop :=
  TextFits container.declaration ∧ ListFits EntryFits container.definitions.entries

/-! ### Whether something fits can be computed -/

instance (length : Nat) : Decidable (LengthFits length) :=
  inferInstanceAs (Decidable (length < UInt32.size))

instance : DecidablePred TextFits := fun text =>
  inferInstanceAs (Decidable (LengthFits (Utf8.encode text).length))

instance {α : Type} (elementFits : α → Prop) [DecidablePred elementFits] :
    DecidablePred (ListFits elementFits) := fun elements =>
  inferInstanceAs
    (Decidable (LengthFits elements.length ∧ ∀ element ∈ elements, elementFits element))

instance : DecidablePred NamedFieldFits := fun field =>
  inferInstanceAs (Decidable (TextFits field.name ∧ TextFits field.declaration))

instance : DecidablePred FieldsFit
  | .named fields => inferInstanceAs (Decidable (ListFits NamedFieldFits fields))
  | .unnamed declarations => inferInstanceAs (Decidable (ListFits TextFits declarations))
  | .empty => isTrue trivial

instance : DecidablePred VariantFits := fun variant =>
  inferInstanceAs (Decidable (TextFits variant.name ∧ TextFits variant.declaration))

instance : DecidablePred DefinitionFits
  | .primitive _ => isTrue trivial
  | .sequence _ _ elements => inferInstanceAs (Decidable (TextFits elements))
  | .tuple elements => inferInstanceAs (Decidable (ListFits TextFits elements))
  | .enum _ variants => inferInstanceAs (Decidable (ListFits VariantFits variants))
  | .struct fields => inferInstanceAs (Decidable (FieldsFit fields))

instance : DecidablePred EntryFits := fun entry =>
  inferInstanceAs (Decidable (TextFits entry.1 ∧ DefinitionFits entry.2))

instance : DecidablePred ContainerFits := fun container =>
  inferInstanceAs (Decidable
    (TextFits container.declaration ∧ ListFits EntryFits container.definitions.entries))

end WireBindings.Wire
