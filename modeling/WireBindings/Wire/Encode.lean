import WireBindings.Schema.Container
import WireBindings.Wire.Number

/-!
# Writing containers

A container is written as the root declaration, the number of definitions, and the definitions in
ascending order of the octets of their names. Texts and lists are preceded by their length, the
alternatives of a type by a tag:

| | layout |
|---|---|
| text | length (4 octets), UTF-8 |
| list | length (4 octets), elements |
| primitive | 0, size |
| sequence | 1, length width, least and greatest length (8 octets each), elements |
| tuple | 2, list of elements |
| enum | 3, tag width, list of discriminant (8 octets), name, declaration |
| struct | 4, fields |
| fields | 0, list of name and declaration; 1, list of declarations; or 2 |

Lengths of 2^32 and more have no representation; what is written for them cannot be read back.
-/

namespace WireBindings.Wire

open Text

/-- A text: the number of its octets, then the octets. -/
def textOctets (text : String) : List UInt8 :=
  toOctets 4 (Utf8.encode text).length ++ Utf8.encode text

/-- A list: the number of its elements, then the elements. -/
def listOctets {α : Type} (octets : α → List UInt8) (elements : List α) : List UInt8 :=
  toOctets 4 elements.length ++ elements.flatMap octets

/-- A named field: name, then declaration. -/
def namedFieldOctets (field : NamedField) : List UInt8 :=
  textOctets field.name ++ textOctets field.declaration

/-- The fields of a struct. -/
def fieldsOctets : Fields → List UInt8
  | .named fields => 0 :: listOctets namedFieldOctets fields
  | .unnamed declarations => 1 :: listOctets textOctets declarations
  | .empty => [2]

/-- A variant: discriminant, name, declaration. -/
def variantOctets (variant : Variant) : List UInt8 :=
  toOctets 8 variant.discriminant.toUInt64.toNat ++ textOctets variant.name
    ++ textOctets variant.declaration

/-- What follows the tag of a definition. -/
def bodyOctets : Definition → List UInt8
  | .primitive size => [size]
  | .sequence lengthWidth lengths elements =>
    lengthWidth :: (toOctets 8 lengths.first.toNat ++ toOctets 8 lengths.last.toNat
      ++ textOctets elements)
  | .tuple elements => listOctets textOctets elements
  | .enum tagWidth variants => tagWidth :: listOctets variantOctets variants
  | .struct fields => fieldsOctets fields

/-- A definition: the tag of its kind, then what belongs to that kind. -/
def definitionOctets (definition : Definition) : List UInt8 :=
  definition.kind.ordinal :: bodyOctets definition

/-- A definition under its name. -/
def entryOctets (entry : String × Definition) : List UInt8 :=
  textOctets entry.1 ++ definitionOctets entry.2

/-- The layout of a root declaration with definitions in the given order. -/
def layout (declaration : String) (entries : List (String × Definition)) : List UInt8 :=
  textOctets declaration ++ listOctets entryOctets entries

/-- The octets of a container. -/
def encode (container : Container) : List UInt8 :=
  layout container.declaration container.definitions.sorted.entries

end WireBindings.Wire
