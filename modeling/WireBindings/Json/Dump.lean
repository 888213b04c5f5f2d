import WireBindings.Json.Basic
import WireBindings.Schema.Container

/-!
# The dump of a container

A dump shows everything a container holds, as JSON. Each part becomes an object with a member for
each of its fields; a definition, or the fields of a struct, become an object whose single member is
named for the alternative. Fields without any content are the mere text `Empty`.
-/

namespace WireBindings

namespace Json

/-- An object whose single member names an alternative. -/
def tagged (tag : String) (content : Json) : Json := object [(tag, content)]

end Json

/-- The dump of a named field. -/
def NamedField.dump (field : NamedField) : Json :=
  .object [("name", .text field.name), ("declaration", .text field.declaration)]

/-- The dump of the fields of a struct. -/
def Fields.dump : Fields → Json
  | named fields => .tagged "NamedFields" (.list (fields.map NamedField.dump))
  | unnamed declarations => .tagged "UnnamedFields" (.list (declarations.map .text))
  | empty => .text "Empty"

/-- The dump of a variant. -/
def Variant.dump (variant : Variant) : Json :=
  .object [("discriminant", .number variant.discriminant.toInt), ("name", .text variant.name),
    ("declaration", .text variant.declaration)]

/-- The dump of the bounds of a sequence. -/
def LengthRange.dump (lengths : LengthRange) : Json :=
  .object [("start", .number lengths.first.toNat), ("end", .number lengths.last.toNat)]

/-- The members that show what a definition holds. -/
def Definition.members : Definition → List (String × Json)
  | primitive size => [("size", .number size.toNat)]
  | sequence lengthWidth lengths elements =>
    [("length_width", .number lengthWidth.toNat), ("length_range", lengths.dump),
      ("elements", .text elements)]
  | tuple elements => [("elements", .list (elements.map .text))]
  | enum tagWidth variants =>
    [("tag_width", .number tagWidth.toNat), ("variants", .list (variants.map Variant.dump))]
  | struct fields => [("fields", fields.dump)]

/-- The dump of a definition. -/
def Definition.dump (definition : Definition) : Json :=
  .tagged definition.kind.name (.object definition.members)

/-- The dump of a container. -/
def Container.dump (container : Container) : Json :=
  .object [("declaration", .text container.declaration),
    ("definitions", .object (container.definitions.entries.map fun (name, definition) =>
      (name, definition.dump)))]

end WireBindings
