/-!
# Definitions

A schema describes a binary format by *definitions*. Each has a name of its own and refers to other
types by *declarations*: texts such as `u32`, `Vec<Item>` or the bare name of another definition.
Nothing is asked of these texts here; they are read when bindings are made.

The declaration `()` always denotes the unit type.
-/

namespace WireBindings

/-- The declaration of the unit type. -/
def unitDeclaration : String := "()"

/-- Bounds on the number of elements of a sequence, both included. They need not be in order. -/
structure LengthRange where
  /-- The least number of elements. -/
  first : UInt64
  /-- The greatest number of elements. -/
  last : UInt64
deriving DecidableEq, Repr

/-- A case of an enum. -/
structure Variant where
  /-- The number that tells the case apart on the wire. -/
  discriminant : Int64
  /-- The name of the case. -/
  name : String
  /-- The declaration of what the case carries. -/
  declaration : String
deriving DecidableEq, Repr

/-- A unit variant carries nothing. -/
def Variant.isUnit (variant : Variant) : Bool := variant.declaration == unitDeclaration

/-- A field with a name. -/
structure NamedField where
  /-- The name of the field. -/
  name : String
  /-- The declaration of the field's type. -/
  declaration : String
deriving DecidableEq, Repr

/-- The fields of a struct. -/
inductive Fields where
  /-- Fields with names. -/
  | named (fields : List NamedField)
  /-- Fields told apart by position. -/
  | unnamed (declarations : List String)
  /-- No fields at all; not the same as an empty list of either kind. -/
  | empty
deriving DecidableEq, Repr

/-- The declarations of the fields, in order. -/
def Fields.declarations : Fields → List String
  | named fields => fields.map NamedField.declaration
  | unnamed declarations => declarations
  | empty => []

/-- What a definition can be. -/
inductive Definition where
  /-- A value of `size` octets. -/
  | primitive (size : UInt8)
  /-- A sequence; its length takes `lengthWidth` octets and lies in `lengths`. -/
  | sequence (lengthWidth : UInt8) (lengths : LengthRange) (elements : String)
  /-- A tuple. -/
  | tuple (elements : List String)
  /-- One of several variants, told apart by a tag of `tagWidth` octets. -/
  | enum (tagWidth : UInt8) (variants : List Variant)
  /-- A struct. -/
  | struct (fields : Fields)
deriving DecidableEq, Repr

/-- The kinds of definitions. -/
inductive Kind where
  | primitive
  | sequence
  | tuple
  | enum
  | struct
deriving DecidableEq, Repr

namespace Kind

/-- The name of the kind, as diagnostics and the dump spell it. -/
def name : Kind → String
  | primitive => "Primitive"
  | sequence => "Sequence"
  | tuple => "Tuple"
  | enum => "Enum"
  | struct => "Struct"

/-- The number of the kind, which is also its tag on the wire. -/
def ordinal : Kind → UInt8
  | primitive => 0
  | sequence => 1
  | tuple => 2
  | enum => 3
  | struct => 4

/-- The kind of that number. -/
def ofOrdinal? (number : UInt8) : Option Kind :=
  if number = 0 then some primitive
  else if number = 1 then some sequence
  else if number = 2 then some tuple
  else if number = 3 then some enum
  else if number = 4 then some struct
  else none

/-- The ordinal tells the kind. -/
@[simp] theorem ofOrdinal?_ordinal (kind : Kind) : ofOrdinal? kind.ordinal = some kind := by
  cases kind <;> rfl

end Kind

namespace Definition

/-- The kind of a definition. -/
def kind : Definition → Kind
  | primitive _ => .primitive
  | sequence _ _ _ => .sequence
  | tuple _ => .tuple
  | enum _ _ => .enum
  | struct _ => .struct

/-- A sequence with a length of four octets and no further bound. -/
def unboundedSequence (elements : String) : Definition :=
  sequence 4 ⟨0, 4294967295⟩ elements

/-- An enum with a tag of one octet whose variants, given by name and declaration, are numbered from
zero. -/
def simpleEnum (variants : List (String × String)) : Definition :=
  enum 1 (variants.zipIdx.map fun ((name, declaration), i) => ⟨Int64.ofNat i, name, declaration⟩)

/-- The variants of an enum that carry something; no other definition has any. -/
def carryingVariants : Definition → List Variant
  | enum _ variants => variants.filter fun variant => !variant.isUnit
  | _ => []

end Definition

end WireBindings
