import WireBindings.Schema.Container
import WireBindings.Wire.Number

/-!
# Reading containers

A `Reader` takes what it reads from the front of the input and leaves the rest. A container is read
from front to back, and the first thing that is wrong is the answer: the input ends too early, a tag
stands for nothing, or a text is not UTF-8, which is noticed once all octets of the text are there.
After the container nothing may be left.

Definitions may come in any order, and names may be repeated; then the last one counts. The table
that is read has them in ascending order of the names' octets, once each.

A list is read element by element, as many as its length says. The length alone costs nothing,
however large it is.
-/

namespace WireBindings.Wire

open Text

/-- Why octets are not a container. -/
inductive Fault where
  /-- The input ends too early. -/
  | endOfInput
  /-- A tag stands for no alternative. -/
  | unknownTag (tag : UInt8)
  /-- A text is not UTF-8. -/
  | notText (why : Utf8.Fault)
  /-- Octets are left after the container. -/
  | leftOver
deriving DecidableEq, Repr

/-- The fault in words. -/
def Fault.message : Fault → String
  | endOfInput => "Unexpected length of input"
  | unknownTag tag => "Unexpected variant tag: " ++ toString tag.toNat
  | notText why => why.message
  | leftOver => "Not all bytes read"

/-- Reads a value from the front of the input. -/
abbrev Reader := StateT (List UInt8) (Except Fault)

namespace Reader

/-- The next octet. -/
def octet : Reader UInt8 := fun
  | [] => .error .endOfInput
  | octet :: rest => .ok (octet, rest)

/-- The next `count` octets. -/
def octets (count : Nat) : Reader (List UInt8) := fun input =>
  let taken := input.take count
  if taken.length = count then .ok (taken, input.drop count) else .error .endOfInput

/-- A number of `width` octets. -/
def number (width : Nat) : Reader Nat := ofOctets <$> octets width

/-- A text. -/
def text : Reader String := do
  let length ← number 4
  -- all octets of the text have to be there before any of them is looked at
  match Utf8.decode (← octets length) with
  | .ok text => return text
  | .error why => throw (.notText why)

/-- As many values as `count` says. -/
def many {α : Type} (element : Reader α) : (count : Nat) → Reader (List α)
  | 0 => return []
  | count + 1 => do
    let first ← element
    let rest ← many element count
    return first :: rest

/-- A list. -/
def list {α : Type} (element : Reader α) : Reader (List α) := do
  many element (← number 4)

/-- A named field. -/
def namedField : Reader NamedField := do
  let name ← text
  let declaration ← text
  return ⟨name, declaration⟩

/-- The fields of a struct. -/
def fields : Reader Fields := do
  let tag ← octet
  if tag = 0 then .named <$> list namedField
  else if tag = 1 then .unnamed <$> list text
  else if tag = 2 then return .empty
  else throw (.unknownTag tag)

/-- A variant of an enum. -/
def variant : Reader Variant := do
  let discriminant ← number 8
  let name ← text
  let declaration ← text
  return ⟨(UInt64.ofNat discriminant).toInt64, name, declaration⟩

/-- What follows the tag of a definition of that kind. -/
def body : Kind → Reader Definition
  | .primitive => .primitive <$> octet
  | .sequence => do
    let lengthWidth ← octet
    let first ← number 8
    let last ← number 8
    let elements ← text
    return .sequence lengthWidth ⟨UInt64.ofNat first, UInt64.ofNat last⟩ elements
  | .tuple => .tuple <$> list text
  | .enum => do
    let tagWidth ← octet
    let variants ← list variant
    return .enum tagWidth variants
  | .struct => .struct <$> fields

/-- A definition. -/
def definition : Reader Definition := do
  let tag ← octet
  match Kind.ofOrdinal? tag with
  | some kind => body kind
  | none => throw (.unknownTag tag)

/-- A definition under its name. -/
def entry : Reader (String × Definition) := do
  let name ← text
  let definition ← definition
  return (name, definition)

/-- A container. -/
def container : Reader Container := do
  let declaration ← text
  let entries ← list entry
  -- the last definition of a repeated name wins, and order on the wire is forgotten
  return ⟨declaration, (Definitions.ofEntries entries).sorted⟩

end Reader

/-- The container that the octets encode, all of them. -/
def decode (octets : List UInt8) : Except Fault Container := do
  let (container, rest) ← Reader.container octets
  if rest.isEmpty then return container else throw .leftOver

end WireBindings.Wire
