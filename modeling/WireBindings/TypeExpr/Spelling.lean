import WireBindings.Text.Blank
import WireBindings.TypeExpr.Word

/-!
# Spellings of types

The grammar of type declarations, stated without a reader: `Spells text type` holds when the text is
a way to write the type. A type has many spellings, since blanks may stand around every type, before
the `<` of a generic and around the length of an array, and since a tuple may end in a comma. No
text spells two types.

The grammar speaks of each kind of bracket on its own. That a text with crossed brackets, such as
`([u8), (u8])`, spells nothing is therefore plain here, while `TypeExpr.parse` counts brackets of
all kinds together and has to be shown to come to the same answer.
-/

namespace WireBindings

open Text (isBlank)

/-! ### Words -/

/-- A letter or underscore, then letters, digits and underscores. -/
def Identifier (word : List Char) : Prop :=
  ∃ first rest, word = first :: rest ∧ isWordStart first ∧ ∀ c ∈ rest, isWordChar c

/-- One digit or more. -/
def Digits (word : List Char) : Prop := word ≠ [] ∧ ∀ c ∈ word, c.isDigit

/-- The name of a number of fixed width: `i`, `u` or `f`, then digits. -/
def NumericName (word : List Char) : Prop :=
  ∃ first digits, word = first :: digits ∧ first ∈ ['i', 'u', 'f'] ∧ Digits digits

/-- The check for identifiers finds just these. -/
theorem isIdentifier_iff {word : List Char} : isIdentifier word ↔ Identifier word := by
  cases word with
  | nil => simp [isIdentifier, Identifier]
  | cons first rest => simp [isIdentifier, Identifier, and_assoc]

theorem isDigits_iff {word : List Char} : isDigits word ↔ Digits word := by
  simp [isDigits, Digits]

/-- The check for names of numbers finds just these. -/
theorem isNumeric_iff {word : List Char} : isNumeric word ↔ NumericName word := by
  cases word with
  | nil => simp [isNumeric, NumericName]
  | cons first digits => simp [isNumeric, NumericName, isDigits_iff, or_assoc, and_assoc]

/-- Only blanks. -/
def Gap (text : List Char) : Prop := ∀ c ∈ text, isBlank c

/-! ### Types -/

mutual

/-- The text is a spelling of the type. -/
inductive Spells : List Char → TypeExpr → Prop
  /-- Nothing may stand between the brackets of the unit type, not even a blank. -/
  | unit : Spells ['(', ')'] .unit
  | string : Spells ['S', 't', 'r', 'i', 'n', 'g'] .string
  | numeric {word : List Char} (hname : NumericName word) :
      Spells word (.numeric (String.ofList word))
  /-- Every other identifier refers to a declaration. -/
  | named {word : List Char} (hname : Identifier word) (hnotNumeric : ¬ NumericName word)
      (hnotString : word ≠ ['S', 't', 'r', 'i', 'n', 'g']) :
      Spells word (.named (String.ofList word))
  | generic {head : Generic} {gap inner : List Char} {arguments : List TypeExpr} (hblank : Gap gap)
      (hspelled : SpellsAll inner arguments) (hcomplete : arguments.length = head.arity) :
      Spells (head.name.toList ++ gap ++ '<' :: inner ++ ['>']) (.generic head arguments)
  | tuple {inner : List Char} {elements : List TypeExpr} (hspelled : SpellsAll inner elements) :
      Spells ('(' :: inner ++ [')']) (.tuple elements)
  /-- A comma may follow the last element of a tuple. -/
  | tupleWithComma {inner gap : List Char} {elements : List TypeExpr}
      (hspelled : SpellsAll inner elements) (hblank : Gap gap) :
      Spells ('(' :: inner ++ ',' :: gap ++ [')']) (.tuple elements)
  /-- The length may have leading zeros, but its value has to fit 64 bits. -/
  | array {inner before digits after : List Char} {element : TypeExpr}
      (hspelled : Spells inner element) (hblankBefore : Gap before) (hnumber : Digits digits)
      (hfits : decimalValue digits < UInt64.size) (hblankAfter : Gap after) :
      Spells ('[' :: inner ++ ';' :: before ++ digits ++ after ++ [']'])
        (.array element (decimalValue digits))
  /-- Blanks around a type do not matter. -/
  | padded {before text after : List Char} {type : TypeExpr} (hblankBefore : Gap before)
      (hspelled : Spells text type) (hblankAfter : Gap after) :
      Spells (before ++ text ++ after) type

/-- The text spells the types, one or more, with a comma between any two. -/
inductive SpellsAll : List Char → List TypeExpr → Prop
  | last {text : List Char} {type : TypeExpr} (hspelled : Spells text type) : SpellsAll text [type]
  | more {text rest : List Char} {type : TypeExpr} {types : List TypeExpr}
      (hfirst : Spells text type) (hothers : SpellsAll rest types) :
      SpellsAll (text ++ ',' :: rest) (type :: types)

end

/-- There is no empty list of arguments or elements. -/
theorem SpellsAll.ne_nil {text : List Char} {types : List TypeExpr} (h : SpellsAll text types) :
    types ≠ [] := by
  cases h with
  | last => exact List.cons_ne_nil _ _
  | more => exact List.cons_ne_nil _ _

end WireBindings
