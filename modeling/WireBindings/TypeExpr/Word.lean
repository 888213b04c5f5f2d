import WireBindings.TypeExpr.Fault

/-!
# Words

The texts that hold no bracket: names, the names of the built-in types, and the lengths of arrays.
Letters and digits are those of ASCII.
-/

namespace WireBindings

/-- Whether a name may begin with the character. -/
def isWordStart (c : Char) : Bool := c.isAlpha || c == '_'

/-- Whether a name may go on with the character. -/
def isWordChar (c : Char) : Bool := c.isAlphanum || c == '_'

/-- Whether the text is a letter or underscore followed by letters, digits and underscores. -/
def isIdentifier : List Char → Bool
  | [] => false
  | c :: rest => isWordStart c && rest.all isWordChar

/-- Whether the text consists of one digit or more. -/
def isDigits (text : List Char) : Bool := !text.isEmpty && text.all Char.isDigit

/-- Whether the text names a number of fixed width: `i`, `u` or `f` and digits. -/
def isNumeric : List Char → Bool
  | [] => false
  | c :: digits => (c == 'i' || c == 'u' || c == 'f') && isDigits digits

/-- The type that a name denotes by itself, if the text is a name. -/
def TypeExpr.ofWord? (text : List Char) : Option TypeExpr :=
  if String.ofList text = "String" then some .string
  else if isNumeric text then some (.numeric (String.ofList text))
  else if isIdentifier text then some (.named (String.ofList text))
  else none

/-- The number that decimal digits spell. -/
def decimalValue (digits : List Char) : Nat :=
  digits.foldl (fun value digit => 10 * value + (digit.toNat - '0'.toNat)) 0

/-- The length of an array: a decimal number that fits 64 bits. -/
def arrayLength (text : List Char) : Except Malformation Nat :=
  if isDigits text then
    if decimalValue text < UInt64.size then .ok (decimalValue text)
    else .error (.lengthTooLarge (String.ofList text))
  else .error (.lengthNotInteger (String.ofList text))

end WireBindings
