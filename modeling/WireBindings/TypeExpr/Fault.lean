import WireBindings.Text.Quoted
import WireBindings.TypeExpr.Basic

/-!
# Faults of type declarations

What can be wrong with the text of a type declaration. A `Malformation` is a reason; a `TypeFault`
says where it applies, which may be a part of a larger declaration.
-/

namespace WireBindings

/-- A reason why a text does not spell a type. -/
inductive Malformation where
  /-- Nothing but blanks. -/
  | emptyType
  /-- A piece between two delimiters is empty. -/
  | emptyElement
  /-- A bracket closes although none is open. -/
  | strayCloser (bracket : Char)
  /-- A bracket is still open at the end. -/
  | unclosedBrackets
  /-- There is a `<`, but the text does not end in `>`. -/
  | unclosedArguments
  /-- An array has not exactly an element and a length. -/
  | arrayParts
  /-- The length of an array is not a row of digits. -/
  | lengthNotInteger (length : String)
  /-- The length of an array does not fit 64 bits. -/
  | lengthTooLarge (length : String)
  /-- What stands before `<` is not a name. -/
  | notGenericName (base : String)
  /-- The text is neither a bracketed form nor a name. -/
  | unexpectedToken (token : String)
deriving DecidableEq, Repr

namespace Malformation

open Text (quote)

/-- The reason in words. Pieces of the declaration are shown quoted. -/
def message : Malformation → String
  | emptyType => "empty type"
  | emptyElement => "empty element"
  | strayCloser bracket => "unbalanced " ++ quote (String.singleton bracket)
  | unclosedBrackets => "unbalanced brackets"
  | unclosedArguments => "generic arguments are not closed"
  | arrayParts => "arrays are written [T; N]"
  | lengthNotInteger length => "array length " ++ quote length ++ " is not an integer"
  | lengthTooLarge length => "array length " ++ quote length ++ " is too large"
  | notGenericName base => quote base ++ " is not a generic type name"
  | unexpectedToken token => "unexpected token " ++ quote token

end Malformation

/-- Why a declaration does not denote a type. -/
inductive TypeFault where
  /-- The text `declaration`, the whole or a part, spells no type. -/
  | malformed (declaration : String) (why : Malformation)
  /-- A name that is no generic of the builder is applied to arguments. -/
  | unknownGeneric (name : String)
  /-- A generic is applied to the wrong number of arguments. -/
  | arity (head : Generic) (found : Nat)
deriving DecidableEq, Repr

end WireBindings
