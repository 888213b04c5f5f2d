import WireBindings.TypeExpr.Outline
import WireBindings.TypeExpr.Word

/-!
# Reading type declarations

`TypeExpr.parse` reads the text of a type declaration. The outermost form is found first
(`outline`); what stands inside brackets is cut into pieces, and the pieces are read in turn, from
left to right. The first fault met this way is the answer.

A fault names the text in which it was found. That is the piece being read, not the whole
declaration, except for an empty piece, which is a fault of the text around it.

Blanks are ignored around every piece, around the name of a generic and around the length of an
array; within a word they are not.
-/

namespace WireBindings

open Text (trim)

/-- Places a malformation in the declaration in which it was found. -/
def Malformation.within {α : Type} (declaration : List Char) :
    Except Malformation α → Except TypeFault α :=
  Except.mapError (TypeFault.malformed (String.ofList declaration))

/-- The generic that the text before `<` names. -/
def genericHead (declaration base : List Char) : Except TypeFault Generic :=
  if isIdentifier (trim base) then
    match Generic.ofName? (String.ofList (trim base)) with
    | some head => .ok head
    | none => .error (.unknownGeneric (String.ofList (trim base)))
  else .error (.malformed (String.ofList declaration) (.notGenericName (String.ofList (trim base))))

/-- A generic applied to arguments, provided there are as many as it takes. -/
def applyGeneric (head : Generic) (arguments : List TypeExpr) : Except TypeFault TypeExpr :=
  if arguments.length = head.arity then .ok (.generic head arguments)
  else .error (.arity head arguments.length)

namespace TypeExpr

mutual

/-- The type that the characters of a declaration denote. -/
def parseChars (declaration : List Char) : Except TypeFault TypeExpr :=
  match _ : outline (trim declaration) with
  | .blank => .error (.malformed (String.ofList declaration) .emptyType)
  | .unit => .ok .unit
  | .tuple body =>
    match _ : splitTop ',' body with
    | .error why => .error (.malformed (String.ofList declaration) why)
    | .ok parts => tuple <$> parseElements declaration (dropTrailingEmpty parts)
  | .array body =>
    match _ : splitTop ';' body with
    | .error why => .error (.malformed (String.ofList declaration) why)
    | .ok [element, length] => do
      -- the length is looked at before the element is read
      let length ← Malformation.within declaration (arrayLength length)
      let element ← parseElement declaration element
      return array element length
    | .ok _ => .error (.malformed (String.ofList declaration) .arrayParts)
  | .generic base inner => do
    -- the name comes first, then the pieces, then the types in them, and their number last
    let head ← genericHead declaration base
    match _ : splitTop ',' inner with
    | .error why => .error (.malformed (String.ofList declaration) why)
    | .ok parts =>
      let arguments ← parseElements declaration parts
      applyGeneric head arguments
  | .unclosed => .error (.malformed (String.ofList declaration) .unclosedArguments)
  | .word =>
    match ofWord? (trim declaration) with
    | some type => .ok type
    | none =>
      .error (.malformed (String.ofList declaration)
        (.unexpectedToken (String.ofList (trim declaration))))
-- one number for all three functions: a whole comes before its pieces, a piece before its element
termination_by 3 * declaration.length + 1
decreasing_by
  all_goals have hshorter := Text.length_trim_le declaration
  · have hinside := length_lt_of_outline_eq_tuple ‹_›
    have hfewer := totalLength_dropTrailingEmpty_le parts
    have hfits := totalLength_splitTop_le ‹_›
    omega
  · have hinside := length_lt_of_outline_eq_array ‹_›
    have hfits := totalLength_splitTop_le ‹_›
    simp only [totalLength_cons] at hfits
    omega
  · have hinside := length_lt_of_outline_eq_generic ‹_›
    have hfits := totalLength_splitTop_le ‹_›
    omega

/-- The type that a piece of `declaration` denotes. An empty piece is a fault of the whole. -/
def parseElement (declaration piece : List Char) : Except TypeFault TypeExpr :=
  if piece.isEmpty then .error (.malformed (String.ofList declaration) .emptyElement)
  else parseChars piece
termination_by 3 * piece.length + 2

/-- The types that the pieces of `declaration` denote, read from left to right. -/
def parseElements (declaration : List Char) :
    List (List Char) → Except TypeFault (List TypeExpr)
  | [] => .ok []
  | piece :: rest => do
    let type ← parseElement declaration piece
    let types ← parseElements declaration rest
    return type :: types
termination_by parts => 3 * totalLength parts
decreasing_by
  all_goals
    rw [totalLength_cons]
    omega

end

/-- The type that a declaration denotes. -/
def parse (declaration : String) : Except TypeFault TypeExpr := parseChars declaration.toList

end TypeExpr

end WireBindings
